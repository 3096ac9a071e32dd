import FieldComposition.Emission
import Mathlib.Data.List.Perm.Basic
import Mathlib.Tactic.Common

/-!
# Code of records

The code of a struct update or of an anonymous record is written from a plan: its bindings in order,
then its initialisers (`RecordCode`). Every expansion of a field list into a record has such code
(`recordCode_draft`), in which every host text of the plan stands once (`hostPieces_perm`).
-/

namespace FieldComposition

/-- What a field list is made into: a record of a given type, or one of a type of its own. -/
inductive RecordForm where
  | update (typePath : Expression)
  | anonymous
  deriving DecidableEq, Repr

namespace RecordForm

def entryPoint : RecordForm → EntryPoint
  | update _ => .spread
  | anonymous => .anon

def invocation (c : Composition) : RecordForm → Invocation
  | update typePath => .structUpdate typePath c
  | anonymous => .anonRecord c

def typeName (settings : Settings) : RecordForm → String
  | update typePath => typePath.text
  | anonymous => settings.anonTypeName

/-- An anonymous record of the python dialect is built without a base. -/
def takesBase (d : Dialect) : RecordForm → Bool
  | update _ => true
  | anonymous => d = .rust

end RecordForm

/-- The texts of the caller in a draft, in order. -/
def Draft.hostPieces (d : Draft) : List String :=
  d.statements.flatMap Code.hostPieces ++ d.expression.toList.flatMap Code.hostPieces

/-- Code that binds the sources of a plan in order and then initialises its fields: a call in the
python dialect, a literal in the rust dialect. The definition of a type may stand before them. -/
inductive RecordCode (settings : Settings) (p : Plan) : Dialect → RecordForm → Draft → Prop
  | construct (form : RecordForm) (imports : List Python.Module)
      (definition : List (List Python.Line))
      (hbase : form.takesBase .python → p.base = none)
      (hdefinition : ∀ block ∈ definition, ∀ line ∈ block,
        ∀ code ∈ line.code settings.runtimeAlias, code.hostPieces = []) :
      RecordCode settings p .python form <| Python.Script.draft settings.runtimeAlias
        { imports, blocks := definition ++ Python.bindingBlocks p,
          result := some (.construct (form.typeName settings)
            (Python.keywords p (form.typeName settings))) }
  | complete {typePath base : Expression} (imports : List Python.Module)
      (hbase : p.base = some base) :
      RecordCode settings p .python (.update typePath) <| Python.Script.draft settings.runtimeAlias
        { imports, blocks := Python.bindingBlocks p,
          result := some (.update typePath.text base.text (Python.keywords p typePath.text)) }
  | literal {typePath : Expression} (hbindings : p.bindings = []) :
      RecordCode settings p .rust (.update typePath)
        { expression := some (Rust.literal typePath.text p) }
  | block (form : RecordForm) (definition : List Code)
      (hdefinition : ∀ code ∈ definition, code.hostPieces = []) :
      RecordCode settings p .rust form
        { expression := some (Code.block (definition ++ Rust.bindings p ++
            [Rust.literal (form.typeName settings) p])) }

namespace Code

@[simp] lemma hostPieces_text (s : String) : (text s).hostPieces = [] := rfl

@[simp] lemma hostPieces_host (s : String) : (host s).hostPieces = [s] := rfl

@[simp] lemma hostPieces_append (first second : Code) :
    (first ++ second).hostPieces = first.hostPieces ++ second.hostPieces := rfl

@[simp] lemma hostPieces_indented (body : Code) : (indented body).hostPieces = body.hostPieces :=
  rfl

@[simp] lemma hostPieces_joined (separator : String) (pieces : List Code) :
    (joined separator pieces).hostPieces = pieces.flatMap hostPieces := by
  induction pieces with
  | nil => rfl
  | cons piece rest ih =>
    cases rest with
    | nil => simp [joined]
    | cons next rest => simpa [joined] using ih

@[simp] lemma hostPieces_enclosed (first : Code) (body : List Code) (last : Code) :
    (enclosed first body last).hostPieces =
      first.hostPieces ++ (body.flatMap hostPieces ++ last.hostPieces) := by
  simp [enclosed, stacked, indentedLines]

@[simp] lemma hostPieces_braced (head : Code) (body : List Code) :
    (braced head body).hostPieces = head.hostPieces ++ body.flatMap hostPieces := by
  simp [braced]

@[simp] lemma hostPieces_block (statements : List Code) :
    (block statements).hostPieces = statements.flatMap hostPieces := by
  simp [block]

end Code

lemma Python.hostPieces_anonType {settings : Settings} {t : FieldTable} {line : Python.Line}
    (hline : line ∈ Python.anonType settings t) {code : Code}
    (hcode : code ∈ line.code settings.runtimeAlias) : code.hostPieces = [] := by
  simp only [Python.anonType, List.mem_append, List.mem_map, List.mem_cons, List.not_mem_nil,
    or_false] at hline
  rcases hline with ⟨name, -, rfl⟩ | rfl | rfl | rfl
  · simp_all [Python.Line.code]
  · simp_all [Python.Line.code]
  · simp_all [Python.Line.code]
  · simp only [Python.Line.code, Python.ClassDef.lines, List.append_nil, List.map_map,
      List.cons_append, List.nil_append, List.mem_cons, List.mem_map] at hcode
    rcases hcode with rfl | rfl | ⟨field, -, rfl⟩ <;> rfl

lemma Rust.hostPieces_anonType {settings : Settings} {t : FieldTable} {code : Code}
    (hcode : code ∈ Rust.anonType settings t) : code.hostPieces = [] := by
  simp only [Rust.anonType, List.mem_cons, List.not_mem_nil, or_false] at hcode
  rcases hcode with rfl | rfl | rfl
  · rfl
  · rfl
  · simp [List.flatMap_map]

/-- Every expansion of a field list into a record is code of the plan of its table. -/
lemma recordCode_draft (d : Dialect) (settings : Settings) (form : RecordForm) (c : Composition)
    (t : FieldTable) :
    RecordCode settings (t.plan settings.bindingStem) d form
      ((⟨d, form.entryPoint⟩ : Backend).draft settings (form.invocation c) t) := by
  cases d with
  | python =>
    cases form with
    | update typePath =>
      change RecordCode _ _ _ _ ((Python.structUpdate settings typePath t).draft _)
      rw [Python.structUpdate]
      cases hbase : (t.plan settings.bindingStem).base with
      | none => exact .construct (.update typePath) _ [] (fun _ => hbase) (by simp)
      | some base => exact .complete _ hbase
    | anonymous =>
      refine .construct .anonymous _ [Python.anonType settings t] nofun ?_
      rintro block hblock line hline code hcode
      obtain rfl : block = Python.anonType settings t := by simpa using hblock
      exact Python.hostPieces_anonType hline hcode
  | rust =>
    cases form with
    | update typePath =>
      change RecordCode _ _ _ _ { expression := some (Rust.structUpdate settings typePath t) }
      rw [Rust.structUpdate]
      by_cases hbindings : (t.plan settings.bindingStem).bindings = []
      · rw [if_pos (by simpa using hbindings)]
        exact .literal hbindings
      · rw [if_neg (by simpa using hbindings)]
        exact .block (.update typePath) [] (by simp)
    | anonymous =>
      refine .block .anonymous (Rust.anonType settings t ++ [.text ""]) ?_
      intro code hcode
      rcases List.mem_append.mp hcode with hcode | hcode
      · exact Rust.hostPieces_anonType hcode
      · obtain rfl : code = .text "" := by simpa using hcode
        rfl

namespace Operand

/-- The text of the caller that an operand is. -/
def hostTexts : Operand → List String
  | host text => [text]
  | field .. => []

@[simp] lemma hostPieces_code (o : Operand) : o.code.hostPieces = o.hostTexts := by
  cases o <;> rfl

end Operand

@[simp] lemma Python.hostPieces_code (runtimeName : String) (m : Modifier) (o : Operand)
    (target? : Option (String × String)) :
    ((Python.Term.ofModifier m o target?).code runtimeName).hostPieces = o.hostTexts := by
  cases m <;> cases target? <;> simp [Python.Term.ofModifier, Python.Term.code]

@[simp] lemma Rust.hostPieces_atom (o : Operand) : (Rust.atom o).hostPieces = o.hostTexts := by
  unfold Rust.atom
  split <;> simp

@[simp] lemma Rust.hostPieces_code (m : Modifier) (o : Operand) :
    (Rust.Term.ofModifier m o).code.hostPieces = o.hostTexts := by
  cases m <;> simp [Rust.Term.ofModifier, Rust.Term.code]

@[simp] lemma Rust.hostPieces_initializer (i : Initializer) :
    (Rust.initializer i).hostPieces = i.operand.hostTexts := by
  unfold Rust.initializer
  dsimp only
  split <;> simp

namespace Plan

/-- The texts of the sources that a plan binds. -/
def sourceTexts (p : Plan) : List String :=
  p.bindings.map fun b => b.2.text

/-- The texts of the caller that the fields of a plan are initialised with. -/
def valueTexts (p : Plan) : List String :=
  p.initializers.flatMap fun i => i.operand.hostTexts

/-- The text of the base, where the record takes one. -/
def baseTexts (d : Dialect) (form : RecordForm) (p : Plan) : List String :=
  if form.takesBase d then p.base.toList.map Expression.text else []

end Plan

lemma Rust.hostPieces_literal (typePath : String) (p : Plan) :
    (Rust.literal typePath p).hostPieces = p.valueTexts ++ p.base.toList.map Expression.text := by
  have hfields : (p.initializers.map Rust.initializer ++
      p.base.toList.map fun base => Code.text ".." ++ .host base.text).flatMap Code.hostPieces =
        p.valueTexts ++ p.base.toList.map Expression.text := by
    cases hbase : p.base <;> simp [Plan.valueTexts, List.flatMap_map]
  unfold Rust.literal
  dsimp only
  split
  · rename_i hempty
    rw [List.isEmpty_iff.mp hempty] at hfields
    exact hfields
  · rw [Code.hostPieces_braced, hfields]
    rfl

lemma Rust.hostPieces_bindings (p : Plan) :
    (Rust.bindings p).flatMap Code.hostPieces = p.sourceTexts := by
  rw [Rust.bindings, List.flatMap_map, Plan.sourceTexts, List.map_eq_flatMap]
  rfl

lemma Python.hostPieces_call (callee : Code) (args : List Code) :
    (Python.call callee args).hostPieces = callee.hostPieces ++ args.flatMap Code.hostPieces := by
  unfold Python.call
  split
  · rename_i hempty
    rw [List.isEmpty_iff.mp hempty]
    simp
  · simp [List.flatMap_map]

lemma Python.hostPieces_keywords (runtimeName target : String) (p : Plan) :
    ((Python.keywords p target).map (Python.Computation.keyword runtimeName)).flatMap
      Code.hostPieces = p.valueTexts := by
  simp [Python.keywords, Python.Computation.keyword, Plan.valueTexts, List.flatMap_map]

lemma Python.hostPieces_bindingBlocks (runtimeName : String) (p : Plan) :
    ((Python.bindingBlocks p).map fun block =>
      Code.stacked (block.flatMap (·.code runtimeName))).flatMap Code.hostPieces =
        p.sourceTexts := by
  rw [Python.bindingBlocks, List.map_map, List.flatMap_map, Plan.sourceTexts, List.map_eq_flatMap]
  rfl

/-- The code of a record holds the texts of its plan and no others: each source, each value that is
a text of the caller, and the base once. -/
theorem RecordCode.hostPieces_perm {settings : Settings} {p : Plan} {d : Dialect}
    {form : RecordForm} {draft : Draft} (h : RecordCode settings p d form draft) :
    draft.hostPieces.Perm (p.sourceTexts ++ (p.valueTexts ++ p.baseTexts d form)) := by
  cases h with
  | construct _ imports definition hbase hdefinition =>
    have hbaseTexts : p.baseTexts .python form = [] := by
      unfold Plan.baseTexts
      split
      · rename_i htakes
        rw [hbase htakes]
        rfl
      · rfl
    have hnone : (definition.map fun block => Code.stacked (block.flatMap
        (·.code settings.runtimeAlias))).flatMap Code.hostPieces = [] := by
      simp only [List.flatMap_eq_nil_iff, List.mem_map, Code.stacked]
      rintro code ⟨block, hblock, rfl⟩
      rw [Code.hostPieces_joined, List.flatMap_eq_nil_iff]
      intro code hcode
      obtain ⟨line, hline, hcode⟩ := List.mem_flatMap.mp hcode
      exact hdefinition block hblock line hline code hcode
    rw [hbaseTexts, List.append_nil]
    simp only [Draft.hostPieces, Python.Script.draft, List.map_append, List.flatMap_append, hnone,
      Python.hostPieces_bindingBlocks, List.nil_append, Option.map_some, Option.toList_some,
      List.flatMap_cons, List.flatMap_nil, List.append_nil, Python.Computation.code,
      Python.hostPieces_call, Python.hostPieces_keywords, Code.hostPieces_text]
    exact .refl _
  | complete imports hbase =>
    simp only [Draft.hostPieces, Python.Script.draft, Python.hostPieces_bindingBlocks,
      Option.map_some, Option.toList_some, List.flatMap_cons, List.flatMap_nil, List.append_nil,
      Python.Computation.code, Python.hostPieces_call, Python.hostPieces_keywords,
      Code.hostPieces_text, Code.hostPieces_host, List.nil_append, Plan.baseTexts,
      RecordForm.takesBase, if_true, hbase, List.map_cons, List.map_nil]
    exact List.perm_append_comm.append_left _
  | literal hbindings =>
    have hsources : p.sourceTexts = [] := by rw [Plan.sourceTexts, hbindings, List.map_nil]
    simp only [Draft.hostPieces, Option.toList_some, List.flatMap_cons, List.flatMap_nil,
      List.append_nil, List.nil_append, Rust.hostPieces_literal, hsources, Plan.baseTexts,
      RecordForm.takesBase, if_true]
    exact .refl _
  | block _ definition hdefinition =>
    have htakes : form.takesBase .rust = true := by cases form <;> rfl
    have hnone : definition.flatMap Code.hostPieces = [] :=
      List.flatMap_eq_nil_iff.mpr hdefinition
    simp only [Draft.hostPieces, Option.toList_some, List.flatMap_cons, List.flatMap_nil,
      List.append_nil, List.nil_append, Code.hostPieces_block, List.flatMap_append, hnone,
      Rust.hostPieces_bindings, Rust.hostPieces_literal, Plan.baseTexts, htakes, if_true]
    exact .refl _

end FieldComposition
