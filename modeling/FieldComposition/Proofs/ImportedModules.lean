import FieldComposition.Proofs.ExpansionErrors
import FieldComposition.Proofs.MarkedCode

/-!
# Imported modules

The imports of an expansion in the python dialect are the modules whose attributes its code uses,
each once (`expand_imports_used`). What the code uses is read off its marked code, in which text
that the script carries is kept apart.
-/

namespace FieldComposition

namespace Python

namespace Marked

/-- The modules of the attributes in code. -/
def modules (m : Marked) : List Module :=
  m.attributes.map Attribute.module

section

variable (m m' : Marked) (ms : List Marked)

@[simp] lemma modules_word (w : TemplateWord) : (word w).modules = [] := rfl

@[simp] lemma modules_carried (s : String) : (carried s).modules = [] := rfl

@[simp] lemma modules_taken (a : Attribute) : (taken a).modules = [a.module] := rfl

@[simp] lemma modules_append : (m ++ m').modules = m.modules ++ m'.modules :=
  List.map_append

@[simp] lemma modules_indented : (indented m).modules = m.modules := rfl

@[simp] lemma modules_joined (separator : TemplateWord) :
    (joined (word separator) ms).modules = ms.flatMap modules := by
  induction ms with
  | nil => rfl
  | cons m rest ih =>
    cases rest with
    | nil => simp [joined]
    | cons next rest =>
      change (m ++ word separator ++ joined (word separator) (next :: rest)).modules = _
      simp [ih]

@[simp] lemma modules_call : (call m ms).modules = m.modules ++ ms.flatMap modules := by
  rw [call, stacked]
  split
  · simp_all
  · simp [stacked, List.flatMap_map]

end

end Marked

variable {m : Module}

/-- Whether a value calls into the runtime module. -/
def Term.usesRuntime : Term → Bool
  | operand _ => false
  | clone _ => true
  | convert .. => true
  | apply _ value => value.usesRuntime

lemma Term.mem_modules {t : Term} : m ∈ t.marked.modules ↔ t.usesRuntime ∧ m = .runtime := by
  induction t with
  | operand o => cases o <;> simp [marked, usesRuntime]
  | clone value ih => simp [marked, usesRuntime, ih, Attribute.module]
  | convert value target field ih => simp [marked, usesRuntime, ih, Attribute.module]
  | apply path value ih => simp [marked, usesRuntime, ih]

/-- A modifier needs the runtime module exactly if its value calls into it, where the value has a
target. -/
lemma usesRuntime_ofModifier (modifier : Modifier) (o : Operand) (target : String × String) :
    (Term.ofModifier modifier o (some target)).usesRuntime = needsRuntime modifier := by
  cases modifier <;> rfl

/-- A clone is never written as its value alone, since it is longer. -/
lemma render_clone_ne (runtimeName name : String) :
    (Term.clone (.operand (.host name))).render runtimeName ≠ name := by
  intro h
  have hlength := congrArg String.length h
  change (runtimeName ++ ".clone(" ++ name ++ ")").length = name.length at hlength
  simp only [String.length_append] at hlength
  have hopen : ".clone(".length = 7 := rfl
  omega

/-- A rebinding asks for the runtime module exactly if its value calls into it: of the modifiers
that need the module for a target, the conversion alone keeps the name. -/
lemma usesRuntime_reboundValue (runtimeName : String) (e : Entry) :
    (reboundValue e).usesRuntime = rebindingNeedsRuntime runtimeName e := by
  have hclone := render_clone_ne runtimeName e.name
  rw [rebindingNeedsRuntime, reboundValue]
  cases e.modifier with
  | clone | cloneInto => simpa [Term.ofModifier, Term.usesRuntime, needsRuntime] using hclone
  | into => simp [Term.ofModifier, Term.usesRuntime, Term.render, Term.code, Operand.code,
      Code.render]
  | _ => rfl

lemma mem_flatMap_ite_singleton {α : Type} {asks : α → Bool} {xs : List α} {m' : Module} :
    m ∈ xs.flatMap (fun x => if asks x then [m'] else []) ↔ (∃ x ∈ xs, asks x) ∧ m = m' := by
  simp only [List.mem_flatMap, ← exists_and_right]
  refine exists_congr fun x => ?_
  cases asks x <;> simp

lemma mem_runtimeImports {modifiers : List Modifier} :
    m ∈ runtimeImports modifiers ↔ (∃ x ∈ modifiers, needsRuntime x) ∧ m = .runtime :=
  mem_flatMap_ite_singleton

/-- The keywords of a plan call into the modules that the plan asks for. -/
lemma mem_flatMap_keywords {p : Plan} {target : String} :
    m ∈ ((keywords p target).map Keyword.marked).flatMap Marked.modules ↔ m ∈ valueImports p := by
  simp only [valueImports, mem_runtimeImports, keywords, Keyword.marked, List.mem_flatMap,
    List.mem_map, exists_exists_and_eq_and, Marked.modules_append, Marked.modules_carried,
    Marked.modules_word, List.nil_append, Term.mem_modules, usesRuntime_ofModifier, ← and_assoc,
    exists_and_right]

def Line.modules (line : Line) : List Module :=
  line.marked.flatMap Marked.modules

namespace Script

/-- The modules whose attributes the code of a script uses. -/
def modules (s : Script) : List Module :=
  s.marked.flatMap Marked.modules

lemma mem_modules {s : Script} : m ∈ s.modules ↔
    (∃ line ∈ s.blocks.flatten, m ∈ line.modules) ∨ ∃ v ∈ s.result, m ∈ v.marked.modules := by
  have hstatements : m ∈ s.markedStatements.flatMap Marked.modules ↔
      ∃ line ∈ s.blocks.flatten, m ∈ line.modules := by
    simp only [markedStatements, Marked.stacked, List.flatMap_map, Marked.modules_joined,
      List.mem_flatMap, List.mem_flatten, Line.modules]
    tauto
  rw [modules, marked, List.flatMap_append, List.mem_append, hstatements]
  cases s.result <;> simp

end Script

lemma not_mem_modules_bindingBlocks {p : Plan} {line : Line}
    (hline : line ∈ (bindingBlocks p).flatten) : m ∉ line.modules := by
  obtain ⟨block, hblock, hline⟩ := List.mem_flatten.mp hline
  obtain ⟨binding, -, rfl⟩ := List.mem_map.mp hblock
  obtain rfl := List.mem_singleton.mp hline
  simp [Line.modules, Line.marked, Computation.marked]

lemma mem_modules_construct {callee target : String} {p : Plan} :
    m ∈ (Computation.construct callee (keywords p target)).marked.modules ↔
      m ∈ valueImports p := by
  rw [Computation.marked, Marked.modules_call, Marked.modules_carried, List.nil_append,
    mem_flatMap_keywords]

lemma mem_modules_update {callee base target : String} {p : Plan} :
    m ∈ (Computation.update callee base (keywords p target)).marked.modules ↔
      m ∈ valueImports p ∨ m = .runtime := by
  rw [Computation.marked, Marked.modules_call, List.mem_append, List.flatMap_cons,
    List.flatMap_cons, Marked.modules_carried, Marked.modules_carried, List.nil_append,
    List.nil_append, mem_flatMap_keywords, Marked.modules_taken, List.mem_singleton,
    Attribute.module, or_comm]

lemma ClassDef.modules_markedMethod (c : Method) :
    (markedMethod c).flatMap Marked.modules = c.args.flatMap (·.marked.modules) := by
  cases hreturns : c.returnType <;> simp [markedMethod, hreturns, List.flatMap_map]

/-- A class is a data class; it takes a further module only for its type parameters and for the
arguments of its method. -/
lemma ClassDef.mem_modules {d : ClassDef} : m ∈ (Line.classDef d).modules ↔
    m = .dataclasses ∨ (d.typeParameters.isSome ∧ m = .typing) ∨
      ∃ c ∈ d.method, ∃ t ∈ c.args, m ∈ t.marked.modules := by
  have hhead : m ∈ d.markedHead.modules ↔ d.typeParameters.isSome ∧ m = .typing := by
    cases hparams : d.typeParameters <;> simp [markedHead, hparams, Attribute.module]
  have hfield (f : Field) : m ∈ (markedField f).modules → m = .dataclasses := by
    cases hdefault : f.default <;> simp [markedField, hdefault, Attribute.module]
  have hfields : m ∈ (d.fields.map fun f => Marked.indented (markedField f)).flatMap
      Marked.modules → m = .dataclasses := by
    simp only [List.mem_flatMap, List.mem_map, exists_exists_and_eq_and, Marked.modules_indented]
    rintro ⟨f, -, hf⟩
    exact hfield f hf
  have hmethod : m ∈ d.markedMethods.flatMap Marked.modules ↔
      ∃ c ∈ d.method, ∃ t ∈ c.args, m ∈ t.marked.modules := by
    rw [markedMethods]
    cases d.method with
    | none => simp
    | some c =>
      rw [List.flatMap_append, modules_markedMethod]
      split <;> simp
  rw [Line.modules, Line.marked, marked, List.flatMap_append, List.flatMap_append,
    List.mem_append, List.mem_append, hmethod]
  simp only [List.flatMap_cons, List.flatMap_nil, List.append_nil, Marked.modules_append,
    Marked.modules_word, List.nil_append, Marked.modules_taken, List.mem_append,
    List.mem_singleton, hhead, Attribute.module]
  rw [or_iff_left_of_imp (a := _ ∨ _) fun h => .inl (hfields h), or_assoc]

lemma mem_modules_anonType {settings : Settings} {t : FieldTable} :
    (∃ line ∈ anonType settings t, m ∈ line.modules) ↔ m = .dataclasses ∨ m = .typing := by
  constructor
  · rintro ⟨line, hline, hm⟩
    simp only [anonType, List.mem_append, List.mem_map, List.mem_cons, List.not_mem_nil,
      or_false] at hline
    rcases hline with ⟨name, -, rfl⟩ | rfl | rfl | rfl
    · right
      simpa [Line.modules, Line.marked, Attribute.module] using hm
    · simp [Line.modules, Line.marked] at hm
    · simp [Line.modules, Line.marked] at hm
    · simpa [ClassDef.mem_modules] using hm
  · intro hm
    refine ⟨_, List.mem_append_right _ (.tail _ (.tail _ (.head _))), ?_⟩
    simpa [ClassDef.mem_modules] using hm

lemma mem_modules_typeVariable {name : String} :
    m ∈ (Line.typeVariable name).modules ↔ m = .typing := by
  simp [Line.modules, Line.marked, Attribute.module]

lemma mem_modules_assign {name : String} {v : Computation} :
    m ∈ (Line.assign name v).modules ↔ m ∈ v.marked.modules := by
  simp [Line.modules, Line.marked]

/-- A script asks for the modules that its code uses. -/
def Script.ImportsUsed (s : Script) : Prop :=
  ∀ m, m ∈ s.imports ↔ m ∈ s.modules

lemma importsUsed_structUpdate (settings : Settings) (typePath : Expression) (t : FieldTable) :
    (structUpdate settings typePath t).ImportsUsed := by
  intro m
  rw [structUpdate]
  cases (t.plan settings.bindingStem).base with
  | none =>
    simp only [Script.mem_modules, Option.mem_some_iff, exists_eq_left', mem_modules_construct]
    refine (or_iff_right ?_).symm
    rintro ⟨line, hline, hm⟩
    exact not_mem_modules_bindingBlocks hline hm
  | some base =>
    simp only [Script.mem_modules, Option.mem_some_iff, exists_eq_left', mem_modules_update,
      List.mem_append, List.mem_singleton]
    refine (or_iff_right ?_).symm
    rintro ⟨line, hline, hm⟩
    exact not_mem_modules_bindingBlocks hline hm

lemma importsUsed_anonRecord (settings : Settings) (t : FieldTable) :
    (anonRecord settings t).ImportsUsed := by
  intro m
  have hbindings : ¬∃ line ∈ (bindingBlocks (t.plan settings.bindingStem)).flatten,
      m ∈ line.modules := by
    rintro ⟨line, hline, hm⟩
    exact not_mem_modules_bindingBlocks hline hm
  simp only [Script.mem_modules, anonRecord, List.flatten_cons, List.mem_append, or_and_right,
    exists_or, mem_modules_anonType, hbindings, or_false, Option.mem_some_iff, exists_eq_left',
    mem_modules_construct, List.mem_cons, or_assoc]

lemma importsUsed_rebinding (settings : Settings) (t : FieldTable) :
    (rebinding settings t).ImportsUsed := by
  intro m
  rw [rebinding]
  generalize t.claims.map (·.entry) = entries
  simp only [mem_flatMap_ite_singleton, Script.mem_modules, List.flatten_cons, List.flatten_nil,
    List.append_nil, List.mem_map, exists_exists_and_eq_and, mem_modules_assign,
    Computation.marked, Term.mem_modules, usesRuntime_reboundValue settings.runtimeAlias,
    Option.not_mem_none, false_and, exists_false,
    or_false, ← and_assoc, exists_and_right]

/-- Type variables are declared in a block of their own, if there are any. -/
lemma mem_modules_typeVariables {names : List String} :
    (∃ line ∈ (if names.isEmpty then [] else [names.map Line.typeVariable]).flatten,
      m ∈ line.modules) ↔ names ≠ [] ∧ m = .typing := by
  cases names with
  | nil => simp
  | cons name names => simp [mem_modules_typeVariable]

lemma mem_ite_isEmpty {names : List String} {m' : Module} :
    m ∈ (if names.isEmpty then [] else [m']) ↔ names ≠ [] ∧ m = m' := by
  cases names <;> simp

lemma mem_modules_holderClass {h : Holder} {params : List String} :
    m ∈ (Line.classDef (holderClass h params)).modules ↔
      m = .dataclasses ∨ (params ≠ [] ∧ m = .typing) ∨
        m ∈ runtimeImports (h.args.map (·.modifier)) := by
  have hparams : (holderClass h params).typeParameters.isSome ↔ params ≠ [] := by
    cases params <;> simp [holderClass]
  have hargs : (∃ c ∈ (holderClass h params).method, ∃ t ∈ c.args, m ∈ t.marked.modules) ↔
      m ∈ runtimeImports (h.args.map (·.modifier)) := by
    rw [mem_runtimeImports]
    cases hreceiver : h.receiver <;>
      simp [holderClass, hreceiver, forwarded, Term.mem_modules, Term.usesRuntime,
        usesRuntime_ofModifier, ← and_assoc]
  rw [ClassDef.mem_modules, hparams, hargs]

lemma importsUsed_holder (h : Holder) : (holder h).ImportsUsed := by
  intro m
  have hresult : ¬∃ v ∈ some (Computation.host h.name), m ∈ v.marked.modules := by
    simp [Computation.marked]
  rw [Script.mem_modules]
  simp only [holder, List.flatten_append, List.mem_append, or_and_right, exists_or,
    mem_modules_typeVariables, List.flatten_cons, List.flatten_nil, List.append_nil,
    List.mem_singleton, exists_eq_left, mem_modules_holderClass, mem_ite_isEmpty, hresult,
    or_false]
  -- The type parameters of the class are declared as type variables as well.
  have hvariables {params more : List String} (hparams : params ≠ []) : params ++ more ≠ [] :=
    fun h => hparams (List.append_eq_nil_iff.mp h).1
  constructor
  · rintro ((h | h) | h)
    · exact .inl h
    · exact .inr (.inl h)
    · exact .inr (.inr (.inr h))
  · rintro (h | h | ⟨hparams, h⟩ | h)
    · exact .inl (.inl h)
    · exact .inl (.inr h)
    · exact .inl (.inl ⟨hvariables hparams, h⟩)
    · exact .inr h

lemma mem_modules_check {checks left right field : String} :
    m ∉ (Line.check checks left right field).modules := by
  simp [Line.modules, Line.marked]

lemma mem_modules_report {checks : String} {args : List Expression} :
    m ∉ (Line.report checks args).modules := by
  simp [Line.modules, Line.marked, List.flatMap_map]

/-- The lines of an assertion take the comparison from the runtime module, and whatever the
expected value takes. -/
lemma mem_modules_assertionLines {stem : String} {actual : String} {expected : Computation}
    {fields : List String} {args : List Expression} :
    (∃ line ∈ ([Line.assign (stem ++ "actual") (.host actual),
      .assign (stem ++ "expected") expected,
      .assign (stem ++ "checks") (.fieldChecks (stem ++ "actual") (stem ++ "expected"))] ++
      fields.map (fun field => .check (stem ++ "checks") (stem ++ "actual") (stem ++ "expected")
        field) ++ [.report (stem ++ "checks") args]), m ∈ line.modules) ↔
      m = .runtime ∨ m ∈ expected.marked.modules := by
  simp only [List.mem_append, List.mem_cons, List.not_mem_nil, or_false, List.mem_map,
    or_and_right, exists_or, exists_eq_left, mem_modules_assign, mem_modules_report]
  simp only [Computation.marked, Marked.modules_append, Marked.modules_carried,
    Marked.modules_taken, Marked.modules_word]
  simp [mem_modules_check, Attribute.module, or_comm]

/-- The code before an expected value imports what it uses and what the value uses. -/
lemma mem_imports_expectedValue {settings : Settings} {a : Assertion} {t : FieldTable} :
    m ∈ (expectedValue settings a t).1.imports ↔
      (∃ line ∈ (expectedValue settings a t).1.blocks.flatten, m ∈ line.modules) ∨
        m ∈ (expectedValue settings a t).2.marked.modules := by
  cases hexpected : a.expected with
  | value expression fields => simp [expectedValue, hexpected, Computation.marked]
  | record c =>
    have hrecord := importsUsed_anonRecord settings t m
    rw [Script.mem_modules] at hrecord
    simpa [expectedValue, hexpected, anonRecord] using hrecord

lemma importsUsed_assertion (settings : Settings) (a : Assertion) (t : FieldTable) :
    (assertion settings a t).ImportsUsed := by
  intro m
  change m ∈ .runtime :: (expectedValue settings a t).1.imports ↔ _
  have hresult : ¬∃ v ∈ (assertion settings a t).result, m ∈ v.marked.modules := by
    simp [assertion]
  rw [List.mem_cons, mem_imports_expectedValue, Script.mem_modules,
    or_iff_left hresult]
  simp only [assertion, List.flatten_append, List.mem_append (s := List.flatten _),
    or_and_right, exists_or, List.flatten_cons, List.flatten_nil, List.append_nil]
  rw [mem_modules_assertionLines]
  exact or_left_comm

/-- A script asks for the modules that its code uses, whatever the entry point. -/
theorem importsUsed_script (settings : Settings) (i : Invocation) (t : FieldTable) :
    (script settings i t).ImportsUsed := by
  cases i with
  | structUpdate typePath c => exact importsUsed_structUpdate settings typePath t
  | anonRecord c => exact importsUsed_anonRecord settings t
  | rebinding c => exact importsUsed_rebinding settings t
  | holder h => exact importsUsed_holder h
  | assertion a => exact importsUsed_assertion settings a t

lemma Script.modules_eq (s : Script) : s.modules = s.attributes.map Attribute.module := by
  rw [modules, attributes, List.map_flatMap]
  rfl

lemma Module.importLine_injective (runtimeName : String) :
    Function.Injective (importLine runtimeName) := by
  intro m m' h
  rw [← String.toList_inj] at h
  cases m <;> cases m' <;> first | rfl | simp [importLine, name] at h

end Python

namespace Expansion

lemma mem_addLine {lines : List String} {line line' : String} :
    line' ∈ addLine lines line ↔ line' ∈ lines ∨ line' = line := by
  rw [addLine]
  split
  · rename_i h
    have hmem : line ∈ lines := by simpa using h
    exact (or_iff_left_of_imp fun h => h ▸ hmem).symm
  · simp

lemma nodup_addLine {lines : List String} (h : lines.Nodup) (line : String) :
    (addLine lines line).Nodup := by
  rw [addLine]
  split
  · exact h
  · rename_i hline
    refine h.append (List.nodup_singleton line) ?_
    simpa using hline

end Expansion

namespace Draft

/-- An expansion is left with the lines that are asked for. -/
lemma mem_importLines {d : Draft} {line : String} : line ∈ d.importLines ↔ line ∈ d.imports := by
  have hfold (lines before : List String) :
      line ∈ lines.foldl Expansion.addLine before ↔ line ∈ before ∨ line ∈ lines := by
    induction lines generalizing before with
    | nil => simp
    | cons next lines ih =>
      rw [List.foldl_cons, ih, Expansion.mem_addLine, List.mem_cons, or_assoc]
  simpa [importLines] using hfold d.imports []

lemma nodup_importLines (d : Draft) : d.importLines.Nodup := by
  have hfold (lines before : List String) (h : before.Nodup) :
      (lines.foldl Expansion.addLine before).Nodup := by
    induction lines generalizing before with
    | nil => exact h
    | cons next lines ih => exact ih _ (Expansion.nodup_addLine h next)
  exact hfold d.imports [] List.nodup_nil

end Draft

/-- The code of an expansion is that of a script, and its imports are the modules that this code
uses, each once. No word of a template hides a use. -/
structure Expansion.ImportsUsed (e : Expansion) (settings : Settings) (s : Python.Script) :
    Prop where
  statements : e.statements =
    s.markedStatements.map (·.render settings.tab settings.runtimeAlias)
  expression : e.expression =
    (s.result.map Python.Computation.marked).map (·.render settings.tab settings.runtimeAlias)
  not_infix_word : ∀ m ∈ s.marked, ∀ word ∈ m.words, ∀ a : Python.Attribute,
    ¬a.name.toList <:+: word.text.toList
  nodup : e.imports.Nodup
  importLine_mem_iff : ∀ m : Python.Module, m.importLine settings.runtimeAlias ∈ e.imports ↔
    ∃ a ∈ s.attributes, a.module = m
  exists_importLine : ∀ line ∈ e.imports, ∃ m : Python.Module,
    m.importLine settings.runtimeAlias = line

/-- The imports of an expansion of the python dialect are the modules whose attributes its code
takes, each once. -/
theorem expand_imports_used {entryPoint : EntryPoint} {dialect? : Option Dialect}
    {settings : Settings} {file text : String} {expansion : Expansion}
    (hdialect : dialect?.getD settings.dialect = .python)
    (h : expand entryPoint.name text (dialect?.map Dialect.name) settings file = .ok expansion) :
    ∃ i t, Invocation.ofText entryPoint (.dialect .python) text = .ok i ∧ i.table = .ok t ∧
      expansion.ImportsUsed settings (Python.script settings i t) := by
  obtain ⟨i, t, hread, ht, rfl⟩ := expand_eq_ok_iff.mp h
  rw [hdialect] at hread ⊢
  have hused := Python.importsUsed_script settings i t
  have himports (line : String) : line ∈ ((Backend.mk .python entryPoint).draft settings i
      t).importLines ↔ ∃ m ∈ (Python.script settings i t).imports,
        m.importLine settings.runtimeAlias = line := Draft.mem_importLines.trans List.mem_map
  rw [Draft.layout_eq]
  refine ⟨i, t, hread, ht, ?_, ?_, ?_, Draft.nodup_importLines _, ?_, ?_⟩
  · exact (Python.Script.map_render_markedStatements ..).symm
  · exact (Python.Script.map_render_markedResult ..).symm
  · exact fun _ _ word _ => word.not_infix
  · intro m
    have hasked : m ∈ (Python.script settings i t).imports ↔
        ∃ a ∈ (Python.script settings i t).attributes, a.module = m := by
      rw [hused m, Python.Script.modules_eq, List.mem_map]
    rw [← hasked]
    refine (himports _).trans ⟨?_, fun hm => ⟨m, hm, rfl⟩⟩
    rintro ⟨m', hm', heq⟩
    exact Python.Module.importLine_injective _ heq ▸ hm'
  · exact fun line hline => ((himports line).mp hline).imp fun _ h => h.2

/-- A clone is a call into the runtime module. -/
theorem expand_imports_used_clone :
    ∃ expansion, expand "anon" "a, +b" none {} "<input>" = .ok expansion ∧
      expansion.imports =
        ["import dataclasses", "import typing", "import fieldspread.runtime as _fs"] ∧
      ∃ i t, Invocation.ofText .anon (.dialect .python) "a, +b" = .ok i ∧ i.table = .ok t ∧
        expansion.ImportsUsed {} (Python.script {} i t) := by
  let c : Composition := { items := [.entry { name := "a", position := ⟨1, 1⟩ },
    .entry { name := "b", modifier := .clone, position := ⟨1, 4⟩ }] }
  have hread : Invocation.ofText .anon (.dialect .python) "a, +b" = .ok (.anonRecord c) := by
    decide +kernel
  have hexpand : expand EntryPoint.anon.name "a, +b" (Option.map Dialect.name none) {}
      "<input>" = .ok _ :=
    expand_eq_ok_iff.mpr ⟨_, _, hread, rfl, rfl⟩
  exact ⟨_, hexpand, by decide +kernel, expand_imports_used rfl hexpand⟩

end FieldComposition
