import FieldComposition.Proofs.ExpansionErrors
import FieldComposition.Proofs.HangingIndent
import FieldComposition.Proofs.RecordCode
import FieldComposition.Proofs.WellFormedInvocation

/-!
# Expressions are moved into the code

Every expression of an invocation stands in its expansion, with the lines after its first one
behind the margin of the code around it (`expand_moves_expressions`). On one line that is the
expression as it was written. On several lines it is not, not even inside a string
(`not_moved_multilineString`).
-/

namespace FieldComposition

def Item.expressions : Item → List Expression
  | entry e => e.value.toList
  | group g => [g.source]

def Composition.expressions (c : Composition) : List Expression :=
  c.items.flatMap Item.expressions ++ c.base.toList

def Expected.expressions : Expected → List Expression
  | value e _ => [e]
  | record c => c.expressions

/-- The host text of an invocation that its expansion has to hold. -/
def Invocation.expressions : Invocation → List Expression
  | structUpdate _ c | anonRecord c | rebinding c => c.expressions
  | holder h => h.args.filterMap (·.default)
  | assertion a => a.actual :: (a.expected.expressions ++ a.formatArgs)

/-- The plan of a field list holds its expressions. -/
lemma Composition.text_mem_plan {c : Composition} {e : Expression} (h : e ∈ c.expressions)
    (stem : String) :
    e.text ∈ (c.table.plan stem).sourceTexts ++ ((c.table.plan stem).valueTexts ++
      c.base.toList.map Expression.text) := by
  rcases List.mem_append.mp h with h | h
  · obtain ⟨i, hi, he⟩ := List.mem_flatMap.mp h
    cases i with
    | entry entry =>
      have hvalue : entry.value = some e := by simpa [Item.expressions] using he
      have hclaim : (⟨entry, none⟩ : Claim) ∈ c.table.claims := by
        refine List.mem_map.mpr ⟨(entry, none), List.mem_flatMap.mpr ⟨_, hi, ?_⟩, rfl⟩
        exact List.mem_singleton.mpr rfl
      refine List.mem_append_right _ (List.mem_append_left _ ?_)
      refine List.mem_flatMap.mpr ⟨_, List.mem_map_of_mem hclaim, ?_⟩
      simp [FieldTable.operand, hvalue, Operand.hostTexts]
    | group g =>
      obtain rfl : e = g.source := by simpa [Item.expressions] using he
      have hgroup : g ∈ c.table.groups := List.mem_filterMap.mpr ⟨_, hi, rfl⟩
      refine List.mem_append_left _ ?_
      exact List.mem_map.mpr ⟨_, List.mem_map_of_mem hgroup, rfl⟩
  · exact List.mem_append_right _ (List.mem_append_right _ (List.mem_map_of_mem h))

/-- The code of a record holds the expressions of its field list, when it takes the base. -/
lemma RecordForm.text_mem_hostPieces (form : RecordForm) {c : Composition} {e : Expression}
    (h : e ∈ c.expressions) (d : Dialect) (settings : Settings)
    (hbase : form.takesBase d = false → c.base = none) :
    e.text ∈ ((⟨d, form.entryPoint⟩ : Backend).draft settings (form.invocation c)
      c.table).hostPieces := by
  have hplan := Composition.text_mem_plan h settings.bindingStem
  have hbaseTexts : (c.table.plan settings.bindingStem).baseTexts d form =
      c.base.toList.map Expression.text := by
    by_cases htakes : form.takesBase d
    · rw [Plan.baseTexts, if_pos htakes]
      rfl
    · rw [Plan.baseTexts, if_neg htakes, hbase (by simpa using htakes)]
      rfl
  rw [(recordCode_draft d settings form c c.table).hostPieces_perm.mem_iff, hbaseTexts]
  exact hplan

@[simp] lemma flatMap_hostPieces_host (es : List Expression) :
    (es.map fun e => Code.host e.text).flatMap Code.hostPieces = es.map Expression.text := by
  induction es with
  | nil => rfl
  | cons e es ih => rw [List.map_cons, List.flatMap_cons, ih, List.map_cons]; rfl

@[simp] lemma flatMap_hostPieces_text (names : List String) (f : String → String) :
    (names.map fun name => Code.text (f name)).flatMap Code.hostPieces = [] := by
  rw [List.flatMap_map]
  exact List.flatMap_eq_nil_iff.mpr fun _ _ => rfl

namespace Python

lemma hostPieces_draft (runtimeName : String) (s : Script) :
    (s.draft runtimeName).hostPieces =
      (s.blocks.flatMap fun block => block.flatMap fun line =>
        (line.code runtimeName).flatMap Code.hostPieces) ++
      s.result.toList.flatMap fun result => (result.code runtimeName).hostPieces := by
  cases hresult : s.result <;>
    simp [Draft.hostPieces, Script.draft, Code.stacked, List.flatMap_map, List.flatMap_assoc,
      hresult]

section

variable (runtimeName : String)

@[simp] lemma hostPieces_check (checks left right field : String) :
    ((Line.check checks left right field).code runtimeName).flatMap Code.hostPieces = [] := rfl

@[simp] lemma hostPieces_assign (name : String) (value : Computation) :
    ((Line.assign name value).code runtimeName).flatMap Code.hostPieces =
      (value.code runtimeName).hostPieces := by
  simp [Line.code]

@[simp] lemma hostPieces_host (text : String) :
    ((Computation.host text).code runtimeName).hostPieces = [text] := rfl

@[simp] lemma hostPieces_fieldChecks (left right : String) :
    ((Computation.fieldChecks left right).code runtimeName).hostPieces = [] := rfl

@[simp] lemma hostPieces_report (checks : String) (args : List Expression) :
    ((Line.report checks args).code runtimeName).flatMap Code.hostPieces =
      args.map Expression.text := by
  simp [Line.code]

end

end Python

/-- The texts of the caller in the code of the side that an assertion compares with. -/
def Expected.hostTexts (d : Dialect) (settings : Settings) (t : FieldTable) :
    Expected → List String
  | value e _ => [e.text]
  | record c => ((⟨d, .anon⟩ : Backend).draft settings (.anonRecord c) t).hostPieces

lemma Python.hostPieces_assertion_perm (settings : Settings) (a : Assertion) (t : FieldTable) :
    ((assertion settings a t).draft settings.runtimeAlias).hostPieces.Perm
      (a.actual.text :: (a.expected.hostTexts .python settings t ++
        a.formatArgs.map Expression.text)) := by
  have hfields : a.fields.flatMap (fun _ => ([] : List String)) = [] := by
    simp [List.flatMap_eq_nil_iff]
  rw [hostPieces_draft, assertion, expectedValue]
  cases hexpected : a.expected with
  | value e fields => simp [Expected.hostTexts, List.flatMap_map, hfields]
  | record c =>
    let record := anonRecord settings t
    change List.Perm _ (a.actual.text :: ((record.draft settings.runtimeAlias).hostPieces ++ _))
    have hresult : record.result = some (record.result.getD (.host "")) := rfl
    rw [hostPieces_draft, hresult]
    simp only [List.flatMap_append, List.flatMap_cons, List.flatMap_nil, List.append_nil,
      hostPieces_assign, hostPieces_host, hostPieces_fieldChecks, hostPieces_report,
      List.flatMap_map, hostPieces_check, hfields, Option.toList_none, Option.toList_some,
      List.cons_append, List.nil_append, List.append_assoc]
    exact List.perm_middle

lemma Rust.hostPieces_assertion_perm (settings : Settings) (a : Assertion) (t : FieldTable) :
    (assertion settings a t).hostPieces.Perm
      (a.actual.text :: (a.expected.hostTexts .rust settings t ++
        a.formatArgs.map Expression.text)) := by
  rw [assertion]
  cases hexpected : a.expected with
  | value e fields =>
    simp [Draft.hostPieces, Expected.hostTexts, letBinding, projection, allowNaming]
  | record c =>
    change List.Perm _ (a.actual.text ::
      (({ expression := some (anonRecord settings t) } : Draft).hostPieces ++ _))
    simp only [Draft.hostPieces, letBinding, projection, allowNaming, List.flatMap_cons,
      List.flatMap_nil, List.append_nil, Code.hostPieces_append,
      Code.hostPieces_block, Code.hostPieces_text, Code.hostPieces_host, Code.hostPieces_enclosed,
      Code.hostPieces_braced, Code.hostPieces_joined, flatMap_hostPieces_host,
      flatMap_hostPieces_text, Option.toList_none, Option.toList_some, List.cons_append,
      List.nil_append]
    exact List.perm_middle

/-- The code of an assertion holds each of its sides and each argument of its message once. -/
lemma hostPieces_assertion_perm (d : Dialect) (settings : Settings) (a : Assertion)
    (t : FieldTable) :
    ((⟨d, .assertFieldsEq⟩ : Backend).draft settings (.assertion a) t).hostPieces.Perm
      (a.actual.text :: (a.expected.hostTexts d settings t ++
        a.formatArgs.map Expression.text)) := by
  cases d with
  | python => exact Python.hostPieces_assertion_perm settings a t
  | rust => exact Rust.hostPieces_assertion_perm settings a t

/-- The code of a holder holds the defaults of its arguments, of which there are all or none. -/
lemma text_mem_hostPieces_holder {h : Holder} (hwell : h.IsWellFormed) {e : Expression}
    (he : e ∈ h.args.filterMap (·.default)) (d : Dialect) (settings : Settings) (t : FieldTable) :
    e.text ∈ ((⟨d, .fnStruct⟩ : Backend).draft settings (.holder h) t).hostPieces := by
  obtain ⟨a, ha, hdefault⟩ := List.mem_filterMap.mp he
  cases d with
  | python =>
    change e.text ∈ ((Python.holder h).draft settings.runtimeAlias).hostPieces
    let field : Python.Field := ⟨a.name, Python.argumentType h a, a.default⟩
    have hfield : e.text ∈ (Python.ClassDef.fieldLine field).hostPieces := by
      simp [Python.ClassDef.fieldLine, field, hdefault]
    rw [Python.hostPieces_draft]
    refine List.mem_append_left _ (List.mem_flatMap.mpr
      ⟨_, List.mem_append_right _ (List.mem_singleton.mpr rfl), ?_⟩)
    refine List.mem_flatMap.mpr ⟨_, List.mem_singleton.mpr rfl, ?_⟩
    refine List.mem_flatMap.mpr ⟨.indented (Python.ClassDef.fieldLine field), ?_, hfield⟩
    refine List.mem_append_left _ (List.mem_append_right _ (List.mem_map_of_mem ?_))
    exact List.mem_map_of_mem ha
  | rust =>
    have hall : h.hasDefaults = true := by
      have hdefaults : ∀ a ∈ h.args, a.default.isSome := by
        refine hwell.defaults.resolve_right fun hnone => ?_
        rw [hnone a ha] at hdefault
        exact absurd hdefault (by simp)
      rw [Holder.hasDefaults, Bool.and_eq_true, Bool.not_eq_true', List.isEmpty_eq_false_iff,
        List.all_eq_true]
      exact ⟨List.ne_nil_of_mem ha, hdefaults⟩
    have hmem : Rust.holderDefault h ∈ (Rust.holder h).statements := by simp [Rust.holder, hall]
    change e.text ∈ (Rust.holder h).hostPieces
    refine List.mem_append_left _ (List.mem_flatMap.mpr ⟨_, hmem, ?_⟩)
    rw [Rust.holderDefault]
    simp only [Code.hostPieces_braced, Code.hostPieces_text, List.nil_append, List.flatMap_cons,
      List.flatMap_nil, List.append_nil]
    refine List.mem_flatMap.mpr ⟨_, List.mem_map_of_mem ha, ?_⟩
    simp [hdefault]

namespace Composition.IsWellFormed

variable {mayHaveBase mayBeMutable : Bool} {c : Composition}

lemma isWellFormed_expressions (h : c.IsWellFormed mayHaveBase mayBeMutable) :
    ∀ e ∈ c.expressions, e.IsWellFormed := by
  intro e he
  rcases List.mem_append.mp he with he | he
  · obtain ⟨i, hi, he⟩ := List.mem_flatMap.mp he
    have hi := h.isWellFormed_items i hi
    cases i with
    | entry entry => exact hi.isWellFormed_value e (by simpa [Item.expressions] using he)
    | group g =>
      obtain rfl : e = g.source := by simpa [Item.expressions] using he
      exact hi.isWellFormed_source
  · exact h.isWellFormed_base e (by simpa using he)

end Composition.IsWellFormed

/-- Bare names have no expressions. -/
lemma Composition.IsBare.expressions_eq_nil {c : Composition} (h : c.IsBare)
    (hbase : c.base = none) : c.expressions = [] := by
  rw [expressions, hbase, Option.toList_none, List.append_nil, List.flatMap_eq_nil_iff]
  intro i hi
  cases i with
  | entry e =>
    have he : e ∈ c.entries := List.mem_flatMap.mpr ⟨_, hi, List.mem_singleton.mpr rfl⟩
    rw [Item.expressions, h.value_eq_none e he, Option.toList_none]
  | group g =>
    have hg : g ∈ c.groups := List.mem_filterMap.mpr ⟨_, hi, rfl⟩
    rw [h.groups_eq_nil] at hg
    exact absurd hg (by simp)

namespace Assertion.IsWellFormed

variable {a : Assertion}

lemma isWellFormed_expressions (h : a.IsWellFormed) :
    ∀ e ∈ (Invocation.assertion a).expressions, e.IsWellFormed := by
  intro e he
  rcases List.mem_cons.mp he with rfl | he
  · exact h.isWellFormed_actual
  rcases List.mem_append.mp he with he | he
  · have hexpected := h.expected
    cases hside : a.expected with
    | value value fields =>
      rw [hside] at he hexpected
      obtain rfl : e = value := by simpa [Expected.expressions] using he
      exact hexpected.1
    | record c =>
      rw [hside] at he hexpected
      exact hexpected.2.isWellFormed_expressions e he
  · exact h.isWellFormed_formatArgs e he

/-- The side that an assertion compares with is moved like the field list of a record. -/
lemma text_mem_hostTexts (h : a.IsWellFormed) {t : FieldTable}
    (ht : (Invocation.assertion a).table = .ok t) {e : Expression}
    (he : e ∈ a.expected.expressions) (d : Dialect) (settings : Settings) :
    e.text ∈ a.expected.hostTexts d settings t := by
  have hexpected := h.expected
  cases hside : a.expected with
  | value value fields =>
    rw [hside] at he
    obtain rfl : e = value := by simpa [Expected.expressions] using he
    exact List.mem_singleton.mpr rfl
  | record c =>
    rw [hside] at he hexpected
    rw [Invocation.table, Invocation.composition?, hside] at ht
    obtain ⟨-, rfl⟩ := Composition.resolve_eq_ok_iff.mp ht
    exact RecordForm.anonymous.text_mem_hostPieces he d settings fun _ =>
      hexpected.2.base_eq_none

end Assertion.IsWellFormed

namespace Invocation.IsWellFormed

variable {entryPoint : EntryPoint} {i : Invocation}

lemma isWellFormed_expressions (h : i.IsWellFormed entryPoint) :
    ∀ e ∈ i.expressions, e.IsWellFormed := by
  cases i with
  | structUpdate typePath c => exact h.of_structUpdate.isWellFormed_expressions
  | anonRecord c => exact h.of_anonRecord.isWellFormed_expressions
  | rebinding c => exact h.of_rebinding.1.isWellFormed_expressions
  | holder holder =>
    intro e he
    obtain ⟨a, ha, hdefault⟩ := List.mem_filterMap.mp he
    exact (h.of_holder.isWellFormed_args a ha).isWellFormed_default e hdefault
  | assertion a => exact h.of_assertion.isWellFormed_expressions

/-- The code of an invocation holds its expressions. -/
lemma text_mem_hostPieces (h : i.IsWellFormed entryPoint) {t : FieldTable} (ht : i.table = .ok t)
    {e : Expression} (he : e ∈ i.expressions) (d : Dialect) (settings : Settings) :
    e.text ∈ ((⟨d, entryPoint⟩ : Backend).draft settings i t).hostPieces := by
  cases i with
  | structUpdate typePath c =>
    obtain ⟨-, rfl⟩ := Composition.resolve_eq_ok_iff.mp ht
    have htakes : (RecordForm.update typePath).takesBase d = true := rfl
    exact (RecordForm.update typePath).text_mem_hostPieces he d settings (by simp [htakes])
  | anonRecord c =>
    obtain ⟨-, rfl⟩ := Composition.resolve_eq_ok_iff.mp ht
    exact RecordForm.anonymous.text_mem_hostPieces he d settings fun _ =>
      h.of_anonRecord.base_eq_none
  | rebinding c =>
    obtain ⟨hwell, hbare⟩ := h.of_rebinding
    rw [expressions, hbare.expressions_eq_nil hwell.base_eq_none] at he
    exact absurd he (by simp)
  | holder holder => exact text_mem_hostPieces_holder h.of_holder he d settings t
  | assertion a =>
    refine (hostPieces_assertion_perm d settings a t).mem_iff.mpr ?_
    rcases List.mem_cons.mp he with rfl | he
    · exact List.mem_cons_self
    refine List.mem_cons_of_mem _ (List.mem_append.mpr ?_)
    exact (List.mem_append.mp he).imp
      (fun he => h.of_assertion.text_mem_hostTexts ht he d settings) List.mem_map_of_mem

end Invocation.IsWellFormed

lemma infix_intercalate {separator part : String} {parts : List String} (h : part ∈ parts) :
    part.toList <:+: (separator.intercalate parts).toList := by
  obtain ⟨n, hn⟩ := List.mem_iff_getElem?.mp (List.mem_map_of_mem (f := String.toList) h)
  rw [String.toList_intercalate]
  refine List.infix_of_mem_flatten (List.mem_of_getElem? (i := 2 * n) ?_)
  rw [List.getElem?_intersperse_two_mul, hn]

lemma Expansion.infix_render {e : Expansion} {part : String}
    (h : part ∈ e.statements ++ e.expression.toList) : part.toList <:+: e.render.toList := by
  rw [render, String.toList_append]
  refine (infix_intercalate ?_).trans (List.prefix_append _ _).isInfix
  rw [List.append_assoc]
  exact List.mem_append_right _ h

/-- Text of the caller is found in the expansion with its lines hanging behind some tabs. -/
lemma Draft.exists_hang_infix_render {draft : Draft} {s : String} (hs : Text.EndsInInk s.toList)
    (h : s ∈ draft.hostPieces) (settings : Settings) (entryPoint : EntryPoint) (dialect : String) :
    ∃ depth, Text.hang (List.replicate (depth * settings.indent) ' ') s.toList <:+:
      (draft.layout settings.tab entryPoint dialect).render.toList := by
  have htab : settings.tab.toList = List.replicate settings.indent ' ' := Text.toList_pushn _ _
  have hspaces : ∀ c ∈ settings.tab.toList, Text.isLineEnd c = false := by
    intro c hc
    rw [htab] at hc
    rw [List.eq_of_mem_replicate hc]
    decide
  obtain ⟨code, hcode, hs'⟩ : ∃ code ∈ draft.statements ++ draft.expression.toList,
      s ∈ code.hostPieces := by
    rw [Draft.hostPieces, ← List.flatMap_append] at h
    exact List.mem_flatMap.mp h
  obtain ⟨depth, hinfix⟩ := Code.exists_hang_infix_render hspaces hs hs'
  rw [Code.margin, htab, List.flatten_replicate_replicate] at hinfix
  refine ⟨depth, hinfix.trans (Expansion.infix_render ?_)⟩
  rw [Draft.layout_eq]
  dsimp only
  rw [Option.toList_map, ← List.map_append]
  exact List.mem_map_of_mem hcode

/-- Every expression of an invocation stands in its expansion, with its later lines behind some
tabs; an expression on one line stands there as it was written. -/
theorem expand_moves_expressions {entryPoint : EntryPoint} {dialect? : Option Dialect}
    {settings : Settings} {file text : String} {expansion : Expansion}
    (h : expand entryPoint.name text (dialect?.map Dialect.name) settings file = .ok expansion) :
    ∃ i, Invocation.ofText entryPoint (.dialect (dialect?.getD settings.dialect)) text = .ok i ∧
      ∀ e ∈ i.expressions,
        (∃ depth, Text.hang (List.replicate (depth * settings.indent) ' ') e.text.toList <:+:
          expansion.render.toList) ∧
        ((∀ c ∈ e.text.toList, Text.isLineEnd c = false) →
          e.text.toList <:+: expansion.render.toList) := by
  let dialect := dialect?.getD settings.dialect
  rw [expand_eq] at h
  rcases hread : Invocation.ofText entryPoint (.dialect (dialect?.getD settings.dialect)) text with
    error | i
  · rw [hread] at h
    exact absurd h (by simp)
  have hwell := (Parser.Returns.invocation entryPoint).of_onText hread
  rw [hread] at h
  dsimp only at h
  rw [Backend.expand] at h
  split at h
  · exact absurd h (by simp)
  cases htable : i.table with
  | error conflict =>
    rw [htable] at h
    exact absurd h (by simp)
  | ok t =>
    rw [htable] at h
    obtain rfl := Except.ok.inj h
    refine ⟨i, rfl, fun e he => ?_⟩
    have hhang := Draft.exists_hang_infix_render (hwell.isWellFormed_expressions e he)
      (hwell.text_mem_hostPieces htable he dialect settings) settings entryPoint dialect.name
    refine ⟨hhang, fun hline => ?_⟩
    obtain ⟨depth, hinfix⟩ := hhang
    rwa [Text.hang_eq_self hline] at hinfix

/-- A record with a string on two lines. -/
def Invocation.multilineString : Invocation :=
  .structUpdate ⟨"P", ⟨1, 1⟩⟩
    { items := [.entry
        { name := "a", value := some ⟨"'''x\ny'''", ⟨1, 8⟩⟩, position := ⟨1, 5⟩ }] }

/-- The second line of the string has four blanks more than it was written with. -/
def Expansion.multilineString : Expansion where
  entryPoint := .spread
  dialect := "python"
  expression := some "P(\n    a='''x\n    y''',\n)"

theorem expand_moves_expressions_multilineString :
    let text := "P \x7b a: '''x\ny''' \x7d"
    expand EntryPoint.spread.name text (Option.map Dialect.name none) {} "<input>" =
        .ok .multilineString ∧
      ∃ i, Invocation.ofText .spread (.dialect .python) text = .ok i ∧
        ∀ e ∈ i.expressions,
          (∃ depth, Text.hang (List.replicate (depth * 4) ' ') e.text.toList <:+:
            Expansion.multilineString.render.toList) ∧
          ((∀ c ∈ e.text.toList, Text.isLineEnd c = false) →
            e.text.toList <:+: Expansion.multilineString.render.toList) := by
  intro text
  have hexpand : expand EntryPoint.spread.name text (Option.map Dialect.name none) {} "<input>" =
      .ok .multilineString := by decide +kernel
  exact ⟨hexpand, expand_moves_expressions hexpand⟩

/-- The text of a string on two lines does not stand in the expansion. -/
theorem not_moved_multilineString :
    let text := "P \x7b a: '''x\ny''' \x7d"
    let value : Expression := ⟨"'''x\ny'''", ⟨1, 8⟩⟩
    Invocation.ofText .spread (.dialect .python) text = .ok .multilineString ∧
      value ∈ Invocation.multilineString.expressions ∧
      expand "spread" text (some "python") {} "<input>" = .ok .multilineString ∧
      ¬value.text.toList <:+: Expansion.multilineString.render.toList := by
  decide +kernel

end FieldComposition
