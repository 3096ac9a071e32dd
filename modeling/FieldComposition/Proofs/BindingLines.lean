import FieldComposition.Proofs.AssertedNames
import FieldComposition.Proofs.CapturedExpressions
import FieldComposition.Proofs.LogicalLines
import FieldComposition.Proofs.SourceNames

/-!
# Lines that bind an expression

The python code of a record or of an assertion binds the sources of groups, and the sides of the
assertion, in lines of the form `name = expression`, and moves the expression as it is. So such a
line is one logical line only if the expression is one: nothing puts an expression that goes on
behind a newline outside brackets into brackets (`expand_binds_expressions`).
-/

namespace FieldComposition

namespace Code

lemma render_joined (tab separator : String) (pieces : List Code) :
    (joined separator pieces).render tab = separator.intercalate (pieces.map (·.render tab)) := by
  induction pieces with
  | nil => rfl
  | cons piece rest ih =>
    cases rest with
    | nil => exact String.intercalate_singleton.symm
    | cons next rest =>
      change piece.render tab ++ separator ++ (joined separator (next :: rest)).render tab = _
      rw [ih, List.map_cons, List.map_cons, List.map_cons, String.intercalate_cons_cons]

end Code

/-- The field list of an invocation is well-formed, and the invocation has its expressions. -/
lemma Invocation.IsWellFormed.composition {entryPoint : EntryPoint} {i : Invocation}
    (h : i.IsWellFormed entryPoint) {c : Composition} (hc : i.composition? = some c) :
    (∃ mayHaveBase mayBeMutable, c.IsWellFormed mayHaveBase mayBeMutable) ∧
      c.expressions ⊆ i.expressions := by
  cases i with
  | structUpdate typePath c' =>
    obtain rfl := Option.some.inj hc
    exact ⟨⟨_, _, h.of_structUpdate⟩, fun _ he => he⟩
  | anonRecord c' =>
    obtain rfl := Option.some.inj hc
    exact ⟨⟨_, _, h.of_anonRecord⟩, fun _ he => he⟩
  | rebinding c' =>
    obtain rfl := Option.some.inj hc
    exact ⟨⟨_, _, h.of_rebinding.1⟩, fun _ he => he⟩
  | holder holder => cases hc
  | assertion a =>
    have hside := h.of_assertion.expected
    cases hexpected : a.expected with
    | value value fields =>
      rw [composition?, hexpected] at hc
      cases hc
    | record c' =>
      rw [composition?, hexpected] at hc
      obtain rfl := Option.some.inj hc
      rw [hexpected] at hside
      refine ⟨⟨_, _, hside.2⟩, fun e he => ?_⟩
      rw [expressions, hexpected]
      exact List.mem_cons_of_mem _ (List.mem_append_left _ he)

/-- The source of a group is an expression of the invocation, and its entries are identifiers. -/
lemma Invocation.IsWellFormed.group {entryPoint : EntryPoint} {i : Invocation}
    (h : i.IsWellFormed entryPoint) {t : FieldTable} (ht : i.table = .ok t) {g : Group}
    (hg : g ∈ t.groups) :
    g.source ∈ i.expressions ∧ ∀ e ∈ g.entries, Text.isIdentifier e.name.toList := by
  rw [table] at ht
  cases hc : i.composition? with
  | none =>
    rw [hc] at ht
    obtain rfl := Except.ok.inj ht
    cases hg
  | some c =>
    rw [hc] at ht
    obtain ⟨⟨_, _, hwell⟩, hsubset⟩ := h.composition hc
    obtain ⟨-, rfl⟩ := Composition.resolve_eq_ok_iff.mp ht
    obtain ⟨item, hitem, hgroup⟩ := List.mem_filterMap.mp hg
    have hitems := hwell.isWellFormed_items item hitem
    cases item with
    | entry e => cases hgroup
    | group g' =>
      obtain rfl := Option.some.inj hgroup
      refine ⟨hsubset (List.mem_append_left _ (List.mem_flatMap.mpr ⟨_, hitem, ?_⟩)), ?_⟩
      · exact List.mem_singleton.mpr rfl
      · exact fun e he => (hitems.isWellFormed_entries e he).isIdentifier_name

/-- The sides of an assertion that are expressions of the caller, with the names that they are
bound to. -/
def Invocation.sides (stem : String) : Invocation → List (String × Expression)
  | assertion a => (stem ++ "actual", a.actual) :: match a.expected with
    | .value e _ => [(stem ++ "expected", e)]
    | .record _ => []
  | _ => []

/-- The expressions that python code binds to names: the sources of groups and the sides. -/
def Invocation.bindings (i : Invocation) (t : FieldTable) (stem : String) :
    List (String × Expression) :=
  (t.plan stem).bindings ++ i.sides stem

/-- What is bound is an expression of the invocation, to a name that is an identifier. -/
lemma Invocation.IsWellFormed.of_mem_bindings {entryPoint : EntryPoint} {i : Invocation}
    (h : i.IsWellFormed entryPoint) {t : FieldTable} (ht : i.table = .ok t) {stem : String}
    (hstem : Text.isIdentifier stem.toList) {b : String × Expression}
    (hb : b ∈ i.bindings t stem) : Text.isIdentifier b.1.toList ∧ b.2 ∈ i.expressions := by
  rcases List.mem_append.mp hb with hb | hb
  · obtain ⟨g, hg, rfl⟩ := List.mem_map.mp hb
    refine ⟨?_, (h.group ht hg).1⟩
    obtain ⟨name, hname⟩ := Option.isSome_iff_exists.mp (FieldTable.isSome_bindingOf hg stem)
    dsimp only
    rw [FieldTable.sourceName, hname, Option.getD_some]
    exact FieldTable.isIdentifier_bindingNames hstem (fun g hg => (h.group ht hg).2) name
      (List.mem_of_getElem? hname)
  · cases i with
    | assertion a =>
      have hword (word : String) (hword : ∀ c ∈ word.toList, Text.isIdentifierPart c) :
          Text.isIdentifier (stem ++ word).toList := by
        rw [String.toList_append]
        exact (Text.isIdentifier_append (Text.ne_nil_of_isIdentifier hstem)).mpr ⟨hstem, hword⟩
      rcases List.mem_cons.mp hb with rfl | hb
      · exact ⟨hword "actual" (by decide +kernel), List.mem_cons_self⟩
      · cases hexpected : a.expected with
        | value e fields =>
          rw [hexpected] at hb
          obtain rfl := List.mem_singleton.mp hb
          refine ⟨hword "expected" (by decide +kernel), ?_⟩
          rw [expressions, hexpected]
          exact List.mem_cons_of_mem _ (List.mem_append_left _ (List.mem_singleton.mpr rfl))
        | record c =>
          rw [hexpected] at hb
          cases hb
    | _ => cases hb

namespace Python

/-- A name and the text of the caller that a line assigns to it. -/
def Line.hostBinding? : Line → Option (String × String)
  | assign name (.host text) => some (name, text)
  | _ => none

/-- The texts of the caller that lines assign to names, in order. -/
def Script.hostBindings (s : Script) : List (String × String) :=
  s.blocks.flatten.filterMap Line.hostBinding?

lemma hostBindings_bindingBlocks (p : Plan) :
    (bindingBlocks p).flatten.filterMap Line.hostBinding? =
      p.bindings.map fun b => (b.1, b.2.text) := by
  rw [bindingBlocks, ← List.flatMap_def, List.filterMap_flatMap]
  exact List.map_eq_flatMap.symm

lemma hostBindings_anonType (settings : Settings) (t : FieldTable) :
    (anonType settings t).filterMap Line.hostBinding? = [] := by
  rw [List.filterMap_eq_nil_iff]
  intro line hline
  rcases List.mem_append.mp hline with hline | hline
  · obtain ⟨name, -, rfl⟩ := List.mem_map.mp hline
    rfl
  · simp only [List.mem_cons, List.not_mem_nil, or_false] at hline
    rcases hline with rfl | rfl | rfl <;> rfl

lemma hostBindings_anonRecord (settings : Settings) (t : FieldTable) :
    (anonRecord settings t).hostBindings =
      (bindingBlocks (t.plan settings.bindingStem)).flatten.filterMap Line.hostBinding? := by
  change (anonType settings t :: bindingBlocks (t.plan settings.bindingStem)).flatten.filterMap
    Line.hostBinding? = _
  rw [List.flatten_cons, List.filterMap_append, hostBindings_anonType, List.nil_append]

lemma hostBindings_assertion {a : Assertion} {t : FieldTable}
    (ht : (Invocation.assertion a).table = .ok t) (settings : Settings) :
    (assertion settings a t).hostBindings =
      ((Invocation.assertion a).bindings t settings.bindingStem).map
        fun b => (b.1, b.2.text) := by
  have hchecks (checks left right : String) :
      (a.fields.map (.check checks left right)).filterMap Line.hostBinding? = [] := by
    rw [List.filterMap_map]
    exact List.filterMap_eq_nil_iff.mpr fun _ _ => rfl
  rw [Script.hostBindings, flatten_blocks_assertion, linesBeforeExpected, Invocation.bindings,
    Invocation.sides, List.map_append, ← hostBindings_bindingBlocks]
  simp only [List.filterMap_append, List.filterMap_cons, List.filterMap_nil, Line.hostBinding?,
    hchecks, List.append_assoc]
  cases hexpected : a.expected with
  | value e fields =>
    rw [Invocation.table, Invocation.composition?, hexpected] at ht
    obtain rfl := Except.ok.inj ht
    simp [expectedValue, hexpected, bindingBlocks, FieldTable.plan]
  | record c =>
    have hrecord := hostBindings_anonRecord settings t
    rw [Script.hostBindings] at hrecord
    simp only [expectedValue, hexpected, hrecord]
    rfl

lemma hostBindings_script {entryPoint : EntryPoint} {i : Invocation} {t : FieldTable}
    (hi : i.IsWellFormed entryPoint) (hentry : entryPoint.carriesExpressions)
    (ht : i.table = .ok t) (settings : Settings) :
    (script settings i t).hostBindings =
      (i.bindings t settings.bindingStem).map fun b => (b.1, b.2.text) := by
  cases i with
  | structUpdate typePath c =>
    change _ = ((t.plan settings.bindingStem).bindings ++ []).map _
    rw [List.append_nil, ← hostBindings_bindingBlocks]
    simp only [script, structUpdate, Script.hostBindings]
    split <;> rfl
  | anonRecord c =>
    change _ = ((t.plan settings.bindingStem).bindings ++ []).map _
    rw [List.append_nil, ← hostBindings_bindingBlocks]
    exact hostBindings_anonRecord settings t
  | assertion a => exact hostBindings_assertion ht settings
  | rebinding c => cases entryPoint <;> first | exact hi.elim | cases hentry
  | holder h => cases entryPoint <;> first | exact hi.elim | cases hentry

/-- The line of a binding stands in a statement as it is. -/
lemma exists_statement_of_mem_hostBindings {s : Script} {b : String × String}
    (h : b ∈ s.hostBindings) (runtimeName tab : String) :
    ∃ statement ∈ (s.draft runtimeName).statements, ∃ before after,
      statement.render tab = "\n".intercalate (before ++ Text.assignment b.1 b.2 :: after) := by
  obtain ⟨line, hline, hbinding⟩ := List.mem_filterMap.mp h
  obtain ⟨block, hblock, hline⟩ := List.mem_flatten.mp hline
  obtain rfl : line = .assign b.1 (.host b.2) := by
    unfold Line.hostBinding? at hbinding
    split at hbinding
    · obtain rfl := Option.some.inj hbinding
      rfl
    · cases hbinding
  obtain ⟨before, after, rfl⟩ := List.append_of_mem hline
  refine ⟨_, List.mem_map_of_mem hblock,
    (before.flatMap (·.code runtimeName)).map (·.render tab),
    (after.flatMap (·.code runtimeName)).map (·.render tab), ?_⟩
  rw [Code.stacked, Code.render_joined, List.flatMap_append, List.flatMap_cons, List.map_append,
    List.map_append]
  rfl

end Python

/-- An expansion binds an expression to a name in lines of its own, which hold the expression as it
is. These are one logical line exactly if the expression is one, where the name can be read. -/
structure Expansion.BindsExpression (e : Expansion) (name : String) (expression : Expression) :
    Prop where
  exists_statement : ∃ statement ∈ e.statements, ∃ before after,
    statement = "\n".intercalate (before ++ Text.assignment name expression.text :: after)
  isLogicalLine_iff : Text.isLogicalLine (Text.assignment name expression.text) ↔
    (∀ c ∈ name.toList, Text.isWordChar c) ∧ Text.isLogicalLine expression.text

/-- The python code of a record or of an assertion assigns expressions of the caller in as many
lines as it binds sources and sides. Each of them moves the expression as it is, so that it is one
logical line exactly if the captured expression is one and the lexer reads the name. -/
theorem expand_binds_expressions {entryPoint : EntryPoint} {dialect? : Option Dialect}
    {settings : Settings} {file text : String} {expansion : Expansion}
    (hentry : entryPoint.carriesExpressions) (hsettings : settings.IsValid)
    (hdialect : dialect?.getD settings.dialect = .python)
    (h : expand entryPoint.name text (dialect?.map Dialect.name) settings file = .ok expansion) :
    ∃ i t tokens, Invocation.ofText entryPoint (.dialect .python) text = .ok i ∧
      i.table = .ok t ∧ Tokens.ofText (.dialect .python) text = .ok tokens ∧
      let script := Python.script settings i t
      let bindings := i.bindings t settings.bindingStem
      expansion =
        (script.draft settings.runtimeAlias).layout settings.tab entryPoint "python" ∧
      script.hostBindings = bindings.map (fun b => (b.1, b.2.text)) ∧
      ∀ b ∈ bindings, b.2.IsCaptured (.dialect .python) text tokens ∧
        expansion.BindsExpression b.1 b.2 := by
  obtain ⟨i, t, hread, ht, rfl⟩ := expand_eq_ok_iff.mp h
  rw [hdialect] at hread ⊢
  obtain ⟨tokens, htokens, hcaptured⟩ := Invocation.isCaptured_of_ofText hentry hread
  have hwell := Invocation.isWellFormed_of_ofText hread
  have hbindings := Python.hostBindings_script hwell hentry ht settings
  refine ⟨i, t, tokens, hread, ht, htokens, rfl, hbindings, fun b hb => ?_⟩
  obtain ⟨hname, hmem⟩ :=
    hwell.of_mem_bindings ht (Settings.isIdentifier_of_stemFault hsettings.bindingStem) hb
  obtain ⟨parts, hlexes, hstarts⟩ := (hcaptured _ hmem).exists_lexes htokens
  refine ⟨hcaptured _ hmem, ?_, Text.isLogicalLine_assignment_iff hname hlexes hstarts⟩
  have hb : (b.1, b.2.text) ∈ (Python.script settings i t).hostBindings := by
    rw [hbindings]
    exact List.mem_map_of_mem hb
  obtain ⟨statement, hstatement, before, after, hrender⟩ :=
    Python.exists_statement_of_mem_hostBindings hb settings.runtimeAlias settings.tab
  refine ⟨_, ?_, before, after, hrender⟩
  rw [Draft.statements_layout]
  exact List.mem_map_of_mem hstatement

/-- The source goes on in a second line inside its brackets, and stays one logical line. -/
theorem expand_binds_expressions_brackets :
    let text := "P \x7b \x7b a \x7d in f(x,\n  y) \x7d"
    ∃ expansion, expand "spread" text (some "python") {} "<input>" = .ok expansion ∧
      expansion.BindsExpression "__a" ⟨"f(x,\n  y)", ⟨1, 14⟩⟩ ∧
      Text.isLogicalLine "__a = f(x,\n  y)" := by
  intro text
  have hsettings : Settings.IsValid {} := by decide +kernel
  let source : Expression := ⟨"f(x,\n  y)", ⟨1, 14⟩⟩
  let c : Composition :=
    { items := [.group ⟨[{ name := "a", position := ⟨1, 7⟩ }], source, ⟨1, 5⟩⟩] }
  have hread : Invocation.ofText .spread (.dialect .python) text =
      .ok (.structUpdate ⟨"P", ⟨1, 1⟩⟩ c) := by
    decide +kernel
  have hexpand : expand EntryPoint.spread.name text (Option.map Dialect.name (some .python)) {}
      "<input>" = .ok _ :=
    expand_eq_ok_iff.mpr ⟨_, c.table, hread, by decide +kernel, rfl⟩
  obtain ⟨i, t, tokens, hread', ht, -, -, -, hbinds⟩ :=
    expand_binds_expressions rfl hsettings rfl hexpand
  obtain rfl : _ = i := Except.ok.inj (hread.symm.trans hread')
  change c.resolve = .ok t at ht
  obtain ⟨-, rfl⟩ := Composition.resolve_eq_ok_iff.mp ht
  obtain ⟨-, hbind⟩ := hbinds ("__a", source) (by decide +kernel)
  exact ⟨_, hexpand, hbind, hbind.isLogicalLine_iff.mpr (by decide +kernel)⟩

/-- A source that goes on behind a newline outside brackets is cut into two logical lines. -/
theorem not_isLogicalLine_source :
    let text := "P \x7b \x7b a \x7d in x\n+ y \x7d"
    (∃ expansion, expand "spread" text (some "python") {} "<input>" = .ok expansion ∧
      expansion.statements = ["__a = x\n+ y"]) ∧
    Text.isLogicalLine "__a = x\n+ y" = false := by
  intro text
  let c : Composition := { items :=
    [.group ⟨[{ name := "a", position := ⟨1, 7⟩ }], ⟨"x\n+ y", ⟨1, 14⟩⟩, ⟨1, 5⟩⟩] }
  have hread : Invocation.ofText .spread (.dialect .python) text =
      .ok (.structUpdate ⟨"P", ⟨1, 1⟩⟩ c) := by
    decide +kernel
  have hexpand : expand EntryPoint.spread.name text (Option.map Dialect.name (some .python)) {}
      "<input>" = .ok _ :=
    expand_eq_ok_iff.mpr ⟨_, c.table, hread, by decide +kernel, rfl⟩
  exact ⟨⟨_, hexpand, by decide +kernel⟩, by decide +kernel⟩

end FieldComposition
