import FieldComposition.CommandLine
import FieldComposition.Proofs.ExpansionErrors
import FieldComposition.Proofs.WellFormedInvocation

/-!
# Checked field lists

Checking a field list foretells what its expansion into an anonymous record does: both read and
resolve the list in the same way, so they end in the same error, or the rows of the check are the
fields of the emitted record (`CommandLine.check_expand_anon`). What an emitted record declares and
sets is read off its code (`MakesRecord`). The empty list is the one that only a check accepts.
-/

namespace FieldComposition

/-- Code in a literal that sets a field: the field and its value, or only a value that is written
like the field. -/
inductive Rust.Sets (field : String) : Code → Prop
  | value (value : Code) : Sets field (.text (field ++ ": ") ++ value ++ .text ",")
  | short (value : Code) (hvalue : value.render "" = field) : Sets field (value ++ .text ",")

/-- A draft declares a record type with the fields `declared`, binds sources, and makes one value of
the type, which sets the fields `set`. -/
inductive MakesRecord (settings : Settings) : Dialect → (declared set : List String) → Draft → Prop
  | python (imports : List Python.Module) (typeVariables : List String)
      (definition : Python.ClassDef) (bindings : List (String × String))
      (keywords : List Python.Keyword) :
      MakesRecord settings .python (definition.fields.map (·.name)) (keywords.map (·.name)) <|
        Python.Script.draft settings.runtimeAlias
          { imports
            blocks := (typeVariables.map .typeVariable ++
                [.blank, .blank, .classDef definition]) ::
              bindings.map fun b => [.assign b.1 (.host b.2)]
            result := some (.construct definition.name keywords) }
  | rust (declared set : List String) (parameters : String) (bindings : List (String × String))
      {initializers : List Code} (hset : List.Forall₂ Rust.Sets set initializers) :
      MakesRecord settings .rust declared set
        { expression := some <| Code.block <|
            [Rust.allowNaming, .text "#[derive(Copy, Clone, Debug, PartialEq, Eq)]",
              Code.braced (.text ("struct " ++ settings.anonTypeName ++ "<" ++ parameters ++ ">"))
                (declared.map fun field => .text (field ++ ": " ++ field ++ ",")),
              .text ""] ++
            bindings.map (fun b => Rust.letBinding b.1 (.host b.2)) ++
            [Code.braced (.text settings.anonTypeName) initializers] }

lemma Rust.sets_initializer (i : Initializer) : Sets i.target (initializer i) := by
  rw [initializer]
  by_cases hvalue : (Term.ofModifier i.modifier i.operand).render = i.target
  · rw [if_pos hvalue]
    exact .short _ hvalue
  · rw [if_neg hvalue]
    exact .value _

lemma Rust.sets_initializers (initializers : List Initializer) :
    List.Forall₂ Sets (initializers.map (·.target)) (initializers.map initializer) := by
  induction initializers with
  | nil => exact .nil
  | cons i initializers ih => exact .cons (sets_initializer i) ih

lemma FieldTable.map_target_plan (t : FieldTable) (stem : String) :
    (t.plan stem).initializers.map (·.target) = t.targets := by
  rw [plan, List.map_map]
  rfl

/-- The emitted record declares and sets the targets of its table. -/
lemma makesRecord_draft (d : Dialect) (settings : Settings) (c : Composition) {t : FieldTable}
    (hbase : t.base = none) (htargets : t.targets ≠ []) :
    MakesRecord settings d t.targets t.targets
      ((⟨d, .anon⟩ : Backend).draft settings (.anonRecord c) t) := by
  let plan := t.plan settings.bindingStem
  let bindings := plan.bindings.map fun b => (b.1, b.2.text)
  have hplan : plan.initializers.map (·.target) = t.targets := t.map_target_plan _
  cases d with
  | python =>
    let typeVariables := t.targets.map (Python.fieldTypeVariable settings)
    let fields : List Python.Field :=
      t.targets.map fun field => ⟨field, Python.fieldTypeVariable settings field, none⟩
    let keywords := Python.keywords plan settings.anonTypeName
    have hfields : fields.map (·.name) = t.targets := by
      rw [List.map_map]
      exact List.map_id _
    have hkeywords : keywords.map (·.name) = t.targets := by
      rw [← hplan]
      exact List.map_map
    have hmakes : MakesRecord settings .python (fields.map (·.name)) (keywords.map (·.name)) _ :=
      .python (.dataclasses :: .typing :: Python.valueImports plan) typeVariables
        ⟨settings.anonTypeName, some typeVariables, fields, none⟩ bindings keywords
    have hbindings : bindings.map (fun b => [Python.Line.assign b.1 (.host b.2)]) =
        Python.bindingBlocks plan := List.map_map
    rw [hfields, hkeywords, hbindings] at hmakes
    exact hmakes
  | rust =>
    have hset := Rust.sets_initializers plan.initializers
    rw [hplan] at hset
    have hmakes : MakesRecord settings .rust t.targets t.targets _ :=
      .rust t.targets t.targets (", ".intercalate t.targets) bindings hset
    have hliteral : Rust.literal settings.anonTypeName plan =
        Code.braced (.text settings.anonTypeName) (plan.initializers.map Rust.initializer) := by
      have hplanBase : plan.base = none := hbase
      have hnonempty : ¬(plan.initializers.map Rust.initializer).isEmpty := by
        intro hempty
        rw [List.isEmpty_iff, List.map_eq_nil_iff] at hempty
        rw [hempty] at hplan
        exact htargets hplan.symm
      simp only [Rust.literal, hplanBase, Option.toList_none, List.map_nil, List.append_nil]
      rw [if_neg hnonempty]
    have hbindings : bindings.map (fun b => Rust.letBinding b.1 (.host b.2)) =
        Rust.bindings plan := List.map_map
    rw [hbindings, ← hliteral] at hmakes
    exact hmakes

/-- The field list of an anonymous record is read like one that stands alone, and must not be
empty. -/
lemma Invocation.ofText_anon_cases (host : Host) (text : String) :
    (∃ error, Composition.ofText false false host text = .error error ∧
      ofText .anon host text = .error error) ∨
    (∃ c position, Composition.ofText false false host text = .ok c ∧ c.items = [] ∧
      ofText .anon host text = .error (.fault .recordEmpty position)) ∨
    ∃ c, Composition.ofText false false host text = .ok c ∧
      ofText .anon host text = .ok (.anonRecord c) := by
  rw [Composition.ofText, Parser.onText, ofText, Parser.onText]
  cases Tokens.ofText host text with
  | error error => exact .inl ⟨error, rfl, rfl⟩
  | ok tokens =>
    dsimp only
    rw [Parser.invocation, Parser.anonRecord, Parser.run_bind, Parser.run_bind, Parser.run_current]
    dsimp only
    rw [Parser.run_bind]
    cases (Parser.wholeFieldList false false).run ⟨host, text, tokens.eof⟩ tokens.body with
    | error error => exact .inl ⟨error, rfl, rfl⟩
    | ok result =>
      obtain ⟨c, rest⟩ := result
      dsimp only
      rw [Parser.run_bind, Parser.run_bind]
      cases Parser.expectEnd.run ⟨host, text, tokens.eof⟩ rest with
      | error error => exact .inl ⟨error, rfl, rfl⟩
      | ok result =>
        dsimp only
        by_cases hempty : c.isEmpty
        · rw [if_pos hempty]
          exact .inr (.inl ⟨c, _, rfl, List.isEmpty_iff.mp hempty, rfl⟩)
        · rw [if_neg hempty]
          exact .inr (.inr ⟨c, rfl, rfl⟩)

namespace CommandLine

/-- Checking a field list without a base and expanding it into an anonymous record end in the same
error, or the rows of the check show in order the fields that the emitted record type declares and
that its value sets. The exception is a list without fields, whose check shows no rows and whose
expansion ends in a syntax error. -/
theorem check_expand_anon (d : Dialect) (settings : Settings) (file text : String) :
    match FieldTable.ofText false false (.ofName d.name) file text,
      expand "anon" text (some d.name) settings file with
    | .error error, .error error' => error = error'
    | .ok t, .ok expansion =>
      ∃ fields draft, fields ≠ [] ∧ (checkTable t).rows.map List.head? = fields.map some ∧
        MakesRecord settings d fields fields draft ∧
        expansion = draft.layout settings.tab .anon d.name
    | .ok t, .error error => (checkTable t).rows = [] ∧ error.family = "FieldSyntaxError"
    | .error _, .ok _ => False := by
  have hhost : Host.ofName d.name = .dialect d := by cases d <;> rfl
  have hexpand := expand_eq .anon (some d) settings file text
  rw [Option.map_some, Option.getD_some] at hexpand
  change expand "anon" text (some d.name) settings file = _ at hexpand
  rw [hexpand, FieldTable.ofText, hhost]
  obtain ⟨error, hlist, hread⟩ | ⟨c, position, hlist, hitems, hread⟩ | ⟨c, hlist, hread⟩ :=
    Invocation.ofText_anon_cases (.dialect d) text
  · rw [hlist, hread]
    rfl
  · have hresolve : c.resolve = .ok c.table := by
      rw [Composition.resolve_eq_ok_iff, Composition.entries, hitems]
      exact ⟨List.nodup_nil, rfl⟩
    have hclaims : c.table.claims = [] := by
      rw [Composition.table, Composition.allClaims, Composition.claims, hitems]
      rfl
    rw [hlist, hread]
    dsimp only [Except.mapError, bind, Except.bind]
    rw [hresolve]
    refine ⟨?_, rfl⟩
    rw [checkTable, hclaims, List.map_nil]
  · obtain ⟨hc, hitems⟩ := (Parser.Returns.invocation .anon).of_onText hread
    rw [hlist, hread]
    dsimp only [Except.mapError, bind, Except.bind]
    have hform : ¬(Invocation.anonRecord c).form ≠ EntryPoint.anon.form := not_not_intro rfl
    rw [Backend.expand, if_neg hform, Invocation.table, Invocation.composition?]
    dsimp only
    cases hresolve : c.resolve with
    | error conflict => rfl
    | ok t =>
      obtain ⟨-, rfl⟩ := Composition.resolve_eq_ok_iff.mp hresolve
      have hbase : c.table.base = none := hc.base_eq_none
      have htargets : c.table.targets ≠ [] := by
        rw [Composition.targets_table]
        exact fun h => hc.entries_ne_nil hitems (List.map_eq_nil_iff.mp h)
      refine ⟨c.table.targets, _, htargets, ?_, makesRecord_draft d settings c hbase htargets, rfl⟩
      rw [checkTable, FieldTable.targets, List.map_map, List.map_map]
      rfl

end CommandLine

end FieldComposition
