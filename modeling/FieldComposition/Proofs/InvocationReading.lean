import FieldComposition.Emission
import FieldComposition.Proofs.FieldListReading

/-!
# Reading invocations

The parser of every entry point ensures that its errors are at positions of the text, and so does
reading an invocation from a text as a whole (`Invocation.ofText_spec`). The entries and arguments
that are read stand at positions of the text, with modifiers that pass their check.
-/

namespace FieldComposition

structure Argument.IsReadFrom (text : List Char) (a : Argument) : Prop where
  position_isOn : a.position.IsOn text
  isValid_modifier : a.modifier.IsValid

structure Holder.IsReadFrom (text : List Char) (h : Holder) : Prop where
  isValid_receiver : ∀ m ∈ h.receiver, m.IsValid
  isReadFrom_args : ∀ a ∈ h.args, a.IsReadFrom text

/-- The entries and arguments of an invocation stand in a text. -/
structure Invocation.IsReadFrom (text : List Char) (i : Invocation) : Prop where
  composition : ∀ c ∈ i.composition?, c.IsReadFrom text
  holder : ∀ h, i = .holder h → h.IsReadFrom text

lemma Invocation.IsReadFrom.of_composition {text : List Char} {i : Invocation} {c : Composition}
    (hi : i.composition? = some c) (hc : c.IsReadFrom text) : i.IsReadFrom text := by
  refine ⟨fun c' hc' => ?_, fun h hholder => ?_⟩
  · rw [hi] at hc'
    obtain rfl := Option.some.inj hc'
    exact hc
  · rw [hholder] at hi
    exact absurd hi (by simp [composition?])

namespace Parser.Ensures

variable {host : Host} {text : String} {k : Nat}

lemma genericParam {params : List GenericParam} :
    Ensures host text k (genericParam params) fun _ => True := by
  refine capture.bind fun decl _ => ?_
  cases GenericParam.ofDecl? decl.text with
  | some param => exact pure trivial
  | none => exact current_bind fun t ht => fail ht

lemma generics : Ensures host text k generics fun _ => True := by
  refine accepts.bind fun hasLess _ => .ite (fun _ => ?_) fun _ => pure trivial
  refine (separated (fun _ _ => genericParam) trivial).bind fun params _ => ?_
  exact skip.bind fun _ _ => pure trivial

lemma visibility : Ensures host text k visibility fun _ => True := by
  refine accept?.bind fun pub _ => ?_
  cases pub with
  | none => exact pure trivial
  | some pub =>
    refine current_bind fun t _ => .ite (fun _ => ?_) fun _ => ?_
    · exact bracketed.bind fun _ _ => pure trivial
    · exact textBetween.bind fun _ _ => pure trivial

lemma typeText {stops : List TokenKind} {sought : Sought} :
    Ensures host text k (typeText stops sought) fun _ => True :=
  capture.bind fun _ _ => pure trivial

lemma typeAfter? {mark : TokenKind} {stops : List TokenKind} {sought : Sought} :
    Ensures host text k (typeAfter? mark stops sought) fun _ => True :=
  accepts.bind fun _ _ => .ite (fun _ => typeText.bind fun _ _ => pure trivial) fun _ =>
    pure trivial

lemma argument : Ensures host text k argument
    (Sum.elim (Argument.IsReadFrom text.toList) Modifier.IsValid) := by
  refine current_bind fun first hfirst => modifier.bind fun m hm => ?_
  refine nameAfter.bind fun name hname => .ite (fun _ => ?_) fun _ => ?_
  · exact .ite (fun _ => pure hm) fun _ => fail_bind hfirst
  · refine typeAfter?.bind fun type _ => accepts.bind fun hasDefault _ => ?_
    have hread (default : Option Expression) : Argument.IsReadFrom text.toList
        { name := name.value, modifier := m, type, default, position := first.position } :=
      ⟨⟨first.start, hname, hfirst.spans.position_eq⟩, hm⟩
    refine .ite (fun _ => ?_) fun _ => (pure rfl).bind fun default _ => pure (hread default)
    exact bind (P := fun _ => True) (capture.map fun _ _ => trivial) fun default _ =>
      pure (hread default)

lemma nextArgument {openParen : Token} {j : Nat} (hopen : openParen.IsBehind text.toList j)
    {state : Option Modifier × List Argument} (hreceiver : ∀ m ∈ state.1, m.IsValid)
    (hargs : ∀ a ∈ state.2, a.IsReadFrom text.toList) :
    Ensures host text k (nextArgument openParen state) fun state =>
      (∀ m ∈ state.1, m.IsValid) ∧ ∀ a ∈ state.2, a.IsReadFrom text.toList := by
  refine current_bind fun t ht => .ite (fun _ => fail_bind hopen) fun _ => ?_
  refine argument.bind fun read hread => ?_
  cases read with
  | inr receiver =>
    refine .ite (fun _ => pure ⟨?_, by simp⟩) fun _ => fail_bind ht
    rintro m hm
    obtain rfl : receiver = m := by simpa using hm
    exact hread
  | inl a =>
    refine pure ⟨hreceiver, fun a' ha' => ?_⟩
    rcases List.mem_append.mp ha' with ha' | ha'
    · exact hargs a' ha'
    · obtain rfl : a' = a := by simpa using ha'
      exact hread

/-- The invocation that an entry point reads is of the form that its backend takes. -/
lemma structUpdate : Ensures host text k structUpdate fun i =>
    i.form = EntryPoint.spread.form ∧ i.IsReadFrom text.toList := by
  refine capture.bind fun typePath _ => expect.bind fun _ _ => fieldList.bind fun c hc => ?_
  exact expect.bind fun _ _ => expectEnd.bind fun _ _ => pure ⟨rfl, .of_composition rfl hc⟩

lemma anonRecord : Ensures host text k anonRecord fun i =>
    i.form = EntryPoint.anon.form ∧ i.IsReadFrom text.toList := by
  refine current_bind fun first hfirst => wholeFieldList.bind fun c hc => ?_
  refine expectEnd.bind fun _ _ => .ite (fun _ => fail_bind hfirst) fun _ => ?_
  exact pure ⟨rfl, .of_composition rfl hc⟩

lemma bareName {i : Item} (hi : i.IsReadFrom text.toList) :
    Ensures host text k (bareName i) (Entry.IsReadFrom text.toList) := by
  cases i with
  | group g => exact failAt hi.position_isIn
  | entry e => exact .ite (fun _ => failAt_bind hi.position_isOn.isIn) fun _ => pure hi

lemma rebindingEntries : Ensures host text k rebindingEntries fun entries =>
    ∀ e ∈ entries, e.IsReadFrom text.toList := by
  refine current_bind fun first hfirst => wholeFieldList.bind fun c hc => ?_
  refine expectEnd.bind fun _ _ => .ite (fun _ => fail_bind hfirst) fun _ => ?_
  exact (mapM fun i hi => bareName (hc i hi)).mono fun _ hentries => hentries.2

lemma isReadFrom_rebinding {entries : List Entry}
    (h : ∀ e ∈ entries, e.IsReadFrom text.toList) :
    (Invocation.rebinding { items := entries.map .entry }).IsReadFrom text.toList := by
  refine .of_composition rfl fun i hi => ?_
  obtain ⟨e, he, rfl⟩ := List.mem_map.mp hi
  exact h e he

lemma rebinding : Ensures host text k rebinding fun i =>
    i.form = EntryPoint.slet.form ∧ i.IsReadFrom text.toList :=
  rebindingEntries.bind fun _ hentries => pure ⟨rfl, isReadFrom_rebinding hentries⟩

lemma cloneEntry {e : Entry} (he : e.IsReadFrom text.toList) :
    Ensures host text k (cloneEntry e) (Entry.IsReadFrom text.toList) :=
  .ite (fun _ => pure ⟨he.position_isOn, rfl⟩) fun _ => failAt_bind he.position_isOn.isIn

lemma cloneRebinding : Ensures host text k cloneRebinding fun i =>
    i.form = EntryPoint.clone.form ∧ i.IsReadFrom text.toList := by
  refine rebindingEntries.bind fun entries hentries => ?_
  refine (mapM fun e he => cloneEntry (hentries e he)).bind fun clones hclones => ?_
  exact pure ⟨rfl, isReadFrom_rebinding hclones.2⟩

lemma holder : Ensures host text k holder fun i =>
    i.form = EntryPoint.fnStruct.form ∧ i.IsReadFrom text.toList := by
  refine visibility.bind fun visibility _ => accept?.bind fun _ _ => accepts.bind fun byRef _ => ?_
  refine expect.bind fun name _ => generics.bind fun params _ => ?_
  refine typeAfter?.bind fun whereClause _ => expect.bind fun _ _ => ?_
  refine generics.bind fun callGenerics _ => ?_
  refine typeAfter?.bind fun callWhere _ => expect.bind fun _ _ => ?_
  refine current_bind fun pathStart hpath => typeText.bind fun path _ => ?_
  refine expect.bind fun openParen hopen => ?_
  refine (separated (fun _ h => nextArgument hopen.1 h.1 h.2) ⟨by simp, by simp⟩).bind ?_
  rintro ⟨receiver, args⟩ ⟨hreceiver, hargs⟩
  refine skip.bind fun _ _ => typeAfter?.bind fun returnType _ => expectEnd.bind fun _ _ => ?_
  refine .ite (fun _ => fail_bind hopen.1) fun _ => ?_
  refine .ite (fun _ => fail_bind hpath) fun _ => pure ⟨rfl, ?_, ?_⟩
  · simp [Invocation.composition?]
  rintro h ⟨⟩
  exact ⟨hreceiver, hargs⟩

lemma nextFieldName {names : List Token} (hnames : ∀ t ∈ names, t.position.IsIn text.toList) :
    Ensures host text k (nextFieldName names) fun names =>
      ∀ t ∈ names, t.position.IsIn text.toList := by
  refine expectName.bind fun t ht => ?_
  cases hfind : names.find? (·.value == t.value) with
  | some first =>
    exact fun _ _ => ⟨hnames first (List.mem_of_find?_eq_some hfind), ht.position_isIn⟩
  | none =>
    refine pure fun t' ht' => ?_
    rcases List.mem_append.mp ht' with ht' | ht'
    · exact hnames t' ht'
    · obtain rfl : t' = t := by simpa using ht'
      exact ht.position_isIn

lemma fieldNames : Ensures host text k fieldNames fun _ => True := by
  refine expect.bind fun openBracket hopen => ?_
  refine (separated (fun _ h => nextFieldName h) (by simp)).bind fun names _ => ?_
  exact skip.bind fun _ _ => .ite (fun _ => fail_bind hopen.1) fun _ => pure trivial

/-- The field list of an expected side stands in a text. -/
def ExpectedIn (text : List Char) (expected : Expected) : Prop :=
  ∀ c, expected = .record c → c.IsReadFrom text

lemma expectedRecord : Ensures host text k expectedRecord (ExpectedIn text.toList) := by
  refine advance.bind fun openBrace hopen => fieldList.bind fun c hc => expect.bind fun _ _ => ?_
  refine .ite (fun _ => fail_bind hopen) fun _ => pure ?_
  rintro c' ⟨⟩
  exact hc

lemma expectedValue : Ensures host text k expectedValue (ExpectedIn text.toList) :=
  capture.bind fun _ _ => expect.bind fun _ _ => fieldNames.bind fun _ _ => pure nofun

lemma messageArgument {args : List Expression} :
    Ensures host text k (messageArgument args) fun _ => True :=
  capture.bind fun _ _ => pure trivial

lemma assertion : Ensures host text k assertion fun i =>
    i.form = EntryPoint.assertFieldsEq.form ∧ i.IsReadFrom text.toList := by
  refine capture.bind fun actual _ => expect.bind fun _ _ => current_bind fun t _ => ?_
  have hend (expected : Expected) (hexpected : ExpectedIn text.toList expected)
      (formatArgs : List Expression) :
      (Invocation.assertion { actual, expected, formatArgs }).IsReadFrom text.toList := by
    cases expected with
    | value expression fields =>
      exact ⟨by simp [Invocation.composition?], fun h hholder => by cases hholder⟩
    | record c => exact .of_composition rfl (hexpected c rfl)
  refine .ite (fun _ => expectedRecord.bind fun expected hexpected => ?_) fun _ =>
    expectedValue.bind fun expected hexpected => ?_
  all_goals
    refine accepts.bind fun hasComma _ => .ite (fun _ => ?_) fun _ => ?_
    · refine (separated (fun _ _ => messageArgument) trivial).bind fun formatArgs _ => ?_
      exact expectEnd.bind fun _ _ => pure ⟨rfl, hend expected hexpected formatArgs⟩
    · refine (pure rfl).bind fun formatArgs _ => ?_
      exact expectEnd.bind fun _ _ => pure ⟨rfl, hend expected hexpected formatArgs⟩

/-- Every entry point reads invocations of its own form, or it ends in an error at a position of the
text. -/
theorem invocation (entryPoint : EntryPoint) : Ensures host text k (invocation entryPoint) fun i =>
    i.form = entryPoint.form ∧ i.IsReadFrom text.toList := by
  cases entryPoint with
  | spread => exact structUpdate
  | anon => exact anonRecord
  | slet => exact rebinding
  | clone => exact cloneRebinding
  | fnStruct => exact holder
  | assertFieldsEq => exact assertion

end Parser.Ensures

/-- A parser that starts at the first token of a text ends in what it ensures. -/
lemma Parser.onText_spec {α : Type} {p : Parser α} {host : Host} {text : String} {Q : α → Prop}
    (hp : p.Ensures host text 0 Q) :
    ReadError.EndsIn text.toList Q (onText p host text) := by
  have htokens := Tokens.outcome_ofText host text
  unfold onText
  cases hresult : Tokens.ofText host text with
  | error error =>
    rw [hresult] at htokens
    obtain ⟨ts, offset, c, rest, fault, -, hdrop, -, rfl⟩ := htokens
    have hlt : offset < text.toList.length := List.length_lt_of_drop_ne_nil (by simp [hdrop])
    exact ⟨offset, hlt.le, rfl⟩
  | ok tokens =>
    rw [hresult] at htokens
    obtain ⟨htiled, heof⟩ := htokens
    have hrun := hp tokens.body (.of_tiled htiled le_rfl)
    dsimp only
    rw [heof]
    change ReadError.EndsIn text.toList Q ((p.run (.ofText host text) tokens.body).map (·.1))
    cases hvalue : p.run (.ofText host text) tokens.body with
    | error error =>
      rw [hvalue] at hrun
      exact hrun
    | ok result =>
      rw [hvalue] at hrun
      exact hrun.1

/-- Reading an invocation from a text ends in an invocation of the form that is asked for, or in an
error at a position of the text. -/
theorem Invocation.ofText_spec (entryPoint : EntryPoint) (host : Host) (text : String) :
    ReadError.EndsIn text.toList (fun i => i.form = entryPoint.form ∧ i.IsReadFrom text.toList)
      (Invocation.ofText entryPoint host text) :=
  Parser.onText_spec (Parser.Ensures.invocation entryPoint)

end FieldComposition
