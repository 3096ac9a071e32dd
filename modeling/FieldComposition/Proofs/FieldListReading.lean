import FieldComposition.Proofs.TokenStream

/-!
# Reading field lists

Every parser of field lists ensures that its errors are at positions of the text
(`Parser.Ensures.fieldList`). The entries that it returns stand at characters of the text, and their
modifiers pass the check of modifiers.
-/

namespace FieldComposition

lemma Text.slice_ne_empty {text : String} {start stop : Nat} (h : start < stop)
    (hstop : stop ≤ text.toList.length) : slice text start stop ≠ "" := by
  intro hempty
  have hlength := congrArg (fun s => s.toList.length) hempty
  simp only [slice, String.toList_ofList, List.length_take, List.length_drop, String.toList_empty,
    List.length_nil] at hlength
  omega

/-- The kind and the path of a modifier make it. -/
def Modifier.IsValid (m : Modifier) : Prop :=
  ofKind m.kind m.path? = .ok m

lemma Modifier.isValid_iff (m : Modifier) : m.IsValid ↔ m.path? ≠ some "" := by
  cases m <;> simp [IsValid, ofKind, kind, path?]

/-- An entry stands at a character of a text and has a modifier that passes its check. -/
structure Entry.IsReadFrom (text : List Char) (e : Entry) : Prop where
  position_isOn : e.position.IsOn text
  isValid_modifier : e.modifier.IsValid

structure Group.IsReadFrom (text : List Char) (g : Group) : Prop where
  position_isIn : g.position.IsIn text
  entries_ne_nil : g.entries ≠ []
  isReadFrom_entries : ∀ e ∈ g.entries, e.IsReadFrom text

def Item.IsReadFrom (text : List Char) : Item → Prop
  | entry e => e.IsReadFrom text
  | group g => g.IsReadFrom text

def Composition.IsReadFrom (text : List Char) (c : Composition) : Prop :=
  ∀ i ∈ c.items, i.IsReadFrom text

lemma Composition.IsReadFrom.entries {text : List Char} {c : Composition} (h : c.IsReadFrom text) :
    ∀ e ∈ c.entries, e.IsReadFrom text := by
  intro e he
  obtain ⟨i, hi, he⟩ := List.mem_flatMap.mp he
  have hread := h i hi
  cases i with
  | entry e' =>
    obtain rfl : e = e' := by simpa [Item.entries] using he
    exact hread
  | group g => exact hread.isReadFrom_entries e he

namespace Parser.Ensures

variable {host : Host} {text : String} {k : Nat}

/-- The path of a custom modifier is not empty: it ends behind the start of its first token. -/
lemma customPath : Ensures host text k customPath (· ≠ "") := by
  refine advance.bind fun openBracket hopen => current_bind fun first hfirst => ?_
  refine .ite (fun _ => fail_bind hopen) fun _ => accept?.bind fun _ _ => ?_
  refine expect.bind fun name hname => (pathSegments hname).bind fun last hlast => ?_
  refine current_bind fun t ht => .ite (fun _ => ?_) fun _ => fail_bind ht
  refine skip.bind fun _ _ => textBetween.mono ?_
  rintro path rfl
  have hstop := hlast.1.start_lt_stop (by rw [hlast.2]; decide)
  have hstart := hlast.1.le_start
  exact Text.slice_ne_empty (by omega) hlast.1.spans.stop_le_length

/-- Every modifier that is read passes the check of modifiers. -/
lemma modifier : Ensures host text k modifier Modifier.IsValid := by
  refine current_bind fun t ht => ?_
  split
  · refine skip.bind fun _ _ => accepts.bind fun hasMut _ => pure ?_
    cases hasMut <;> rfl
  · refine skip.bind fun _ _ => accepts.bind fun hasGreater _ => pure ?_
    cases hasGreater <;> rfl
  · exact skip.bind fun _ _ => pure rfl
  · refine customPath.bind fun path hpath => accepts.bind fun hasAmp _ => ?_
    refine .ite (fun _ => accepts.bind fun hasMut _ => pure ?_) fun _ => pure ?_
    · rw [Modifier.isValid_iff]
      cases hasMut <;> simpa [Modifier.path?] using hpath
    · rw [Modifier.isValid_iff]
      simpa [Modifier.path?] using hpath
  · exact .ite (fun _ => fail ht) fun _ => pure rfl

/-- A name stands behind the offset, so there are characters behind it. -/
lemma nameAfter {m : Modifier} :
    Ensures host text k (nameAfter m) fun _ => k < text.toList.length := by
  refine current_bind fun t ht => isName.bind fun isName hisName => ?_
  refine .ite (fun hname => ?_) fun _ => .ite (fun _ => fail ht) fun _ => fail ht
  have hlt := ht.start_lt_stop (hisName hname)
  have hle := ht.le_start
  have hlength := ht.spans.stop_le_length
  exact advance.mono fun _ _ => by omega

lemma mutMark {stops : List TokenKind} :
    Ensures host text k (mutMark stops) fun t? => ∀ t ∈ t?, t.IsBehind text.toList k := by
  refine current.bind fun t ht => following.bind fun next _ => isName.bind fun isName _ => ?_
  exact .ite (fun _ => pure (by simp)) fun _ => accept?

lemma sourceField {stops : List TokenKind} :
    Ensures host text k (sourceField stops) fun _ => True := by
  refine current_bind fun t ht => following.bind fun next _ => isName.bind fun isName _ => ?_
  exact .ite (fun _ => advance.mono fun _ _ => trivial) fun _ => fail ht

lemma entry {stops : List TokenKind} {inGroup allowMut : Bool} :
    Ensures host text k (entry stops inGroup allowMut) (Entry.IsReadFrom text.toList) := by
  refine current_bind fun first hfirst => mutMark.bind fun mark hmark => ?_
  rcases mark with _ | t
  case' some => refine .ite (fun _ => ?_) fun _ => fail_bind (hmark t rfl)
  all_goals
    refine modifier.bind fun m hm => nameAfter.bind fun name hname => accepts.bind fun _ _ => ?_
    have hon : first.position.IsOn text.toList := ⟨first.start, hname, hfirst.spans.position_eq⟩
    refine .ite (fun _ => .ite (fun _ => ?_) fun _ => ?_) fun _ => pure ⟨hon, hm⟩
    · exact sourceField.bind fun source _ => pure ⟨hon, hm⟩
    · exact capture.bind fun value _ => pure ⟨hon, hm⟩

lemma groupEntry {openBrace : Token} {j : Nat} (hopen : openBrace.IsBehind text.toList j)
    {allowMut : Bool} {entries : List Entry}
    (hentries : ∀ e ∈ entries, e.IsReadFrom text.toList) :
    Ensures host text k (groupEntry openBrace allowMut entries) fun entries =>
      ∀ e ∈ entries, e.IsReadFrom text.toList := by
  refine current_bind fun t ht => .ite (fun _ => fail_bind hopen) fun _ => ?_
  refine .ite (fun _ => fail_bind ht) fun _ => entry.bind fun e he => ?_
  refine current_bind fun next _ => .ite (fun _ => fail_bind hopen) fun _ => pure ?_
  intro e' he'
  rcases List.mem_append.mp he' with he' | he'
  · exact hentries e' he'
  · obtain rfl : e' = e := by simpa using he'
    exact he

lemma group {rule : ListRule} :
    Ensures host text k (group rule) (Group.IsReadFrom text.toList) := by
  refine advance.bind fun openBrace hopen => ?_
  refine (separated (fun _ h => groupEntry hopen h) (by simp)).bind fun entries hentries => ?_
  refine skip.bind fun _ _ => .ite (fun _ => fail_bind hopen) fun hempty => ?_
  refine current_bind fun t ht => .ite (fun _ => skip.bind fun _ _ => ?_) fun _ => fail_bind ht
  refine capture.bind fun source _ => pure ⟨hopen.position_isIn, ?_, hentries⟩
  simpa using hempty

lemma item {rule : ListRule} {items : List Item} (hitems : ∀ i ∈ items, i.IsReadFrom text.toList) :
    Ensures host text k (item rule items) fun items => ∀ i ∈ items, i.IsReadFrom text.toList := by
  have hsnoc {i : Item} (hi : i.IsReadFrom text.toList) :
      ∀ i' ∈ items ++ [i], i'.IsReadFrom text.toList := by
    intro i' hi'
    rcases List.mem_append.mp hi' with hi' | hi'
    · exact hitems i' hi'
    · obtain rfl : i' = i := by simpa using hi'
      exact hi
  refine current_bind fun t ht => .ite (fun _ => fail ht) fun _ => ?_
  refine .ite (fun _ => group.bind fun g hg => pure (hsnoc hg)) fun _ => ?_
  exact .ite (fun _ => fail ht) fun _ => entry.bind fun e he => pure (hsnoc he)

lemma base {rule : ListRule} : Ensures host text k (base rule) fun _ => True := by
  refine current_bind fun t ht => .ite (fun _ => ?_) fun _ => pure trivial
  refine .ite (fun _ => skip.bind fun _ _ => capture.bind fun base _ => ?_) fun _ => fail_bind ht
  exact current_bind fun next hnext => .ite (fun _ => fail_bind hnext) fun _ => pure trivial

/-- The entries of a field list that is read stand at positions of the text. -/
theorem fieldList {rule : ListRule} :
    Ensures host text k (fieldList rule) (Composition.IsReadFrom text.toList) :=
  (separated (fun _ h => item h) (by simp)).bind fun _ hitems => base.bind fun _ _ => pure hitems

lemma wholeFieldList {allowBase allowMut : Bool} :
    Ensures host text k (wholeFieldList allowBase allowMut)
      (Composition.IsReadFrom text.toList) := by
  refine remaining.bind fun tokens _ => .ite (fun _ => skip.bind fun _ _ => ?_) fun _ => fieldList
  exact fieldList.bind fun c hc => expect.bind fun _ _ => pure hc

end Parser.Ensures

end FieldComposition
