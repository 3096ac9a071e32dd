import FieldComposition.Invocation
import FieldComposition.Proofs.StringEnds
import Mathlib.Data.List.DropRight

/-!
# The search for the type of a receiver

The type that a method path is called on is searched in the text of the path, without its tokens:
the text up to the first ` as ` where the path starts with `<`, or else the text up to the last `::`
or, without one, up to the last dot (`Holder.isSearchResult_receiverType`).
-/

namespace FieldComposition

namespace Text

section Cuts

variable {separator cs : List Char} {c : Char} {n : ℕ}

lemma not_occursAt_nil (hne : separator ≠ []) : ¬OccursAt separator [] n := by
  rw [OccursAt, List.drop_nil, List.prefix_nil]
  exact hne

lemma forall_not_occursAt_cons (hbegins : ¬separator <+: c :: cs)
    (h : ∀ n, ¬OccursAt separator cs n) : ∀ n, ¬OccursAt separator (c :: cs) n
  | 0 => hbegins
  | n + 1 => h n

/-- A text is cut where the separator first occurs, if it does. -/
lemma cutAtFirst?_spec (hne : separator ≠ []) (cs : List Char) :
    (cutAtFirst? separator cs = none ∧ ∀ n, ¬OccursAt separator cs n) ∨
      ∃ n tail, cutAtFirst? separator cs = some (cs.take n, tail) ∧
        IsLeast {m | OccursAt separator cs m} n := by
  induction cs with
  | nil => exact .inl ⟨rfl, fun _ => not_occursAt_nil hne⟩
  | cons c cs ih =>
    rw [cutAtFirst?]
    by_cases hbegins : separator <+: c :: cs
    · rw [if_pos (List.isPrefixOf_iff_prefix.mpr hbegins)]
      exact .inr ⟨0, _, rfl, hbegins, fun _ _ => Nat.zero_le _⟩
    · rw [if_neg (mt List.isPrefixOf_iff_prefix.mp hbegins)]
      rcases ih with ⟨hnone, hoccurs⟩ | ⟨n, tail, hsome, hoccurs, hleast⟩
      · rw [hnone]
        exact .inl ⟨rfl, forall_not_occursAt_cons hbegins hoccurs⟩
      · rw [hsome]
        refine .inr ⟨n + 1, tail, rfl, hoccurs, fun m hm => ?_⟩
        cases m with
        | zero => exact absurd hm hbegins
        | succ m => exact Nat.succ_le_succ (hleast hm)

/-- A text is cut where the separator last occurs, if it does. -/
lemma cutAtLast?_spec (hne : separator ≠ []) (cs : List Char) :
    (cutAtLast? separator cs = none ∧ ∀ n, ¬OccursAt separator cs n) ∨
      ∃ n tail, cutAtLast? separator cs = some (cs.take n, tail) ∧
        IsGreatest {m | OccursAt separator cs m} n := by
  induction cs with
  | nil => exact .inl ⟨rfl, fun _ => not_occursAt_nil hne⟩
  | cons c cs ih =>
    rw [cutAtLast?]
    rcases ih with ⟨hnone, hoccurs⟩ | ⟨n, tail, hsome, hoccurs, hgreatest⟩
    · rw [hnone]
      by_cases hbegins : separator <+: c :: cs
      · rw [if_pos (List.isPrefixOf_iff_prefix.mpr hbegins)]
        refine .inr ⟨0, _, rfl, hbegins, fun m hm => ?_⟩
        cases m with
        | zero => exact le_rfl
        | succ m => exact absurd hm (hoccurs m)
      · rw [if_neg (mt List.isPrefixOf_iff_prefix.mp hbegins)]
        exact .inl ⟨rfl, forall_not_occursAt_cons hbegins hoccurs⟩
    · rw [hsome]
      refine .inr ⟨n + 1, tail, rfl, hoccurs, fun m hm => ?_⟩
      cases m with
      | zero => exact Nat.zero_le _
      | succ m => exact Nat.succ_le_succ (hgreatest hm)

end Cuts

section Strip

variable {cs ds : List Char} {c : Char}

lemma strip_eq_rdropWhile (cs : List Char) :
    strip cs = (cs.dropWhile isBlank).rdropWhile isBlank := rfl

/-- Only blanks are stripped from the front of a text. -/
lemma exists_eq_append_strip (cs : List Char) :
    ∃ before after, cs = before ++ strip cs ++ after ∧ ∀ c ∈ before, isBlank c := by
  obtain ⟨after, hafter⟩ := List.rdropWhile_prefix isBlank (l := cs.dropWhile isBlank)
  refine ⟨cs.takeWhile isBlank, after, ?_, fun c hc => List.mem_takeWhile_imp hc⟩
  rw [strip_eq_rdropWhile, List.append_assoc, hafter, List.takeWhile_append_dropWhile]

lemma length_strip_le (cs : List Char) : (strip cs).length ≤ cs.length := by
  obtain ⟨before, after, hcs, -⟩ := exists_eq_append_strip cs
  have hlength := congrArg List.length hcs
  rw [List.length_append, List.length_append] at hlength
  omega

lemma strip_append_blank (hc : isBlank c) : strip (cs ++ [c]) = strip cs := by
  rw [strip_eq_rdropWhile, strip_eq_rdropWhile, List.dropWhile_append]
  split
  · rename_i hempty
    rw [List.isEmpty_iff.mp hempty]
    simp [hc]
  · exact List.rdropWhile_concat_pos _ _ _ hc

lemma rdropWhile_append_of_any (h : ∃ c ∈ ds, isBlank c = false) :
    (cs ++ ds).rdropWhile isBlank = cs ++ ds.rdropWhile isBlank := by
  have hne : ds.reverse.dropWhile isBlank ≠ [] := by
    rw [Ne, List.dropWhile_eq_nil_iff]
    intro hall
    obtain ⟨c, hc, hink⟩ := h
    rw [hall c (List.mem_reverse.mpr hc)] at hink
    cases hink
  rw [List.rdropWhile, List.reverse_append, List.dropWhile_append,
    if_neg (by simpa using hne), List.reverse_append, List.reverse_reverse]
  rfl

/-- A text with more than blanks behind it is longer when it is stripped. -/
lemma length_strip_lt (h : ∃ c ∈ ds, isBlank c = false) :
    (strip cs).length < (strip (cs ++ ds)).length := by
  obtain ⟨c, hc, hink⟩ := h
  have hne : ∀ es : List Char, c ∈ es → 0 < (es.rdropWhile isBlank).length := by
    intro es hmem
    rw [List.length_pos_iff, Ne, List.rdropWhile_eq_nil_iff]
    intro hall
    rw [hall c hmem] at hink
    cases hink
  rw [strip_eq_rdropWhile, strip_eq_rdropWhile, List.dropWhile_append]
  split
  · rename_i hempty
    rw [List.isEmpty_iff.mp hempty]
    apply hne
    rw [← List.takeWhile_append_dropWhile (p := isBlank) (l := ds)] at hc
    rcases List.mem_append.mp hc with hc | hc
    · rw [List.mem_takeWhile_imp hc] at hink
      cases hink
    · exact hc
  · rw [rdropWhile_append_of_any ⟨c, hc, hink⟩, List.length_append]
    have hle := (List.rdropWhile_prefix isBlank (l := cs.dropWhile isBlank)).length_le
    have hpos := hne ds hc
    omega

end Strip

/-- Where a text stands also a little further on, the character behind it is one of those before. -/
lemma mem_of_append_eq_append_cons {before text after rest : List Char} {c : Char}
    (hne : before ≠ []) (h : before ++ text ++ after = text ++ c :: rest) : c ∈ before := by
  induction hn : text.length using Nat.strong_induction_on generalizing text with
  | _ n ih =>
    have hbegins : text <+: before ++ text ++ after := h ▸ List.prefix_append _ _
    rw [List.append_assoc] at hbegins
    rcases List.prefix_or_prefix_of_prefix hbegins (List.prefix_append _ _) with
      ⟨more, rfl⟩ | ⟨more, rfl⟩
    · -- The text before is longer, and the character is the next one of it or its first one.
      rw [List.append_assoc, List.append_assoc, List.append_cancel_left_eq] at h
      cases more with
      | nil =>
        obtain ⟨d, text, rfl⟩ := List.exists_cons_of_ne_nil (List.append_nil text ▸ hne)
        obtain ⟨rfl, -⟩ := List.cons.inj h
        simp
      | cons d more =>
        obtain ⟨rfl, -⟩ := List.cons.inj h
        simp
    · rw [List.append_assoc, List.append_assoc, List.append_assoc, List.append_cancel_left_eq,
        ← List.append_assoc] at h
      have hlength : more.length < n := by
        rw [← hn, List.length_append]
        have hpos := List.length_pos_iff.mpr hne
        omega
      exact ih more.length hlength h rfl

/-- The word between a type and its trait in a qualified path, with the blanks around it. -/
def asWord : List Char :=
  [' ', 'a', 's', ' ']

/-- The last `::` of a text stands at an offset, or the last dot of a text without `::`. -/
def IsLastSeparator (cs : List Char) (n : ℕ) : Prop :=
  IsGreatest {m | OccursAt [':', ':'] cs m} n ∨
    (∀ m, ¬OccursAt [':', ':'] cs m) ∧ IsGreatest {m | OccursAt ['.'] cs m} n

/-- What the search for the type of a receiver finds in the text of a path. -/
inductive IsSearchResult (path : List Char) : List Char → Prop
  | self {n : ℕ} (hhead : path.head? = some '<') (hfirst : IsLeast {m | OccursAt asWord path m} n) :
      IsSearchResult path (strip ((path.take n).drop 1))
  | owner {n : ℕ} (hself : path.head? = some '<' → ∀ m, ¬OccursAt asWord path m)
      (hlast : IsLastSeparator path n) : IsSearchResult path (path.take n)
  | whole (hself : path.head? = some '<' → ∀ m, ¬OccursAt asWord path m)
      (hpath : ∀ m, ¬OccursAt [':', ':'] path m) (hdot : ∀ m, ¬OccursAt ['.'] path m) :
      IsSearchResult path path

end Text

open Text (OccursAt IsLastSeparator IsSearchResult)

/-- The type of a receiver is what is found in the text of the path. -/
lemma Holder.isSearchResult_receiverType (h : Holder) :
    IsSearchResult h.path.toList h.receiverType.toList := by
  rw [receiverType, String.toList_ofList]
  generalize h.path.toList = path
  have howner (hself : path.head? = some '<' → ∀ m, ¬OccursAt Text.asWord path m) :
      IsSearchResult path ((((Text.cutAtLast? [':', ':'] path).or
        (Text.cutAtLast? ['.'] path)).map (·.1)).getD path) := by
    rcases Text.cutAtLast?_spec (by simp : [':', ':'] ≠ []) path with
      ⟨hnone, hpath⟩ | ⟨n, tail, hsome, hlast⟩
    · rcases Text.cutAtLast?_spec (by simp : ['.'] ≠ []) path with
        ⟨hnone', hdot⟩ | ⟨n, tail, hsome, hlast⟩
      · rw [hnone, hnone']
        exact .whole hself hpath hdot
      · rw [hnone, hsome]
        exact .owner hself (.inr ⟨hpath, hlast⟩)
    · rw [hsome]
      exact .owner hself (.inl hlast)
  split
  · rename_i hhead
    rcases Text.cutAtFirst?_spec (by decide : Text.asWord ≠ []) path with
      ⟨hnone, hself⟩ | ⟨n, tail, hsome, hfirst⟩
    · rw [Text.asWord] at hnone
      rw [hnone]
      exact howner fun _ => hself
    · rw [Text.asWord] at hsome
      rw [hsome]
      exact .self hhead hfirst
  · rename_i hhead
    exact howner fun h => absurd h hhead

end FieldComposition
