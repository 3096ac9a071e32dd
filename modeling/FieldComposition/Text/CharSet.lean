/-!
# Sets of characters

A `CharSet` is a table of code point ranges in increasing order. The character classes of
Unicode 14 that decide where a word ends or how a character is quoted are such tables.
-/

namespace FieldComposition.Text

/-- A set of characters as inclusive ranges of code points, in increasing order. -/
structure CharSet where
  ranges : List (Nat × Nat)

namespace CharSet

/-- Whether a code point lies in one of the ranges; the first range above it ends the search. -/
def covers : List (Nat × Nat) → Nat → Bool
  | [], _ => false
  | (first, last) :: rest, code => first ≤ code && (code ≤ last || covers rest code)

def contains (set : CharSet) (c : Char) : Bool :=
  covers set.ranges c.toNat

theorem exists_of_covers {ranges : List (Nat × Nat)} {code : Nat} (h : covers ranges code = true) :
    ∃ range ∈ ranges, range.1 ≤ code ∧ code ≤ range.2 := by
  induction ranges with
  | nil => simp [covers] at h
  | cons range rest ih =>
    obtain ⟨first, last⟩ := range
    simp only [covers, Bool.and_eq_true, Bool.or_eq_true, decide_eq_true_eq] at h
    obtain ⟨hfirst, hlast | hrest⟩ := h
    · exact ⟨(first, last), by simp, hfirst, hlast⟩
    · obtain ⟨found, hmem, hbounds⟩ := ih hrest
      exact ⟨found, by simp [hmem], hbounds⟩

end CharSet

end FieldComposition.Text
