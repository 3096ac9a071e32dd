import FieldComposition.Proofs.ErrorMark
import FieldComposition.Proofs.HangingIndent
import Mathlib.Data.List.Forall2
import Mathlib.Tactic.Ring

/-!
# Texts laid out with two tabs

A text that is laid out with two tabs gives two texts that differ in the margins of their lines
only (`Text.Relaid`). A margin is a number of tabs, the same number in both texts, and it stands
before a line that holds more than blanks. The relation is kept when texts are put together and
when they are indented again; line by line it says that only the spaces differ that a line starts
with (`Text.Relaid.lines`).
-/

namespace FieldComposition

namespace Text

/-- One text laid out with a tab of `m` spaces and with a tab of `n` spaces. Its first line is the
same in both; the other ones stand behind some number of tabs. -/
inductive Relaid (m n : Nat) : List Char → List Char → Prop where
  | nil : Relaid m n [] []
  | cons (c : Char) {s t : List Char} : Relaid m n s t → Relaid m n (c :: s) (c :: t)
  | line {c : Char} (depth : Nat) {s t : List Char} : isLineEnd c → firstLineIsBlank s = false →
      Relaid m n s t →
      Relaid m n (c :: (List.replicate (depth * m) ' ' ++ s))
        (c :: (List.replicate (depth * n) ' ' ++ t))

variable {c : Char} {k m n : Nat} {s t more : List Char}

lemma isLineEnd_of_mem_spaces (h : c ∈ List.replicate k ' ') : isLineEnd c = false := by
  rw [List.eq_of_mem_replicate h]
  decide

lemma firstLineIsBlank_spaces_append :
    firstLineIsBlank (List.replicate k ' ' ++ s) = firstLineIsBlank s := by
  have hblank : (List.replicate k ' ').all isBlank = true := by
    rw [List.all_eq_true]
    intro c hc
    rw [List.eq_of_mem_replicate hc]
    decide
  rw [firstLineIsBlank_margin_append fun c => isLineEnd_of_mem_spaces, hblank, Bool.true_and]

lemma firstLineIsBlank_append_eq_false (h : firstLineIsBlank s = false) :
    firstLineIsBlank (s ++ more) = false := by
  induction s with
  | nil => exact absurd h (by decide)
  | cons c s ih =>
    by_cases hend : isLineEnd c
    · rw [firstLineIsBlank_of_isLineEnd hend] at h
      exact absurd h (by simp)
    have hend : isLineEnd c = false := by simpa using hend
    rw [firstLineIsBlank_cons hend, Bool.and_eq_false_iff] at h
    rw [List.cons_append, firstLineIsBlank_cons hend, Bool.and_eq_false_iff]
    exact h.imp_right ih

/-- In front of a line with ink a line end is never the first half of another one. -/
lemma endsLine_of_not_blank (hend : isLineEnd c) (h : firstLineIsBlank s = false) :
    endsLine c s := by
  have hhead : s.head? ≠ some '\n' := by
    intro hhead
    obtain ⟨rest, rfl⟩ := List.head?_eq_some_iff.mp hhead
    rw [firstLineIsBlank_of_isLineEnd (by decide)] at h
    exact absurd h (by simp)
  simp [endsLine, hend, hhead]

lemma endsLine_newline : endsLine '\n' s := by
  simp [endsLine, isLineEnd]

namespace Relaid

@[refl]
lemma refl (s : List Char) : Relaid m n s s := by
  induction s with
  | nil => exact .nil
  | cons c s ih => exact ih.cons c

lemma head?_eq (h : Relaid m n s t) : s.head? = t.head? := by
  cases h <;> rfl

lemma endsLine_eq (h : Relaid m n s t) : endsLine c s = endsLine c t := by
  rw [endsLine, h.head?_eq, endsLine]

lemma firstLineIsBlank_eq (h : Relaid m n s t) : firstLineIsBlank s = firstLineIsBlank t := by
  induction h with
  | nil => rfl
  | cons c _ ih =>
    by_cases hend : isLineEnd c
    · rw [firstLineIsBlank_of_isLineEnd hend, firstLineIsBlank_of_isLineEnd hend]
    have hend : isLineEnd c = false := by simpa using hend
    rw [firstLineIsBlank_cons hend, firstLineIsBlank_cons hend, ih]
  | line depth hend =>
    rw [firstLineIsBlank_of_isLineEnd hend, firstLineIsBlank_of_isLineEnd hend]

lemma append {s' t' : List Char} (h : Relaid m n s t) (h' : Relaid m n s' t') :
    Relaid m n (s ++ s') (t ++ t') := by
  induction h with
  | nil => exact h'
  | cons c _ ih => exact ih.cons c
  | line depth hend hblank _ ih =>
    rw [List.cons_append, List.cons_append, List.append_assoc, List.append_assoc]
    exact ih.line depth hend (firstLineIsBlank_append_eq_false hblank)

/-- Behind one more tab, a text is laid out one tab deeper. -/
lemma hang (h : Relaid m n s t) :
    Relaid m n (hang (List.replicate m ' ') s) (hang (List.replicate n ' ') t) := by
  induction h with
  | nil => exact .nil
  | @cons c s t h ih =>
    rw [Text.hang, Text.hang, ← h.endsLine_eq]
    by_cases hends : endsLine c s
    case neg =>
      rw [if_neg hends, if_neg hends]
      exact ih.cons c
    rw [if_pos hends, if_pos hends]
    by_cases hblank : firstLineIsBlank s
    · rw [marginBefore_of_blank hblank, marginBefore_of_blank (h.firstLineIsBlank_eq ▸ hblank)]
      exact ih.cons c
    · have hend : isLineEnd c := (Bool.and_eq_true_iff.mp hends).1
      have hhang : firstLineIsBlank (Text.hang (List.replicate m ' ') s) = false := by
        rw [firstLineIsBlank_hang]
        simpa using hblank
      rw [marginBefore_of_not_blank hblank,
        marginBefore_of_not_blank (h.firstLineIsBlank_eq ▸ hblank)]
      simpa using ih.line 1 hend hhang
  | @line c depth s t hend hblank h ih =>
    -- The margin that is there already belongs to a line with ink, so it gets one tab more.
    have hdeeper : ∀ {k : Nat} {u : List Char}, firstLineIsBlank u = false →
        Text.hang (List.replicate k ' ') (c :: (List.replicate (depth * k) ' ' ++ u)) =
          c :: (List.replicate ((depth + 1) * k) ' ' ++ Text.hang (List.replicate k ' ') u) := by
      intro k u hu
      have hends := endsLine_margin_append (fun d => isLineEnd_of_mem_spaces (k := depth * k))
        (endsLine_of_not_blank hend hu)
      have hink : ¬firstLineIsBlank (List.replicate (depth * k) ' ' ++ u) := by
        rw [firstLineIsBlank_spaces_append, hu]
        simp
      rw [Text.hang, if_pos hends, marginBefore_of_not_blank hink,
        hang_margin_append fun d => isLineEnd_of_mem_spaces, ← List.append_assoc,
        List.replicate_append_replicate, Nat.add_comm, Nat.succ_mul]
    rw [hdeeper hblank, hdeeper (h.firstLineIsBlank_eq ▸ hblank)]
    exact ih.line (depth + 1) hend (firstLineIsBlank_hang.trans hblank)

lemma indentLines (h : Relaid m n ('\n' :: s) ('\n' :: t)) :
    Relaid m n ('\n' :: indentLines (List.replicate m ' ') s)
      ('\n' :: indentLines (List.replicate n ' ') t) := by
  have hhang := h.hang
  rwa [Text.hang, Text.hang, if_pos endsLine_newline, if_pos endsLine_newline, ← indentLines_eq,
    ← indentLines_eq] at hhang

end Relaid

/-! ### Line by line -/

/-- The number of spaces that a line starts with. -/
def leadingSpaces (line : List Char) : Nat :=
  (line.takeWhile (· == ' ')).length

/-- A line without the spaces that it starts with. -/
def withoutMargin (line : List Char) : List Char :=
  line.dropWhile (· == ' ')

/-- One line behind the same number of tabs of `m` spaces and of `n` spaces. -/
def SameBehindTabs (m n : Nat) (line line' : List Char) : Prop :=
  ∃ depth content, line = List.replicate (depth * m) ' ' ++ content ∧
    line' = List.replicate (depth * n) ' ' ++ content

lemma leadingSpaces_spaces_append :
    leadingSpaces (List.replicate k ' ' ++ s) = k + leadingSpaces s := by
  rw [leadingSpaces, List.takeWhile_append_of_pos, List.length_append, List.length_replicate,
    leadingSpaces]
  intro c hc
  rw [List.eq_of_mem_replicate hc]
  rfl

lemma withoutMargin_spaces_append :
    withoutMargin (List.replicate k ' ' ++ s) = withoutMargin s := by
  rw [withoutMargin, List.dropWhile_append_of_pos, withoutMargin]
  intro c hc
  rw [List.eq_of_mem_replicate hc]
  rfl

lemma SameBehindTabs.refl (m n : Nat) (line : List Char) : SameBehindTabs m n line line :=
  ⟨0, line, by simp, by simp⟩

lemma SameBehindTabs.withoutMargin_eq {line line' : List Char}
    (h : SameBehindTabs m n line line') : withoutMargin line = withoutMargin line' := by
  obtain ⟨depth, content, rfl, rfl⟩ := h
  rw [withoutMargin_spaces_append, withoutMargin_spaces_append]

lemma SameBehindTabs.exists_leadingSpaces_sub {line line' : List Char}
    (h : SameBehindTabs m n line line') :
    ∃ depth : Nat, (leadingSpaces line : ℤ) - leadingSpaces line' = depth * ((m : ℤ) - n) := by
  obtain ⟨depth, content, rfl, rfl⟩ := h
  refine ⟨depth, ?_⟩
  rw [leadingSpaces_spaces_append, leadingSpaces_spaces_append]
  push_cast
  ring

/-- Puts a character in front of the first line. -/
def consLine (c : Char) : List (List Char) → List (List Char)
  | [] => [[c]]
  | line :: more => (c :: line) :: more

lemma lines_cons :
    lines (c :: s) = if endsLine c s then [c] :: lines s else consLine c (lines s) := by
  by_cases hend : isLineEnd c
  case neg =>
    have hend : isLineEnd c = false := by simpa using hend
    have hcr : c ≠ '\r' := by
      rintro rfl
      exact absurd hend (by decide)
    rw [endsLine_eq_false hend, if_neg (by simp), lines.eq_3 c s (by simp [hcr]), hend,
      if_neg (by simp)]
    cases lines s <;> rfl
  by_cases hends : endsLine c s
  · have hpair : ∀ rest, c = '\r' → s = '\n' :: rest → False := by
      rintro rest rfl rfl
      exact absurd hends (by simp [endsLine])
    rw [if_pos hends, lines.eq_3 c s hpair, if_pos hend]
  · obtain ⟨rfl, hhead⟩ : c = '\r' ∧ s.head? = some '\n' := by simpa [endsLine, hend] using hends
    obtain ⟨rest, rfl⟩ := List.head?_eq_some_iff.mp hhead
    have hnewline : lines ('\n' :: rest) = ['\n'] :: lines rest := by
      rw [lines.eq_3 _ _ (by simp), if_pos (by decide)]
    rw [if_neg hends, lines, hnewline, consLine]

lemma exists_cons_of_lines (h : firstLineIsBlank s = false) :
    ∃ first rest, lines s = first :: rest := by
  refine List.exists_cons_of_ne_nil fun hlines => ?_
  rw [← flatten_lines s, hlines] at h
  exact absurd h (by decide)

lemma lines_spaces_append {first : List Char} {rest : List (List Char)}
    (h : lines s = first :: rest) :
    lines (List.replicate k ' ' ++ s) = (List.replicate k ' ' ++ first) :: rest := by
  induction k with
  | zero => exact h
  | succ k ih =>
    rw [List.replicate_succ, List.cons_append, lines_cons, endsLine_eq_false (by decide),
      if_neg (by simp), ih, consLine, List.cons_append]

/-- The two texts have the same lines up to their margins, and the first one has no margin. -/
lemma Relaid.lines (h : Relaid m n s t) :
    (lines s).head? = (lines t).head? ∧
      List.Forall₂ (SameBehindTabs m n) (lines s) (lines t) := by
  induction h with
  | nil => exact ⟨rfl, .nil⟩
  | @cons c s t h ih =>
    obtain ⟨hhead, hlines⟩ := ih
    rw [lines_cons, lines_cons, ← h.endsLine_eq]
    by_cases hends : endsLine c s
    · rw [if_pos hends, if_pos hends]
      exact ⟨rfl, .cons (.refl m n [c]) hlines⟩
    rw [if_neg hends, if_neg hends]
    -- The character goes on the first lines, which are equal.
    generalize Text.lines s = linesBefore at hhead hlines
    generalize Text.lines t = linesAfter at hhead hlines
    cases hlines with
    | nil => exact ⟨rfl, .cons (.refl m n [c]) .nil⟩
    | @cons first first' rest rest' _ hrest =>
      obtain rfl : first = first' := Option.some.inj hhead
      exact ⟨rfl, .cons (.refl m n (c :: first)) hrest⟩
  | @line c depth s t hend hblank h ih =>
    obtain ⟨hhead, hlines⟩ := ih
    obtain ⟨first, rest, hs⟩ := exists_cons_of_lines hblank
    obtain ⟨first', rest', ht⟩ := exists_cons_of_lines (h.firstLineIsBlank_eq ▸ hblank)
    rw [hs, ht] at hhead hlines
    obtain rfl : first = first' := Option.some.inj hhead
    have hends : ∀ {k : Nat} {u : List Char}, firstLineIsBlank u = false →
        endsLine c (List.replicate k ' ' ++ u) := fun hu =>
      endsLine_margin_append (fun d => isLineEnd_of_mem_spaces) (endsLine_of_not_blank hend hu)
    rw [lines_cons, lines_cons, if_pos (hends hblank),
      if_pos (hends (h.firstLineIsBlank_eq ▸ hblank)), lines_spaces_append hs,
      lines_spaces_append ht]
    refine ⟨rfl, .cons (.refl m n [c]) (.cons ⟨depth, first, rfl, rfl⟩ ?_)⟩
    exact (List.forall₂_cons.mp hlines).2

end Text

end FieldComposition
