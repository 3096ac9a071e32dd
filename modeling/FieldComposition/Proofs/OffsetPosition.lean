import FieldComposition.Error
import Mathlib.Data.List.DropRight
import Mathlib.Tactic.Common

/-!
# Positions of offsets

`Position.ofOffset` counts the position of an offset anew from the text before it. It is what
`Position.advance` reaches by reading that text, and the line it names is a line of the text that
holds the column (`getElem?_newlineParts`).
-/

namespace FieldComposition

namespace Text

/-- The offset just after the last newline of a text, or zero when there is none. -/
def lineStart (cs : List Char) : Nat :=
  cs.length - (cs.rtakeWhile (· != '\n')).length

lemma length_rtakeWhile_add_lineStart (cs : List Char) :
    (cs.rtakeWhile (· != '\n')).length + lineStart cs = cs.length := by
  have h := (List.rtakeWhile_suffix (· != '\n') cs).length_le
  unfold lineStart
  omega

lemma rtakeWhile_cons_newline (cs : List Char) :
    ('\n' :: cs).rtakeWhile (· != '\n') = cs.rtakeWhile (· != '\n') := by
  induction cs using List.reverseRecOn with
  | nil => rfl
  | append_singleton cs c ih =>
    rw [← List.cons_append, List.rtakeWhile_concat, List.rtakeWhile_concat, ih]

lemma rtakeWhile_cons_of_newline_mem (c : Char) {cs : List Char} (h : '\n' ∈ cs) :
    (c :: cs).rtakeWhile (· != '\n') = cs.rtakeWhile (· != '\n') := by
  induction cs using List.reverseRecOn with
  | nil => simp at h
  | append_singleton cs d ih =>
    rw [← List.cons_append, List.rtakeWhile_concat, List.rtakeWhile_concat]
    by_cases hd : d = '\n'
    · simp [hd]
    · have hmem : '\n' ∈ cs := by
        rcases List.mem_append.mp h with hcs | hlast
        · exact hcs
        · exact absurd (List.mem_singleton.mp hlast).symm hd
      rw [ih hmem]

lemma newlineParts_ne_nil (cs : List Char) : newlineParts cs ≠ [] := by
  cases cs with
  | nil => simp [newlineParts]
  | cons c rest =>
    rw [newlineParts]
    split
    · simp
    · split <;> simp

lemma length_newlineParts (cs : List Char) :
    (newlineParts cs).length = cs.count '\n' + 1 := by
  induction cs with
  | nil => rfl
  | cons c rest ih =>
    rw [newlineParts]
    by_cases hc : c = '\n'
    · simp [hc, ih]
    · rw [if_neg hc, List.count_cons_of_ne hc, ← ih]
      split
      · rename_i hparts
        exact absurd hparts (newlineParts_ne_nil rest)
      · rename_i hparts
        simp [hparts]

lemma newlineParts_cons_of_ne {c : Char} (hc : c ≠ '\n') (rest : List Char) :
    ∃ part parts, newlineParts rest = part :: parts ∧
      newlineParts (c :: rest) = (c :: part) :: parts := by
  obtain ⟨part, parts, hparts⟩ := List.exists_cons_of_ne_nil (newlineParts_ne_nil rest)
  refine ⟨part, parts, hparts, ?_⟩
  rw [newlineParts, if_neg hc, hparts]

lemma head?_newlineParts (cs : List Char) :
    (newlineParts cs)[0]? = some (cs.takeWhile (· != '\n')) := by
  induction cs with
  | nil => rfl
  | cons c rest ih =>
    by_cases hc : c = '\n'
    · simp [newlineParts, hc]
    · obtain ⟨part, parts, hrest, hcons⟩ := newlineParts_cons_of_ne hc rest
      rw [hrest, List.getElem?_cons_zero, Option.some_inj] at ih
      rw [hcons, List.getElem?_cons_zero, ih]
      simp [hc]

/-- The line around a place of a text: what precedes the place on it, and what follows. -/
theorem getElem?_newlineParts (before after : List Char) :
    (newlineParts (before ++ after))[before.count '\n']? =
      some (before.rtakeWhile (· != '\n') ++ after.takeWhile (· != '\n')) := by
  induction before with
  | nil => simpa using head?_newlineParts after
  | cons c before ih =>
    rw [List.cons_append]
    by_cases hc : c = '\n'
    · subst hc
      rw [newlineParts, if_pos rfl, List.count_cons_self, List.getElem?_cons_succ, ih,
        rtakeWhile_cons_newline]
    · obtain ⟨part, parts, hrest, hcons⟩ := newlineParts_cons_of_ne hc (before ++ after)
      rw [hrest] at ih
      rw [hcons, List.count_cons_of_ne hc]
      by_cases hmem : '\n' ∈ before
      · have hpos : 0 < before.count '\n' := List.count_pos_iff.mpr hmem
        obtain ⟨n, hn⟩ := Nat.exists_eq_add_of_lt hpos
        rw [Nat.zero_add] at hn
        rw [hn, List.getElem?_cons_succ] at ih ⊢
        rw [ih, rtakeWhile_cons_of_newline_mem c hmem]
      · have hbefore : before.rtakeWhile (· != '\n') = before :=
          List.rtakeWhile_eq_self_iff.mpr fun x hx => by
            simpa using fun h : x = '\n' => hmem (h ▸ hx)
        have hself : (c :: before).rtakeWhile (· != '\n') = c :: before := by
          refine List.rtakeWhile_eq_self_iff.mpr fun x hx => ?_
          rcases List.mem_cons.mp hx with rfl | hx
          · simpa using hc
          · simpa using fun h : x = '\n' => hmem (h ▸ hx)
        rw [List.count_eq_zero.mpr hmem, List.getElem?_cons_zero, Option.some_inj] at ih
        rw [List.count_eq_zero.mpr hmem, List.getElem?_cons_zero, ih, hbefore, hself]
        rfl

lemma newline_not_mem_of_getElem? {cs part : List Char} {n : Nat}
    (h : (newlineParts cs)[n]? = some part) : '\n' ∉ part := by
  induction cs generalizing n part with
  | nil =>
    have hpart : part = [] := by
      cases n with
      | zero => simpa [newlineParts] using h.symm
      | succ n => simp [newlineParts] at h
    simp [hpart]
  | cons c rest ih =>
    by_cases hc : c = '\n'
    · rw [newlineParts, if_pos hc] at h
      cases n with
      | zero => simp_all
      | succ n => exact ih (by simpa using h)
    · obtain ⟨first, parts, hrest, hcons⟩ := newlineParts_cons_of_ne hc rest
      rw [hcons] at h
      cases n with
      | zero =>
        obtain rfl : c :: first = part := by simpa using h
        have hfirst : '\n' ∉ first := ih (n := 0) (by simp [hrest])
        simp [hfirst, Ne.symm hc]
      | succ n => exact ih (n := n + 1) (by simpa [hrest] using h)

end Text

namespace Position

/-- The position of an offset of a text: its line is one more than the number of newlines before
it, its column one more than its distance from the last of them. -/
def ofOffset (text : List Char) (offset : Nat) : Position :=
  ⟨1 + (text.take offset).count '\n', offset - Text.lineStart (text.take offset) + 1⟩

lemma advance_start (cs : List Char) :
    start.advance cs = ⟨1 + cs.count '\n', (cs.rtakeWhile (· != '\n')).length + 1⟩ := by
  induction cs using List.reverseRecOn with
  | nil => rfl
  | append_singleton cs c ih =>
    rw [advance_append, ih, List.rtakeWhile_concat]
    by_cases hc : c = '\n'
    · simp only [hc, step, advance_cons, advance_nil, if_pos, List.count_append,
        List.count_singleton_self, mk.injEq]
      refine ⟨by omega, by simp⟩
    · simp [hc, step]

lemma line_advance (p : Position) (cs : List Char) :
    (p.advance cs).line = p.line + cs.count '\n' := by
  induction cs generalizing p with
  | nil => simp
  | cons c cs ih =>
    rw [advance_cons, ih, step, List.count_cons]
    by_cases hc : c = '\n'
    · rw [if_pos hc, if_pos (by simp [hc])]
      push_cast
      omega
    · rw [if_neg hc, if_neg (by simp [hc])]
      rfl

/-- On one line the column moves on with the characters. -/
lemma advance_of_not_mem {cs : List Char} (h : '\n' ∉ cs) (q : Position) :
    q.advance cs = ⟨q.line, q.column + cs.length⟩ := by
  induction cs generalizing q with
  | nil => simp
  | cons c cs ih =>
    rw [List.mem_cons, not_or] at h
    rw [advance_cons, ih h.2, step, if_neg (Ne.symm h.1), List.length_cons]
    push_cast
    rw [Int.add_assoc, Int.add_comm 1]

/-- Reading a text from its start leads to the position of the offset behind it. -/
theorem advance_start_eq_ofOffset (before after : List Char) :
    start.advance before = ofOffset (before ++ after) before.length := by
  have h := Text.length_rtakeWhile_add_lineStart before
  rw [advance_start, ofOffset, List.take_left']
  · congr 1
    omega
  · rfl

/-- The position of the next offset is one step on, over the character between them. -/
lemma ofOffset_succ {text rest : List Char} {offset : Nat} {c : Char}
    (h : text.drop offset = c :: rest) :
    ofOffset text (offset + 1) = (ofOffset text offset).step c := by
  have hlt : offset < text.length := List.length_lt_of_drop_ne_nil (by simp [h])
  have hlength : (text.take offset).length = offset := List.length_take_of_le hlt.le
  have htext : text = text.take offset ++ c :: rest := by rw [← h, List.take_append_drop]
  have hbefore := advance_start_eq_ofOffset (text.take offset) (c :: rest)
  have hafter := advance_start_eq_ofOffset (text.take offset ++ [c]) rest
  rw [← htext, hlength] at hbefore
  rw [List.append_assoc, List.singleton_append, ← htext, List.length_append, hlength,
    advance_append, hbefore] at hafter
  exact hafter.symm

/-- The position of a later offset is reached over the characters between them. -/
lemma ofOffset_add {text taken rest : List Char} {offset : Nat}
    (h : text.drop offset = taken ++ rest) :
    ofOffset text (offset + taken.length) = (ofOffset text offset).advance taken := by
  induction taken generalizing offset with
  | nil => rfl
  | cons c taken ih =>
    have hrest : text.drop (offset + 1) = taken ++ rest := by
      rw [← List.drop_drop, h]
      rfl
    rw [advance_cons, ← ofOffset_succ h, ← ih hrest, List.length_cons, Nat.add_assoc,
      Nat.add_comm 1]

lemma advance_ne {cs : List Char} (hne : cs ≠ []) (p : Position) : p.advance cs ≠ p := by
  intro heq
  by_cases hmem : '\n' ∈ cs
  · have hline := line_advance p cs
    have hpos : 0 < cs.count '\n' := List.count_pos_iff.mpr hmem
    rw [heq] at hline
    omega
  · have hcolumn := congrArg Position.column (advance_of_not_mem hmem p)
    have hpos : 0 < cs.length := List.length_pos_iff.mpr hne
    rw [heq] at hcolumn
    dsimp only at hcolumn
    omega

/-- Different offsets of a text have different positions. -/
lemma ofOffset_ne {text : List Char} {i j : Nat} (hij : i < j) (hj : j ≤ text.length) :
    ofOffset text i ≠ ofOffset text j := by
  have hsplit : text.drop i = (text.drop i).take (j - i) ++ (text.drop i).drop (j - i) :=
    (List.take_append_drop ..).symm
  have hlength : ((text.drop i).take (j - i)).length = j - i := by
    rw [List.length_take, List.length_drop]
    omega
  have hadd := ofOffset_add hsplit
  have hne : (text.drop i).take (j - i) ≠ [] := by
    rw [← List.length_pos_iff, hlength]
    omega
  rw [hlength, show i + (j - i) = j by omega] at hadd
  rw [hadd]
  exact (advance_ne hne _).symm

end Position

namespace Location

/-- A location that points into a text: its line is one of the text and is shown, and its column
is that of a character of the line or of its end. -/
structure PointsInto (l : Location) (file text : String) : Prop where
  file_eq : l.file = file
  one_le_line : 1 ≤ l.position.line
  line_le : l.position.line ≤ (Text.newlineParts text.toList).length
  snippet_eq : ∃ line, (Text.newlineParts text.toList)[(l.position.line - 1).toNat]? = some line ∧
    l.snippet = some (String.ofList line) ∧
    1 ≤ l.position.column ∧ l.position.column ≤ line.length + 1

/-- The location of any offset of a text points into the text. -/
theorem pointsInto_ofOffset (file text : String) {offset : Nat} (h : offset ≤ text.toList.length) :
    (inText file text (.ofOffset text.toList offset)).PointsInto file text := by
  obtain ⟨before, after, hsplit, rfl⟩ :
      ∃ before after, text.toList = before ++ after ∧ before.length = offset :=
    ⟨text.toList.take offset, text.toList.drop offset, (List.take_append_drop ..).symm,
      List.length_take_of_le h⟩
  have hposition : Position.ofOffset text.toList before.length =
      ⟨1 + before.count '\n', (before.rtakeWhile (· != '\n')).length + 1⟩ := by
    rw [hsplit, ← Position.advance_start_eq_ofOffset, Position.advance_start]
  have hpart := Text.getElem?_newlineParts before after
  have hindex : ((1 : Int) + before.count '\n' - 1).toNat = before.count '\n' := by omega
  have hcount : (Text.newlineParts text.toList).length =
      before.count '\n' + after.count '\n' + 1 := by
    rw [Text.length_newlineParts, hsplit, List.count_append]
  rw [hposition]
  refine ⟨rfl, ?_, ?_, before.rtakeWhile (· != '\n') ++ after.takeWhile (· != '\n'),
    ?_, ?_, ?_, ?_⟩
  · simp only [inText]
    omega
  · simp only [inText, hcount]
    omega
  · simp only [inText, hindex]
    rw [hsplit, hpart]
  · simp only [inText, Text.sourceLine?, hindex]
    rw [if_pos (by omega), hsplit, hpart, Option.map_some]
  · simp only [inText]
    omega
  · simp only [inText, List.length_append]
    omega

end Location

end FieldComposition
