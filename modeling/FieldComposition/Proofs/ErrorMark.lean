import FieldComposition.Proofs.OffsetPosition
import Mathlib.Tactic.Common

/-!
# The mark of a rendered error

An error at a location of a text is rendered as its place, the line behind a gutter, a mark below
the line, and its message. The mark stands below the column of the location
(`Location.exists_mark`). It begins with a caret, which is the first one of the whole rendering
unless the name of the file or the line itself has one.
-/

namespace FieldComposition

namespace Text

lemma toList_pushn (c : Char) (n : Nat) : ("".pushn c n).toList = List.replicate n c := by
  rw [String.pushn_eq_repeat_push]
  induction n with
  | zero => rfl
  | succ n ih => rw [Nat.repeat, String.toList_push, ih, List.replicate_succ']

lemma isDigit_of_mem_toString {n : Int} (hn : 0 ≤ n) {c : Char} (h : c ∈ (toString n).toList) :
    c.isDigit := by
  rw [Int.toString_eq_repr, Int.repr_eq_if, if_pos hn, Nat.toList_repr] at h
  exact Nat.isDigit_of_mem_toDigits (by decide) (by decide) h

/-- The index that the first `c` of a text has in its own line. -/
def indexInLine (c : Char) (text : String) : Nat :=
  ((text.toList.takeWhile (· ≠ c)).reverse.takeWhile (· ≠ '\n')).length

lemma indexInLine_append {c : Char} {before start : String} (after : String)
    (hbefore : c ∉ before.toList) (hstart : c ∉ start.toList) (hline : '\n' ∉ start.toList)
    (hc : c ≠ '\n') :
    indexInLine c (before ++ "\n" ++ start ++ (String.singleton c ++ after)) = start.length := by
  have htake : (before ++ "\n" ++ start ++ (String.singleton c ++ after)).toList.takeWhile (· ≠ c) =
      before.toList ++ ['\n'] ++ start.toList := by
    have hall : ∀ d ∈ before.toList ++ ['\n'] ++ start.toList, decide (d ≠ c) = true := by
      intro d hd
      simp only [List.mem_append, List.mem_singleton] at hd
      rw [decide_eq_true_iff]
      rintro rfl
      rcases hd with (hd | rfl) | hd
      · exact hbefore hd
      · exact hc rfl
      · exact hstart hd
    simp only [String.toList_append, String.toList_singleton, List.singleton_append]
    rw [show "\n".toList = ['\n'] from rfl, List.takeWhile_append_of_pos hall,
      List.takeWhile_cons_of_neg (by simp), List.append_nil]
  have hreverse : ∀ d ∈ start.toList.reverse, decide (d ≠ '\n') = true := by
    intro d hd
    rw [decide_eq_true_iff]
    rintro rfl
    exact hline (List.mem_reverse.mp hd)
  rw [indexInLine, htake, List.reverse_append, List.reverse_append, List.reverse_singleton,
    List.singleton_append, List.takeWhile_append_of_pos hreverse,
    List.takeWhile_cons_of_neg (by simp), List.append_nil, List.length_reverse,
    String.length_toList]

end Text

/-- A rendered error shows a line of its location and marks the column. -/
structure Error.MarksColumn (e : Error) (l : Location) (line mark : String) : Prop where
  render_eq : e.render = l.file ++ ":" ++ l.position.render ++ "\n" ++ (l.gutter ++ line) ++ "\n" ++
    mark ++ "\n" ++ e.message
  newline_not_mem_line : '\n' ∉ (l.gutter ++ line).toList
  newline_not_mem_mark : '\n' ∉ mark.toList
  caret_mem_mark : '^' ∈ mark.toList
  idxOf_mark : mark.toList.idxOf '^' = l.gutter.length + (l.position.column - 1).toNat
  /-- The character of the line at the column stands above the first caret of the mark. -/
  getElem_line : (l.gutter ++ line).toList[mark.toList.idxOf '^']? =
    line.toList[(l.position.column - 1).toNat]?
  /-- Unless the name of the file or the line has a caret, that of the mark is the first of all. -/
  indexInLine_render : '^' ∉ l.file.toList → '^' ∉ line.toList →
    Text.indexInLine '^' e.render = l.gutter.length + (l.position.column - 1).toNat

namespace Location

/-- What stands before the mark of a location in its line. -/
def blanks (l : Location) : String :=
  "".pushn ' ' (l.gutter.length + (l.position.column - 1).toNat)

/-- The line below the line of a location. -/
def mark (l : Location) : String :=
  l.blanks ++ "^^^"

lemma length_blanks (l : Location) :
    l.blanks.length = l.gutter.length + (l.position.column - 1).toNat := by
  rw [← String.length_toList, blanks, Text.toList_pushn, List.length_replicate]

lemma idxOf_mark (l : Location) :
    l.mark.toList.idxOf '^' = l.gutter.length + (l.position.column - 1).toNat := by
  rw [mark, blanks, String.toList_append, Text.toList_pushn,
    List.idxOf_append_of_notMem (by simp)]
  simp

lemma renderSnippet_eq {l : Location} (h : 1 ≤ l.position.column) (line : String) :
    l.renderSnippet line = l.gutter ++ line ++ "\n" ++ l.mark := by
  have hindentation : (l.gutter.length + l.position.column - 1).toNat =
      l.gutter.length + (l.position.column - 1).toNat := by omega
  simp only [renderSnippet, mark, blanks, hindentation, String.append_assoc]

/-- A gutter is made of digits, blanks and a bar. -/
lemma not_mem_gutter {l : Location} (hline : 0 ≤ l.position.line) {c : Char}
    (hdigit : c.isDigit = false) (hblank : c ≠ ' ') (hbar : c ≠ '|') : c ∉ l.gutter.toList := by
  simp only [gutter, String.toList_append, List.mem_append, Text.toList_pushn, not_or]
  refine ⟨⟨fun h => hblank (List.eq_of_mem_replicate h), fun h => ?_⟩, ?_⟩
  · rw [Text.isDigit_of_mem_toString hline h] at hdigit
    exact absurd hdigit (by decide)
  · simp [hblank, hbar]

lemma caret_not_mem_render {p : Position} (hline : 0 ≤ p.line) (hcolumn : 0 ≤ p.column) :
    '^' ∉ p.render.toList := by
  simp only [Position.render, String.toList_append, List.mem_append, not_or]
  refine ⟨⟨fun h => ?_, by decide⟩, fun h => ?_⟩
  · exact absurd (Text.isDigit_of_mem_toString hline h) (by decide)
  · exact absurd (Text.isDigit_of_mem_toString hcolumn h) (by decide)

/-- An error at a location that points into a text marks the column of the location below its line,
unless the line is empty. -/
theorem exists_mark {l : Location} {file text : String} (h : l.PointsInto file text) {e : Error}
    (he : e.location? = some l) {line : String} (hsnippet : l.snippet = some line)
    (hline : line ≠ "") : ∃ mark, e.MarksColumn l line mark := by
  obtain ⟨cs, hcs, hshown, hcolumn, -⟩ := h.snippet_eq
  obtain rfl : line = String.ofList cs := by
    rw [hsnippet] at hshown
    exact Option.some.inj hshown
  have hone := h.one_le_line
  have hnewline : '\n' ∉ cs := Text.newline_not_mem_of_getElem? hcs
  have hrender : e.render = l.file ++ ":" ++ l.position.render ++ "\n" ++
      (l.gutter ++ String.ofList cs) ++ "\n" ++ l.mark ++ "\n" ++ e.message := by
    rw [Error.render, he]
    simp only [render, hsnippet, if_neg hline, renderSnippet_eq hcolumn, String.append_assoc]
  refine ⟨l.mark, hrender, ?_, ?_, ?_, l.idxOf_mark, ?_, fun hfile hcaret => ?_⟩
  · rw [String.toList_append, List.mem_append, not_or, String.toList_ofList]
    exact ⟨not_mem_gutter (by omega) (by decide) (by decide) (by decide), hnewline⟩
  · simp [mark, blanks, Text.toList_pushn]
  · simp [mark]
  · have hlength : l.gutter.toList.length ≤ l.gutter.length + (l.position.column - 1).toNat := by
      rw [String.length_toList]
      exact Nat.le_add_right ..
    rw [idxOf_mark, String.toList_append, List.getElem?_append_right hlength, String.length_toList,
      Nat.add_sub_cancel_left]
  · have hbefore : '^' ∉ (l.file ++ ":" ++ l.position.render ++ "\n" ++
        (l.gutter ++ String.ofList cs)).toList := by
      have hposition : '^' ∉ l.position.render.toList := caret_not_mem_render (by omega) (by omega)
      have hgutter : '^' ∉ l.gutter.toList :=
        not_mem_gutter (by omega) (by decide) (by decide) (by decide)
      simp only [String.toList_append, List.mem_append, not_or]
      exact ⟨⟨⟨⟨hfile, by decide⟩, hposition⟩, by decide⟩, hgutter, hcaret⟩
    have hblank : ∀ c ≠ ' ', c ∉ l.blanks.toList := by
      intro c hc h
      rw [blanks, Text.toList_pushn] at h
      exact hc (List.eq_of_mem_replicate h)
    have hindex := Text.indexInLine_append ("^^" ++ "\n" ++ e.message) hbefore
      (hblank '^' (by decide)) (hblank '\n' (by decide)) (by decide)
    rw [show l.blanks.length = _ from l.length_blanks] at hindex
    rw [← hindex, hrender]
    congr 1
    simp only [mark, String.append_assoc]
    rfl

end Location

end FieldComposition
