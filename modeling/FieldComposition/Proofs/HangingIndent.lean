import FieldComposition.Emission.Code
import FieldComposition.Proofs.Spelling
import Mathlib.Data.List.Infix

/-!
# Hanging indents

To indent a text is to put a margin before its first line and to let its other lines hang behind
the margin (`indentLines_eq`). A part of the text that ends in no blank hangs in the same way
(`hang_infix`), so a piece of code that is laid out at some depth is found in the code with its
later lines behind that many tabs (`Code.exists_hang_infix_render`).
-/

namespace FieldComposition

namespace Text

/-- Whether a character ends a line; a carriage return before a newline does not. -/
def endsLine (c : Char) (rest : List Char) : Bool :=
  isLineEnd c && !(c == '\r' && rest.head? == some '\n')

def firstLineIsBlank (cs : List Char) : Bool :=
  (cs.takeWhile fun c => !isLineEnd c).all isBlank

/-- The margin before the first line of a text; a blank line has none. -/
def marginBefore (margin cs : List Char) : List Char :=
  if firstLineIsBlank cs then [] else margin

/-- A text with a margin before each of its lines but the first. -/
def hang (margin : List Char) : List Char → List Char
  | [] => []
  | c :: rest =>
    c :: ((if endsLine c rest then marginBefore margin rest else []) ++ hang margin rest)

variable {c : Char} {margin cs rest : List Char}

lemma isBlank_of_isLineEnd (h : isLineEnd c) : isBlank c := by
  have hends : ['\n', '\r', '\x0b', '\x0c', '\x1c', '\x1d', '\x1e', '\u0085', '\u2028',
      '\u2029'].all isBlank := by decide
  refine List.all_eq_true.mp hends c ?_
  simpa [isLineEnd, or_assoc] using h

lemma marginBefore_of_blank (h : firstLineIsBlank cs) : marginBefore margin cs = [] :=
  if_pos h

lemma marginBefore_of_not_blank (h : ¬firstLineIsBlank cs) : marginBefore margin cs = margin :=
  if_neg h

lemma firstLineIsBlank_of_isLineEnd (h : isLineEnd c) : firstLineIsBlank (c :: rest) := by
  simp [firstLineIsBlank, h]

lemma firstLineIsBlank_cons (h : isLineEnd c = false) :
    firstLineIsBlank (c :: rest) = (isBlank c && firstLineIsBlank rest) := by
  simp [firstLineIsBlank, h]

lemma endsLine_eq_false (h : isLineEnd c = false) : endsLine c rest = false := by
  simp [endsLine, h]

lemma firstLineIsBlank_of_lines {line : List Char} {more : List (List Char)}
    (h : lines cs = line :: more) : firstLineIsBlank cs = line.all isBlank := by
  fun_induction lines cs generalizing line more with
  | case1 => exact absurd h (by simp)
  | case2 rest ih =>
    obtain ⟨rfl, -⟩ := List.cons.inj h
    rw [firstLineIsBlank_of_isLineEnd (by decide)]
    decide
  | case3 c rest _ hend ih =>
    obtain ⟨rfl, -⟩ := List.cons.inj h
    rw [firstLineIsBlank_of_isLineEnd hend]
    simp [isBlank_of_isLineEnd hend]
  | case4 c rest _ hend hlines ih =>
    obtain ⟨rfl, -⟩ := List.cons.inj h
    obtain rfl : rest = [] := by rw [← flatten_lines rest, hlines, List.flatten_nil]
    rw [firstLineIsBlank_cons (by simpa using hend)]
    rfl
  | case5 c rest _ hend line' more' hlines ih =>
    obtain ⟨rfl, -⟩ := List.cons.inj h
    rw [firstLineIsBlank_cons (by simpa using hend), ih hlines, List.all_cons]

/-- Indenting line by line is hanging behind a first margin, by induction on the lines. -/
lemma indentLines_eq (margin cs : List Char) :
    indentLines margin cs = marginBefore margin cs ++ hang margin cs := by
  unfold indentLines
  fun_induction lines cs with
  | case1 => rfl
  | case2 rest ih =>
    have hblank : marginBefore margin ('\r' :: '\n' :: rest) = [] :=
      marginBefore_of_blank (firstLineIsBlank_of_isLineEnd (by decide))
    rw [List.map_cons, List.flatten_cons, ih, hblank]
    rfl
  | case3 c rest hcr hend ih =>
    have hblank : marginBefore margin (c :: rest) = [] :=
      marginBefore_of_blank (firstLineIsBlank_of_isLineEnd hend)
    have hends : endsLine c rest = true := by
      rw [endsLine, hend, Bool.true_and, Bool.not_eq_true', Bool.eq_false_iff]
      intro h
      obtain ⟨hc, hhead⟩ : c = '\r' ∧ rest.head? = some '\n' := by simpa using h
      obtain ⟨tail, htail⟩ := List.head?_eq_some_iff.mp hhead
      exact hcr tail hc htail
    rw [List.map_cons, List.flatten_cons, ih, hblank, hang, if_pos hends]
    simp [isBlank_of_isLineEnd hend]
  | case4 c rest _ hend hlines ih =>
    obtain rfl : rest = [] := by rw [← flatten_lines rest, hlines, List.flatten_nil]
    have hend : isLineEnd c = false := by simpa using hend
    rw [hang, endsLine_eq_false hend, if_neg (by simp), marginBefore, firstLineIsBlank_cons hend]
    by_cases hblank : isBlank c
    · simp [hblank, firstLineIsBlank, hang]
    · simp [hblank, hang]
  | case5 c rest _ hend line more hlines ih =>
    have hend : isLineEnd c = false := by simpa using hend
    have hrest := firstLineIsBlank_of_lines hlines
    -- The first line of the rest goes on the line of `c`, so its own margin is dropped.
    have hhang : hang margin rest = line ++ (more.map fun line =>
        if line.all isBlank then line else margin ++ line).flatten := by
      rw [hlines, List.map_cons, List.flatten_cons, marginBefore, hrest] at ih
      by_cases hblank : line.all isBlank
      · rw [if_pos hblank, if_pos hblank] at ih
        exact ih.symm
      · rw [if_neg hblank, if_neg hblank, List.append_assoc] at ih
        exact (List.append_cancel_left ih).symm
    rw [hang, endsLine_eq_false hend, if_neg (by simp), List.nil_append, hhang, marginBefore,
      firstLineIsBlank_cons hend, hrest, List.map_cons, List.flatten_cons, List.all_cons]
    by_cases hblank : isBlank c && line.all isBlank
    · rw [if_pos hblank, if_pos hblank]
      rfl
    · rw [if_neg hblank, if_neg hblank]
      simp

lemma EndsInInk.of_cons {d : Char} (h : EndsInInk (c :: d :: rest)) : EndsInInk (d :: rest) := by
  obtain ⟨last, hlast, hblank⟩ := h
  exact ⟨last, by simpa using hlast, hblank⟩

lemma EndsInInk.isLineEnd_eq_false (h : EndsInInk [c]) : isLineEnd c = false := by
  obtain ⟨last, hlast, hblank⟩ := h
  obtain rfl : c = last := by simpa using hlast
  by_contra hend
  rw [isBlank_of_isLineEnd (by simpa using hend)] at hblank
  exact absurd hblank (by simp)

section

variable {more : List Char}

lemma firstLineIsBlank_append (h : EndsInInk cs) :
    firstLineIsBlank (cs ++ more) = firstLineIsBlank cs := by
  induction cs with
  | nil => exact absurd h nofun
  | cons c rest ih =>
    rw [List.cons_append]
    by_cases hend : isLineEnd c
    · rw [firstLineIsBlank_of_isLineEnd hend, firstLineIsBlank_of_isLineEnd hend]
    have hend : isLineEnd c = false := by simpa using hend
    rw [firstLineIsBlank_cons hend, firstLineIsBlank_cons hend]
    cases rest with
    | nil =>
      obtain ⟨last, hlast, hblank⟩ := h
      obtain rfl : c = last := by simpa using hlast
      rw [hblank, Bool.false_and, Bool.false_and]
    | cons d rest => rw [ih h.of_cons]

/-- The lines of a text that ends in ink hang as before when another text follows it. -/
lemma hang_append (h : EndsInInk cs) :
    hang margin (cs ++ more) = hang margin cs ++ hang margin more := by
  induction cs with
  | nil => exact absurd h nofun
  | cons c rest ih =>
    rw [List.cons_append, hang, hang]
    cases rest with
    | nil =>
      have hend := h.isLineEnd_eq_false
      rw [endsLine_eq_false hend, endsLine_eq_false hend]
      simp [hang]
    | cons d rest =>
      have hends : endsLine c (d :: rest ++ more) = endsLine c (d :: rest) := rfl
      rw [ih h.of_cons, hends, marginBefore, marginBefore, firstLineIsBlank_append h.of_cons]
      simp

lemma hang_infix (before : List Char) (h : EndsInInk cs) :
    hang margin cs <:+: hang margin (before ++ cs ++ more) := by
  rw [List.append_assoc]
  induction before with
  | nil =>
    rw [List.nil_append, hang_append h]
    exact (List.prefix_append _ _).isInfix
  | cons c before ih =>
    rw [List.cons_append, hang, ← List.cons_append]
    exact ih.trans (List.suffix_append _ _).isInfix

end

lemma head?_hang : (hang margin cs).head? = cs.head? := by
  cases cs <;> rfl

lemma firstLineIsBlank_hang : firstLineIsBlank (hang margin cs) = firstLineIsBlank cs := by
  induction cs with
  | nil => rfl
  | cons c rest ih =>
    rw [hang]
    by_cases hend : isLineEnd c
    · rw [firstLineIsBlank_of_isLineEnd hend, firstLineIsBlank_of_isLineEnd hend]
    have hend : isLineEnd c = false := by simpa using hend
    rw [endsLine_eq_false hend, if_neg (by simp), List.nil_append, firstLineIsBlank_cons hend, ih,
      firstLineIsBlank_cons hend]

lemma endsInInk_hang (h : EndsInInk cs) : EndsInInk (hang margin cs) := by
  induction cs with
  | nil => exact h
  | cons c rest ih =>
    cases rest with
    | nil =>
      rw [hang, endsLine_eq_false h.isLineEnd_eq_false]
      exact h
    | cons d rest =>
      obtain ⟨last, hlast, hblank⟩ := ih h.of_cons
      refine ⟨last, ?_, hblank⟩
      rw [hang, ← List.cons_append, List.getLast?_append, hlast]
      rfl

section

variable {inner : List Char} (hinner : ∀ c ∈ inner, isLineEnd c = false)

include hinner

/-- A margin hangs as it is: no line starts in it. -/
lemma hang_margin_append : hang margin (inner ++ cs) = inner ++ hang margin cs := by
  induction inner with
  | nil => rfl
  | cons c inner ih =>
    rw [List.cons_append, hang, endsLine_eq_false (hinner c (by simp)), if_neg (by simp),
      List.nil_append, ih fun d hd => hinner d (by simp [hd])]
    rfl

lemma firstLineIsBlank_margin_append :
    firstLineIsBlank (inner ++ cs) = (inner.all isBlank && firstLineIsBlank cs) := by
  induction inner with
  | nil => rfl
  | cons c inner ih =>
    rw [List.cons_append, firstLineIsBlank_cons (hinner c (by simp)),
      ih fun d hd => hinner d (by simp [hd]), List.all_cons, Bool.and_assoc]

lemma endsLine_margin_append (h : endsLine c cs) : endsLine c (inner ++ cs) := by
  cases inner with
  | nil => exact h
  | cons d inner =>
    have hd : d ≠ '\n' := by
      rintro rfl
      exact absurd (hinner '\n' (by simp)) (by decide)
    have hend : isLineEnd c := (Bool.and_eq_true_iff.mp h).1
    simp [endsLine, hend, hd]

/-- Lines that hang behind one margin inside another one hang behind both. -/
lemma hang_hang : hang margin (hang inner cs) = hang (margin ++ inner) cs := by
  induction cs with
  | nil => rfl
  | cons c rest ih =>
    have hhang : endsLine c (hang inner rest) = endsLine c rest := by
      rw [endsLine, head?_hang, endsLine]
    rw [hang, hang, hang]
    by_cases hends : endsLine c rest
    case neg =>
      rw [if_neg hends, if_neg hends, List.nil_append, hhang, if_neg hends, ih]
    by_cases hblank : firstLineIsBlank rest
    · have hfirst : firstLineIsBlank (hang inner rest) := firstLineIsBlank_hang.trans hblank
      rw [if_pos hends, if_pos hends, marginBefore_of_blank hblank, marginBefore_of_blank hblank,
        List.nil_append, hhang, if_pos hends, marginBefore_of_blank hfirst, ih]
    · have hfirst : ¬firstLineIsBlank (inner ++ hang inner rest) := by
        rw [firstLineIsBlank_margin_append hinner, firstLineIsBlank_hang]
        simp [hblank]
      rw [if_pos hends, if_pos hends, marginBefore_of_not_blank hblank,
        marginBefore_of_not_blank hblank,
        if_pos (endsLine_margin_append hinner (hhang.trans hends)),
        marginBefore_of_not_blank hfirst, hang_margin_append hinner, ih, List.append_assoc]

end

/-- A text on one line hangs nowhere. -/
lemma hang_eq_self (h : ∀ c ∈ cs, isLineEnd c = false) : hang margin cs = cs := by
  have hnone : hang margin (cs ++ []) = cs ++ hang margin [] := hang_margin_append h
  rwa [List.append_nil, hang, List.append_nil] at hnone

lemma hang_nil : hang [] cs = cs := by
  induction cs with
  | nil => rfl
  | cons c rest ih => simp [hang, marginBefore, ih]

end Text

namespace Code

/-- The margin at a depth. -/
def margin (tab : String) (depth : Nat) : List Char :=
  (List.replicate depth tab.toList).flatten

variable {tab s : String}

/-- Text of the caller is found in the code with its lines hanging at the depth it is laid out at,
by induction on the code. -/
theorem exists_hang_infix_render (htab : ∀ c ∈ tab.toList, Text.isLineEnd c = false)
    (hs : Text.EndsInInk s.toList) {code : Code} (h : s ∈ code.hostPieces) :
    ∃ depth, Text.hang (margin tab depth) s.toList <:+: (code.render tab).toList := by
  induction code with
  | text t => exact absurd h (by simp [hostPieces])
  | host t =>
    obtain rfl : s = t := by simpa [hostPieces] using h
    refine ⟨0, ?_⟩
    rw [margin, List.replicate_zero, List.flatten_nil, Text.hang_nil]
    exact List.infix_rfl
  | append first second ihfirst ihsecond =>
    rw [render, String.toList_append]
    rcases List.mem_append.mp h with h | h
    · obtain ⟨depth, hinfix⟩ := ihfirst h
      exact ⟨depth, hinfix.trans (List.prefix_append _ _).isInfix⟩
    · obtain ⟨depth, hinfix⟩ := ihsecond h
      exact ⟨depth, hinfix.trans (List.suffix_append _ _).isInfix⟩
  | indented body ih =>
    obtain ⟨depth, before, more, hbody⟩ := ih h
    have hmargin : ∀ c ∈ margin tab depth, Text.isLineEnd c = false := by
      intro c hc
      obtain ⟨part, hpart, hc⟩ := List.mem_flatten.mp hc
      obtain rfl := List.eq_of_mem_replicate hpart
      exact htab c hc
    have hnext : margin tab (depth + 1) = tab.toList ++ margin tab depth := by
      rw [margin, List.replicate_succ, List.flatten_cons, margin]
    refine ⟨depth + 1, ?_⟩
    rw [render, Text.indent, String.toList_ofList, Text.indentLines_eq, ← hbody, hnext,
      ← Text.hang_hang hmargin]
    exact (Text.hang_infix before (Text.endsInInk_hang hs)).trans (List.suffix_append _ _).isInfix

end Code

end FieldComposition
