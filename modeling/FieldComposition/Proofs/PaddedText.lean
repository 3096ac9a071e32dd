import FieldComposition.Proofs.HangingIndent
import FieldComposition.Proofs.TextStretches

/-!
# Indented text is read alike

Indenting a text puts spaces behind some of its line ends (`Text.Padded`), and python code is read
in the same way with them, also when the text that follows is replaced by a delimiter
(`Lexes.padded`). A line end stands between two tokens, in a comment or in a string, and the token
before other text sees of that text no more than whether a fraction starts there.
-/

namespace FieldComposition

namespace Text

/-- The second text is the first one with spaces put in behind some of its line ends. -/
inductive Padded : List Char → List Char → Prop
  | nil : Padded [] []
  | cons {c : Char} {cs ds : List Char} (n : Nat) (hend : n ≠ 0 → isLineEnd c)
      (h : Padded cs ds) : Padded (c :: cs) (c :: (List.replicate n ' ' ++ ds))

lemma padded_hang (n : Nat) (cs : List Char) : Padded cs (hang (List.replicate n ' ') cs) := by
  induction cs with
  | nil => exact .nil
  | cons c cs ih =>
    rw [hang]
    by_cases hends : endsLine c cs
    · have hend : isLineEnd c := (Bool.and_eq_true_iff.mp hends).1
      rw [if_pos hends, marginBefore]
      split
      · exact .cons 0 (fun _ => hend) ih
      · exact .cons n (fun _ => hend) ih
    · rw [if_neg hends]
      exact .cons 0 (fun h => absurd rfl h) ih

namespace Padded

variable {c : Char} {cs ds : List Char}

lemma refl (cs : List Char) : Padded cs cs := by
  have h := padded_hang 0 cs
  rwa [List.replicate_zero, hang_nil] at h

lemma split {more : List Char} (h : Padded (cs ++ more) ds) :
    ∃ first second, ds = first ++ second ∧ Padded cs first ∧ Padded more second := by
  induction cs generalizing ds with
  | nil => exact ⟨[], ds, rfl, .nil, h⟩
  | cons c cs ih =>
    cases h with
    | cons n hend h =>
      obtain ⟨first, second, rfl, hfirst, hsecond⟩ := ih h
      exact ⟨_, second, by rw [List.cons_append, List.append_assoc], .cons n hend hfirst, hsecond⟩

/-- Spaces are put in behind line ends only. -/
lemma of_cons (h : Padded (c :: cs) ds) (hc : isLineEnd c = false) :
    ∃ ds', ds = c :: ds' ∧ Padded cs ds' := by
  cases h with
  | @cons _ _ ds n hend h =>
    have hn : n = 0 := by
      by_contra hn
      rw [hend hn] at hc
      cases hc
    exact ⟨ds, by rw [hn]; rfl, h⟩

lemma forall_mem {P : Char → Prop} (h : Padded cs ds) (hcs : ∀ c ∈ cs, P c) (hspace : P ' ') :
    ∀ d ∈ ds, P d := by
  induction h with
  | nil => simp
  | @cons c cs ds n _ _ ih =>
    intro d hd
    rcases List.mem_cons.mp hd with rfl | hd
    · exact hcs d List.mem_cons_self
    rcases List.mem_append.mp hd with hd | hd
    · rwa [List.eq_of_mem_replicate hd]
    · exact ih (fun d hd => hcs d (List.mem_cons_of_mem _ hd)) d hd

lemma eq_self (h : Padded cs ds) (hcs : ∀ c ∈ cs, isLineEnd c = false) : ds = cs := by
  induction cs generalizing ds with
  | nil =>
    cases h
    rfl
  | cons c cs ih =>
    obtain ⟨ds', rfl, hrest⟩ := h.of_cons (hcs c List.mem_cons_self)
    rw [ih hrest fun d hd => hcs d (List.mem_cons_of_mem _ hd)]

end Padded

lemma isLineEnd_eq_false_of_ink {c : Char} (h : isBlank c = false) : isLineEnd c = false := by
  by_contra hend
  rw [isBlank_of_isLineEnd (by simpa using hend)] at h
  cases h

end Text

namespace Lexeme

open Text

/-- A text is empty or starts with a delimiter, which is a token of its own. -/
def IsDelimited (cs : List Char) : Prop :=
  ∀ c ∈ cs.head?, c ∈ ['(', ')', ',']

/-- A text starts like the rest of a number behind its whole part. -/
def StartsFraction (cs : List Char) : Prop :=
  ∃ d more, cs = '.' :: d :: more ∧ d.isDigit

/-- A text that starts like another one, or with a delimiter, as far as a token before it can
tell. -/
structure Resumes (tail tail' : List Char) : Prop where
  head : tail'.head? = tail.head? ∨ IsDelimited tail'
  fraction : StartsFraction tail' → StartsFraction tail

variable {host : Host} {c quote : Char} {taken taken' tail tail' : List Char}

lemma Resumes.of_padded {cs ds more more' : List Char} (h : Padded cs ds)
    (hdelimited : IsDelimited more') : Resumes (cs ++ more) (ds ++ more') := by
  cases h with
  | nil =>
    refine ⟨.inr hdelimited, ?_⟩
    rintro ⟨d, rest, rfl, -⟩
    exact absurd (hdelimited '.' rfl) (by decide)
  | @cons c cs ds n hend h =>
    refine ⟨.inl rfl, ?_⟩
    rintro ⟨d, rest, htail, hd⟩
    obtain ⟨rfl, hrest⟩ := List.cons.inj htail
    have hn : n = 0 := by
      by_contra hn
      exact absurd (hend hn) (by decide)
    rw [hn, List.replicate_zero, List.nil_append] at hrest
    cases h with
    | nil =>
      have hmore : more' = d :: rest := hrest
      have hdelimiter := hdelimited d (by rw [hmore]; rfl)
      have hnone : ∀ c ∈ ['(', ')', ','], c.isDigit = false := by decide
      rw [hnone d hdelimiter] at hd
      cases hd
    | @cons e cs ds _ _ _ =>
      obtain ⟨rfl, -⟩ := List.cons.inj hrest
      exact ⟨e, cs ++ more, rfl, hd⟩

/-- What holds of the first character behind a token still does. -/
lemma Resumes.forall_head {P : Char → Prop} (h : Resumes tail tail') (htail : ∀ c ∈ tail.head?, P c)
    (hdelimiter : ∀ c ∈ ['(', ')', ','], P c) : ∀ c ∈ tail'.head?, P c := by
  intro c hc
  rcases h.head with hhead | hdelimited
  · exact htail c (hhead ▸ hc)
  · exact hdelimiter c (hdelimited c hc)

lemma takeWhile_append_eq {p : Char → Bool} (htaken : ∀ c ∈ taken, p c)
    (htail : ∀ c ∈ tail.head?, p c = false) : (taken ++ tail).takeWhile p = taken := by
  have hnone : tail.takeWhile p = [] := by
    cases tail with
    | nil => rfl
    | cons c tail => rw [List.takeWhile_cons, htail c rfl, if_neg (by simp)]
  rw [List.takeWhile_append_of_pos htaken, hnone, List.append_nil]

lemma of_length_takeWhile {p : Char → Bool}
    (h : ((taken ++ tail).takeWhile p).length = taken.length) :
    (∀ c ∈ taken, p c) ∧ ∀ c ∈ tail.head?, p c = false := by
  have hbegins : (taken ++ tail).takeWhile p = taken := by
    have htake := List.prefix_iff_eq_take.mp (List.takeWhile_prefix p (l := taken ++ tail))
    rwa [h, List.take_left] at htake
  have htaken : ∀ c ∈ taken, p c := fun c hc => List.mem_takeWhile_imp (hbegins ▸ hc)
  refine ⟨htaken, fun c hc => ?_⟩
  obtain ⟨rest, rfl⟩ := List.head?_eq_some_iff.mp hc
  rw [List.takeWhile_append_of_pos htaken, List.takeWhile_cons] at hbegins
  by_contra hpc
  rw [if_pos (by simpa using hpc)] at hbegins
  exact absurd (List.append_right_eq_self.mp hbegins) (List.cons_ne_nil _ _)

lemma word_resumes {lexeme : Lexeme} (h : word c (taken ++ tail) = .ok lexeme)
    (hlength : lexeme.more = taken.length) (hresumes : Resumes tail tail') :
    (∀ d ∈ taken, isLineEnd d = false) ∧ word c (taken ++ tail') = .ok lexeme := by
  simp only [word] at h
  split at h
  case isFalse => exact absurd h (by simp)
  rename_i hidentifier
  obtain rfl := Except.ok.inj h
  obtain ⟨htaken, htail⟩ := of_length_takeWhile hlength
  have hdelimiter : ∀ c ∈ ['(', ')', ','], isWordChar c = false :=
    fun c hc => isWordChar_eq_false ((by decide : ['(', ')', ','] ⊆ wordBreaks) hc)
  have htail' := hresumes.forall_head htail hdelimiter
  rw [takeWhile_append_eq htaken htail] at hidentifier ⊢
  refine ⟨fun d hd => isLineEnd_eq_false_of_ink (isBlank_eq_false_of_isWordChar (htaken d hd)), ?_⟩
  simp only [word]
  rw [takeWhile_append_eq htaken htail', if_pos hidentifier]

lemma isLineEnd_eq_false_of_isNumberPart {d : Char} (h : isNumberPart d) :
    isLineEnd d = false :=
  isLineEnd_eq_false_of_ink (isBlank_eq_false_of_isNumberPart h)

lemma numberRest_whole {whole rest : List Char} (hwhole : ∀ c ∈ whole, isNumberPart c)
    (hrest : ∀ c ∈ rest.head?, isNumberPart c = false) (hnone : ¬StartsFraction rest) :
    numberRest (whole ++ rest) = whole.length := by
  unfold numberRest
  dsimp only
  rw [takeWhile_append_eq hwhole hrest, List.drop_left]
  split
  · rename_i d fraction
    rw [if_neg fun hd => hnone ⟨d, fraction, rfl, hd⟩]
  · rfl

lemma numberRest_fraction {whole fraction : List Char} {d : Char}
    (hwhole : ∀ c ∈ whole, isNumberPart c) (hd : d.isDigit) :
    numberRest (whole ++ '.' :: d :: fraction) =
      whole.length + 2 + (fraction.takeWhile isNumberPart).length := by
  have hdot : ∀ c ∈ ('.' :: d :: fraction).head?, isNumberPart c = false := by
    rintro c ⟨⟩
    decide
  unfold numberRest
  dsimp only
  rw [takeWhile_append_eq hwhole hdot, List.drop_left]
  exact if_pos hd

/-- A number ends where neither a digit nor a letter follows, nor a fraction behind its whole
part. -/
lemma numberRest_resumes (h : numberRest (taken ++ tail) = taken.length)
    (hresumes : Resumes tail tail') :
    (∀ d ∈ taken, isLineEnd d = false) ∧ numberRest (taken ++ tail') = taken.length := by
  have hdelimiter : ∀ c ∈ ['(', ')', ','], isNumberPart c = false := by decide
  let whole := (taken ++ tail).takeWhile isNumberPart
  let rest := (taken ++ tail).dropWhile isNumberPart
  have hsplit : whole ++ rest = taken ++ tail := List.takeWhile_append_dropWhile
  have hwhole : ∀ c ∈ whole, isNumberPart c := fun c hc => List.mem_takeWhile_imp hc
  have hrest : ∀ c ∈ rest.head?, isNumberPart c = false := by
    intro c hc
    have hdrop := List.head?_dropWhile_not isNumberPart (taken ++ tail)
    rw [hc] at hdrop
    exact hdrop
  rw [← hsplit] at h
  by_cases hfraction : StartsFraction rest
  · obtain ⟨d, fraction, hrestEq, hd⟩ := hfraction
    rw [hrestEq, numberRest_fraction hwhole hd] at h
    let n := (fraction.takeWhile isNumberPart).length
    have hn : (fraction.take n).length = n :=
      List.length_take_of_le (List.takeWhile_prefix _).length_le
    have hparts : whole ++ '.' :: d :: fraction.take n ++ fraction.drop n = taken ++ tail := by
      rw [← hsplit, hrestEq, List.append_assoc, List.cons_append, List.cons_append,
        List.take_append_drop]
    obtain ⟨htakenEq, htailEq⟩ := List.append_inj hparts (by
      rw [List.length_append, List.length_cons, List.length_cons, hn]
      omega)
    rw [← htailEq] at hresumes
    rw [← htakenEq]
    have hlength : ((fraction.take n ++ fraction.drop n).takeWhile isNumberPart).length =
        (fraction.take n).length := by
      rw [List.take_append_drop, hn]
    obtain ⟨htaken, htail⟩ := of_length_takeWhile hlength
    have htail' := hresumes.forall_head htail hdelimiter
    constructor
    · intro c hc
      rcases List.mem_append.mp hc with hc | hc
      · exact isLineEnd_eq_false_of_isNumberPart (hwhole c hc)
      rcases List.mem_cons.mp hc with rfl | hc
      · decide
      rcases List.mem_cons.mp hc with rfl | hc
      · exact isLineEnd_eq_false_of_isNumberPart (by simp [isNumberPart, hd])
      · exact isLineEnd_eq_false_of_isNumberPart (htaken c hc)
    · rw [List.append_assoc, List.cons_append, List.cons_append, numberRest_fraction hwhole hd,
        takeWhile_append_eq htaken htail', List.length_append, List.length_cons, List.length_cons]
      omega
  · rw [numberRest_whole hwhole hrest hfraction] at h
    obtain ⟨hwholeEq, hrestEq⟩ := List.append_inj hsplit h
    rw [hwholeEq] at hwhole
    rw [hrestEq] at hrest hfraction
    have htail' := hresumes.forall_head hrest hdelimiter
    refine ⟨fun c hc => isLineEnd_eq_false_of_isNumberPart (hwhole c hc), ?_⟩
    exact numberRest_whole hwhole htail' fun hfraction' => hfraction (hresumes.fraction hfraction')

/-- A text starts like another one, or with a character that no operator goes on with. -/
def EndsOperator (tail tail' : List Char) : Prop :=
  tail'.head? = tail.head? ∨ ∀ d ∈ tail'.head?, ∀ e ∈ longOperators, d ∉ e.1

lemma Resumes.endsOperator (h : Resumes tail tail') : EndsOperator tail tail' := by
  have hdelimiter : ∀ d ∈ ['(', ')', ','], ∀ e ∈ longOperators, d ∉ e.1 := by decide
  exact h.head.imp_right fun hdelimited d hd => hdelimiter d (hdelimited d hd)

/-- A longer operator does not start at a place where none started before: all but the first
characters of it would be an operator as well. -/
lemma not_prefix_of_endsOperator (hends : EndsOperator tail tail')
    (hlongest : ∀ e ∈ longOperators, taken.length + 1 < e.1.length →
      ¬e.1 <+: c :: (taken ++ tail)) :
    ∀ e ∈ longOperators, taken.length + 1 < e.1.length → ¬e.1 <+: c :: (taken ++ tail') := by
  have hshorter : ∀ e ∈ longOperators, ∀ n ∈ List.range e.1.length, 2 ≤ n →
      ∃ e' ∈ longOperators, e'.1 = e.1.take n := by decide
  intro e he hlength hbegins
  obtain ⟨x, rest, rfl⟩ : ∃ x rest, tail' = x :: rest := by
    refine List.exists_cons_of_ne_nil ?_
    rintro rfl
    have hle := hbegins.length_le
    rw [List.append_nil, List.length_cons] at hle
    omega
  have htake : e.1.take (taken.length + 2) = c :: (taken ++ [x]) := by
    have hfront : (c :: (taken ++ [x])) <+: c :: (taken ++ x :: rest) :=
      ⟨rest, by rw [List.cons_append, List.append_assoc]; rfl⟩
    have hbegins' : (c :: (taken ++ [x])) <+: e.1 :=
      List.prefix_of_prefix_length_le hfront hbegins (by
        rw [List.length_cons, List.length_append]
        exact hlength)
    rw [List.prefix_iff_eq_take.mp hbegins']
    simp
  have hx : x ∈ e.1 := by
    refine List.mem_of_mem_take (i := taken.length + 2) ?_
    rw [htake]
    simp
  rcases hends with hhead | hother
  · obtain ⟨rest', rfl⟩ := List.head?_eq_some_iff.mp hhead.symm
    have hbegins' : e.1.take (taken.length + 2) <+: c :: (taken ++ x :: rest') :=
      ⟨rest', by rw [htake, List.cons_append, List.append_assoc]; rfl⟩
    by_cases hwhole : e.1.length = taken.length + 2
    · rw [← hwhole, List.take_length] at hbegins'
      exact hlongest e he hlength hbegins'
    · obtain ⟨e', he', hspelling⟩ :=
        hshorter e he (taken.length + 2) (List.mem_range.mpr (by omega)) (by omega)
      rw [← hspelling] at hbegins'
      refine hlongest e' he' ?_ hbegins'
      rw [hspelling, htake]
      simp
  · exact hother x rfl e he hx

/-- The operator that is found is the longest one that the text starts with. -/
lemma find?_longOperators_eq_some_iff {e : List Char × TokenKind} {cs : List Char} :
    longOperators.find? (fun e => e.1.isPrefixOf cs) = some e ↔
      e ∈ longOperators ∧ e.1 <+: cs ∧
        ∀ e' ∈ longOperators, e.1.length < e'.1.length → ¬e'.1 <+: cs := by
  have hsorted : longOperators.Pairwise fun a b => ¬a.1 <+: b.1 := by decide
  have hunique : ∀ e ∈ longOperators, ∀ e' ∈ longOperators, e.1 = e'.1 → e = e' := by decide
  have hlongest {e : List Char × TokenKind}
      (hfind : longOperators.find? (fun e => e.1.isPrefixOf cs) = some e) :
      e ∈ longOperators ∧ e.1 <+: cs ∧
        ∀ e' ∈ longOperators, e.1.length < e'.1.length → ¬e'.1 <+: cs := by
    obtain ⟨hread, before, after, htable, hbefore⟩ := List.find?_eq_some_iff_append.mp hfind
    refine ⟨List.mem_of_find?_eq_some hfind, List.isPrefixOf_iff_prefix.mp hread, ?_⟩
    intro e' he' hlonger hbegins
    rw [htable] at he' hsorted
    rcases List.mem_append.mp he' with he' | he'
    · have hnone := hbefore e' he'
      rw [List.isPrefixOf_iff_prefix.mpr hbegins] at hnone
      cases hnone
    rcases List.mem_cons.mp he' with rfl | he'
    · omega
    · have hlater := (List.pairwise_cons.mp (List.pairwise_append.mp hsorted).2.1).1 e' he'
      exact hlater (List.prefix_of_prefix_length_le (List.isPrefixOf_iff_prefix.mp hread) hbegins
        hlonger.le)
  refine ⟨hlongest, fun ⟨he, hbegins, hnone⟩ => ?_⟩
  cases hfind : longOperators.find? fun e => e.1.isPrefixOf cs with
  | none => exact absurd (List.isPrefixOf_iff_prefix.mpr hbegins) (List.find?_eq_none.mp hfind e he)
  | some e' =>
    obtain ⟨he', hbegins', hnone'⟩ := hlongest hfind
    have hlength : e'.1.length = e.1.length :=
      le_antisymm (not_lt.mp fun hlonger => hnone e' he' hlonger hbegins')
        (not_lt.mp fun hlonger => hnone' e he hlonger hbegins)
    have hspelling : e'.1 = e.1 :=
      (List.prefix_of_prefix_length_le hbegins' hbegins hlength.le).eq_of_length hlength
    rw [hunique e' he' e he hspelling]

lemma operator?_resumes {kind : TokenKind}
    (h : operator? c (taken ++ tail) = some ⟨some kind, taken.length⟩)
    (hends : EndsOperator tail tail') :
    (∀ d ∈ c :: taken, isLineEnd d = false) ∧
      operator? c (taken ++ tail') = some ⟨some kind, taken.length⟩ := by
  have hink : ∀ e ∈ longOperators, 2 ≤ e.1.length ∧ ∀ d ∈ e.1, isLineEnd d = false := by decide
  have hfront (tail : List Char) : c :: taken <+: c :: (taken ++ tail) :=
    List.prefix_append (c :: taken) tail
  unfold operator? at h ⊢
  cases hfind : longOperators.find? fun e => e.1.isPrefixOf (c :: (taken ++ tail)) with
  | some e =>
    rw [hfind] at h
    obtain ⟨hkind, hmore⟩ := Lexeme.mk.inj (Option.some.inj h)
    obtain ⟨he, hbegins, hlongest⟩ := find?_longOperators_eq_some_iff.mp hfind
    have hlength : e.1.length = taken.length + 1 := by
      have htwo := (hink e he).1
      omega
    have hspelling : e.1 = c :: taken :=
      (List.prefix_of_prefix_length_le hbegins (hfront tail) (by
        rw [hlength, List.length_cons])).eq_of_length hlength
    have hfind' : longOperators.find? (fun e => e.1.isPrefixOf (c :: (taken ++ tail'))) =
        some e := by
      rw [hlength] at hlongest
      rw [find?_longOperators_eq_some_iff, hlength]
      exact ⟨he, hspelling ▸ hfront tail', not_prefix_of_endsOperator hends hlongest⟩
    rw [hfind']
    exact ⟨fun d hd => (hink e he).2 d (hspelling ▸ hd), h⟩
  | none =>
    rw [hfind] at h
    obtain ⟨kind', hshort, hlexeme⟩ := Option.map_eq_some_iff.mp h
    obtain rfl : taken = [] := List.length_eq_zero_iff.mp (Lexeme.mk.inj hlexeme).2.symm
    have hfind' : longOperators.find? (fun e => e.1.isPrefixOf (c :: ([] ++ tail'))) = none := by
      rw [List.find?_eq_none]
      intro e he hread'
      have hlonger : ([] : List Char).length + 1 < e.1.length := (hink e he).1
      refine not_prefix_of_endsOperator hends ?_ e he hlonger
        (List.isPrefixOf_iff_prefix.mp hread')
      intro e' he' _ hbegins
      exact List.find?_eq_none.mp hfind e' he' (List.isPrefixOf_iff_prefix.mpr hbegins)
    rw [hfind']
    refine ⟨fun d hd => ?_, h⟩
    obtain rfl := List.mem_singleton.mp hd
    exact isLineEnd_eq_false_of_ink ((spells_shortOperator hshort).last_not_blank d rfl)

section Strings

variable {oneLine : Bool} {cs : List Char} (hquote : quote = '"' ∨ quote = '\'')

lemma toQuote?_cons (hc : c ≠ '\\') :
    toQuote? oneLine quote (c :: cs) =
      if c = quote then some 1
      else if c = '\n' && oneLine then none
      else (toQuote? oneLine quote cs).map (· + 1) := by
  rw [toQuote?.eq_3 _ _ _ _ (by simp [hc]), if_neg hc]

lemma toQuote?_ne_zero : toQuote? oneLine quote cs ≠ some 0 := by
  fun_induction toQuote? oneLine quote cs with
  | case1 => simp
  | case2 c rest ih => simp
  | case3 => simp
  | case4 => simp
  | case5 => simp
  | case6 => simp

include hquote

lemma isLineEnd_quote : isLineEnd quote = false := by
  rcases hquote with rfl | rfl <;> decide

lemma toQuote?_spaces (n : Nat) :
    toQuote? oneLine quote (List.replicate n ' ' ++ cs) =
      (toQuote? oneLine quote cs).map (· + n) := by
  have hspace : ' ' ≠ quote := by
    rcases hquote with rfl | rfl <;> decide
  induction n with
  | zero => simp
  | succ n ih =>
    rw [List.replicate_succ, List.cons_append, toQuote?_cons (by decide), if_neg hspace,
      if_neg (by simp), ih, Option.map_map]
    congr 1

/-- Spaces behind line ends stay inside a string. -/
lemma toQuote?_padded (h : toQuote? oneLine quote (taken ++ tail) = some taken.length)
    (hpadded : Padded taken taken') :
    toQuote? oneLine quote (taken' ++ tail') = some taken'.length := by
  induction hn : taken.length using Nat.strong_induction_on generalizing taken taken' with
  | _ n ih =>
    cases taken with
    | nil => exact absurd h toQuote?_ne_zero
    | cons c cs =>
      by_cases hslash : c = '\\'
      · subst hslash
        obtain ⟨ds, rfl, hrest⟩ := hpadded.of_cons (by decide)
        cases hrest with
        | nil =>
          cases tail with
          | nil => exact absurd h (by simp [toQuote?])
          | cons d tail =>
            obtain ⟨m, -, hm⟩ := Option.map_eq_some_iff.mp h
            rw [List.length_singleton] at hm
            omega
        | @cons d cs ds k hend hrest =>
          obtain ⟨m, hm, hlength⟩ := Option.map_eq_some_iff.mp h
          obtain rfl : m = cs.length := by simpa using hlength
          have hshort : cs.length < n := by
            rw [← hn, List.length_cons, List.length_cons]
            omega
          have hread := ih cs.length hshort hm hrest rfl
          rw [List.cons_append, List.cons_append, toQuote?, List.append_assoc,
            toQuote?_spaces hquote, hread]
          simp only [Option.map_some, List.length_cons, List.length_append, List.length_replicate,
            Option.some.injEq]
          omega
      rw [List.cons_append, toQuote?_cons hslash] at h
      cases hpadded with
      | @cons c cs ds k hend hrest =>
        by_cases hc : c = quote
        · rw [if_pos hc] at h
          obtain rfl : cs = [] := by simpa using (Option.some.inj h).symm
          have hk : k = 0 := by
            by_contra hk
            rw [hc, isLineEnd_quote hquote] at hend
            exact absurd (hend hk) (by simp)
          cases hrest
          rw [hk, List.cons_append, toQuote?_cons hslash, if_pos hc]
          rfl
        · rw [if_neg hc] at h
          split at h
          · cases h
          rename_i hnewline
          obtain ⟨m, hm, hlength⟩ := Option.map_eq_some_iff.mp h
          obtain rfl : m = cs.length := by simpa using hlength
          have hread := ih cs.length (by rw [← hn, List.length_cons]; omega) hm hrest rfl
          rw [List.cons_append, toQuote?_cons hslash, if_neg hc, if_neg hnewline,
            List.append_assoc, toQuote?_spaces hquote, hread]
          simp only [Option.map_some, List.length_cons, List.length_append, List.length_replicate,
            Option.some.injEq]
          omega

lemma toTripleQuote?_spaces (n : Nat) :
    toTripleQuote? quote (List.replicate n ' ' ++ cs) = (toTripleQuote? quote cs).map (· + n) := by
  have hspace : quote ≠ ' ' := by
    rcases hquote with rfl | rfl <;> decide
  induction n with
  | zero => simp
  | succ n ih =>
    rw [List.replicate_succ, List.cons_append, toTripleQuote?, if_neg (by simp [hspace]), ih,
      Option.map_map]
    congr 1

omit hquote in
lemma three_le_of_toTripleQuote? {n : Nat} (h : toTripleQuote? quote cs = some n) : 3 ≤ n := by
  induction cs generalizing n with
  | nil => cases h
  | cons c cs ih =>
    rw [toTripleQuote?] at h
    split at h
    · exact (Option.some.inj h).le
    · obtain ⟨m, hm, rfl⟩ := Option.map_eq_some_iff.mp h
      exact Nat.le_succ_of_le (ih hm)

/-- Quotes in a row stand in a row already before spaces are put in, and the other way around. -/
lemma quotes_prefix_iff_of_padded {quotes : List Char} (hquotes : ∀ c ∈ quotes, c = quote)
    (hlength : quotes.length ≤ cs.length) {ds : List Char} (hpadded : Padded cs ds) :
    quotes <+: ds ++ tail' ↔ quotes <+: cs ++ tail := by
  induction quotes generalizing cs ds with
  | nil => simp
  | cons q quotes ih =>
    obtain rfl := hquotes q List.mem_cons_self
    cases hpadded with
    | nil => cases hlength
    | @cons c cs ds k hend hrest =>
      rw [List.cons_append, List.cons_append, List.cons_prefix_cons, List.cons_prefix_cons]
      by_cases hc : q = c
      · have hk : k = 0 := by
          by_contra hk
          have hends := hend hk
          rw [← hc, isLineEnd_quote hquote] at hends
          cases hends
        have hrest := ih (fun d hd => hquotes d (List.mem_cons_of_mem _ hd))
          (Nat.le_of_succ_le_succ hlength) hrest
        rw [hk, List.replicate_zero, List.nil_append, hrest]
      · simp [hc]

lemma toTripleQuote?_padded (h : toTripleQuote? quote (taken ++ tail) = some taken.length)
    (hpadded : Padded taken taken') :
    toTripleQuote? quote (taken' ++ tail') = some taken'.length := by
  have hquotes : ∀ c ∈ [quote, quote, quote], c = quote := by simp
  induction hpadded with
  | nil => exact absurd (three_le_of_toTripleQuote? h) (by simp)
  | @cons c cs ds k hend hrest ih =>
    have hpadded : Padded (c :: cs) (c :: (List.replicate k ' ' ++ ds)) := .cons k hend hrest
    have hbegins : [quote, quote, quote] <+: c :: (List.replicate k ' ' ++ ds ++ tail') ↔
        [quote, quote, quote] <+: c :: (cs ++ tail) :=
      quotes_prefix_iff_of_padded hquote hquotes (three_le_of_toTripleQuote? h) hpadded
    rw [List.cons_append, toTripleQuote?] at h
    rw [List.cons_append, toTripleQuote?]
    by_cases hstarts : [quote, quote, quote] <+: c :: (cs ++ tail)
    · rw [if_pos (List.isPrefixOf_iff_prefix.mpr hstarts)] at h
      rw [if_pos (List.isPrefixOf_iff_prefix.mpr (hbegins.mpr hstarts))]
      have htaken : [quote, quote, quote] = c :: cs :=
        (List.prefix_of_prefix_length_le hstarts (List.prefix_append (c :: cs) tail)
          (Option.some.inj h).le).eq_of_length (Option.some.inj h)
      have hself := hpadded.eq_self fun d hd => by
        rw [hquotes d (htaken ▸ hd)]
        exact isLineEnd_quote hquote
      rw [hself]
      exact h
    · rw [if_neg (mt List.isPrefixOf_iff_prefix.mp hstarts)] at h
      rw [if_neg (mt List.isPrefixOf_iff_prefix.mp (mt hbegins.mp hstarts))]
      obtain ⟨m, hm, hlength⟩ := Option.map_eq_some_iff.mp h
      obtain rfl : m = cs.length := by simpa using hlength
      rw [List.append_assoc, toTripleQuote?_spaces hquote, ih hm]
      simp only [Option.map_some, List.length_cons, List.length_append, List.length_replicate,
        Option.some.injEq]
      omega

/-- Two quotes in a row are a string of their own unless a third one follows them. -/
lemma stringRest?_resumes
    (h : stringRest? host quote (taken ++ tail) = some taken.length)
    (hresumes : Resumes tail tail') (hpadded : Padded taken taken') :
    stringRest? host quote (taken' ++ tail') = some taken'.length := by
  have hquotes : ∀ c ∈ [quote, quote], c = quote := by simp
  unfold stringRest? at h ⊢
  by_cases hstarts : [quote, quote] <+: taken ++ tail
  · rw [if_pos (List.isPrefixOf_iff_prefix.mpr hstarts)] at h
    obtain ⟨m, hm, hlength⟩ := Option.map_eq_some_iff.mp h
    have hthree := three_le_of_toTripleQuote? hm
    have hfront : [quote, quote] <+: taken :=
      List.prefix_of_prefix_length_le hstarts (List.prefix_append taken tail) (by
        rw [List.length_cons, List.length_singleton]
        omega)
    obtain ⟨cs, rfl⟩ := hfront
    obtain ⟨first, hfirst, hsecond⟩ := hpadded.of_cons (isLineEnd_quote hquote)
    obtain ⟨ds, rfl, hcs⟩ := hsecond.of_cons (isLineEnd_quote hquote)
    obtain rfl : m = cs.length := by simpa using hlength
    have hread : toTripleQuote? quote (ds ++ tail') = some ds.length :=
      toTripleQuote?_padded hquote hm hcs
    have hstarts' : [quote, quote] <+: taken' ++ tail' := ⟨ds ++ tail', by rw [hfirst]; rfl⟩
    rw [if_pos (List.isPrefixOf_iff_prefix.mpr hstarts'), hfirst]
    change (toTripleQuote? quote (ds ++ tail')).map (· + 2) = _
    rw [hread]
    rfl
  · rw [if_neg (mt List.isPrefixOf_iff_prefix.mp hstarts)] at h
    have hstarts' : ¬[quote, quote] <+: taken' ++ tail' := by
      by_cases hlength : 2 ≤ taken.length
      · rwa [quotes_prefix_iff_of_padded hquote hquotes hlength hpadded]
      obtain ⟨c, rfl⟩ : ∃ c, taken = [c] := by
        refine List.length_eq_one_iff.mp ?_
        have hne : taken.length ≠ 0 := by
          intro hzero
          rw [hzero] at h
          exact toQuote?_ne_zero h
        omega
      rintro ⟨rest, hrest⟩
      by_cases hc : c = quote
      · subst hc
        obtain ⟨ds, rfl, hnil⟩ := hpadded.of_cons (isLineEnd_quote hquote)
        cases hnil
        obtain rfl : c :: rest = tail' := (List.cons.inj hrest).2
        rcases hresumes.head with hhead | hdelimited
        · obtain ⟨rest', rfl⟩ := List.head?_eq_some_iff.mp hhead.symm
          exact hstarts ⟨rest', rfl⟩
        · have hdelimiter := hdelimited c rfl
          rcases hquote with rfl | rfl <;> exact absurd hdelimiter (by decide)
      · cases hpadded with
        | cons k hend hnil => exact hc (List.cons.inj hrest).1.symm
    rw [if_neg (mt List.isPrefixOf_iff_prefix.mp hstarts')]
    exact toQuote?_padded hquote h hpadded

end Strings

lemma lifetimeRest?_cons (hhost : host.hasLifetimes) (cs : List Char) :
    lifetimeRest? host (c :: cs) =
      if isWordStart c && (cs.dropWhile isWordChar).head? != some '\''
      then some ((cs.takeWhile isWordChar).length + 1) else none := by
  rw [lifetimeRest?, if_pos hhost]
  dsimp only
  rw [drop_length_takeWhile]

lemma lifetimeRest?_resumes (h : lifetimeRest? host (taken ++ tail) = some taken.length)
    (hresumes : Resumes tail tail') :
    (∀ d ∈ taken, isLineEnd d = false) ∧
      lifetimeRest? host (taken ++ tail') = some taken.length := by
  have hdelimiter : ∀ c ∈ ['(', ')', ','], isWordChar c = false ∧ c ≠ '\'' := by
    have hbreaks : ∀ c ∈ ['(', ')', ','], c ∈ wordBreaks ∧ c ≠ '\'' := by decide
    exact fun c hc => ⟨isWordChar_eq_false (hbreaks c hc).1, (hbreaks c hc).2⟩
  by_cases hhost : host.hasLifetimes
  case neg =>
    rw [lifetimeRest?.eq_def, if_neg hhost] at h
    cases h
  cases taken with
  | nil =>
    cases tail with
    | nil =>
      rw [List.nil_append, lifetimeRest?, if_pos hhost] at h
      cases h
    | cons c tail =>
      rw [List.nil_append, lifetimeRest?_cons hhost] at h
      split at h
      · exact absurd (Option.some.inj h) (Nat.succ_ne_zero _)
      · cases h
  | cons c taken =>
    rw [List.cons_append, lifetimeRest?_cons hhost] at h
    split at h
    case isFalse => cases h
    rename_i hstart
    obtain ⟨hc, hquote⟩ := Bool.and_eq_true_iff.mp hstart
    obtain ⟨htaken, htail⟩ := of_length_takeWhile (Nat.succ.inj (Option.some.inj h))
    have hbehind : (taken ++ tail).dropWhile isWordChar = tail := by
      rw [← drop_length_takeWhile, takeWhile_append_eq htaken htail, List.drop_left]
    rw [hbehind] at hquote
    have htail' := hresumes.forall_head htail fun d hd => (hdelimiter d hd).1
    have hbehind' : (taken ++ tail').dropWhile isWordChar = tail' := by
      rw [← drop_length_takeWhile, takeWhile_append_eq htaken htail', List.drop_left]
    have hquote' : ∀ d ∈ tail'.head?, d ≠ '\'' := by
      refine hresumes.forall_head (fun d hd => ?_) fun d hd => (hdelimiter d hd).2
      rintro rfl
      rw [hd] at hquote
      exact absurd hquote (by decide)
    have hnone : (tail'.head? != some '\'') = true := by
      rw [bne_iff_ne]
      exact fun hhead => hquote' _ hhead rfl
    refine ⟨fun d hd => isLineEnd_eq_false_of_ink (isBlank_eq_false_of_isWordChar ?_), ?_⟩
    · rcases List.mem_cons.mp hd with rfl | hd
      · exact (Bool.and_eq_true_iff.mp hc).1
      · exact htaken d hd
    · rw [List.cons_append, lifetimeRest?_cons hhost, hbehind', hc, hnone,
        takeWhile_append_eq htaken htail']
      rfl

/-- A string does not become a lifetime: its quote stands in it. -/
lemma lifetimeRest?_eq_none_of_string (h : lifetimeRest? host (taken ++ tail) = none)
    (hstring : stringRest? host '\'' (taken ++ tail) = some taken.length)
    (hpadded : Padded taken taken') : lifetimeRest? host (taken' ++ tail') = none := by
  have hquote : isWordChar '\'' = false := isWordChar_eq_false (by decide)
  by_cases hhost : host.hasLifetimes
  case neg => rw [lifetimeRest?.eq_def, if_neg hhost]
  have hlast := getLast?_take_stringRest hstring
  rw [List.take_left] at hlast
  cases hpadded with
  | nil => cases hlast
  | @cons c taken taken' n hend hrest =>
    rw [List.cons_append, lifetimeRest?_cons hhost] at h ⊢
    by_cases hc : isWordStart c
    case neg => rw [if_neg (by simp [hc])]
    have hchar : isWordChar c := (Bool.and_eq_true_iff.mp hc).1
    have hn : n = 0 := by
      by_contra hn
      have hink := isLineEnd_eq_false_of_ink (isBlank_eq_false_of_isWordChar hchar)
      rw [hink] at hend
      exact absurd (hend hn) (by simp)
    have hmem : '\'' ∈ taken := by
      rcases List.mem_cons.mp (List.mem_of_getLast? hlast) with rfl | hmem
      · rw [hquote] at hchar
        cases hchar
      · exact hmem
    obtain ⟨pre, x, post, rfl, hpre, hx⟩ : ∃ pre x post, taken = pre ++ x :: post ∧
        (∀ d ∈ pre, isWordChar d) ∧ isWordChar x = false := by
      obtain ⟨x, post, hdrop⟩ := List.exists_cons_of_ne_nil (l := taken.dropWhile isWordChar)
        fun hnil => absurd (List.dropWhile_eq_nil_iff.mp hnil _ hmem) (by simp [hquote])
      have hhead := List.head?_dropWhile_not isWordChar taken
      rw [hdrop] at hhead
      refine ⟨taken.takeWhile isWordChar, x, post, ?_, fun d hd => List.mem_takeWhile_imp hd, hhead⟩
      rw [← hdrop, List.takeWhile_append_dropWhile]
    have hbehind (rest : List Char) :
        ((pre ++ x :: rest).dropWhile isWordChar).head? = some x := by
      rw [List.dropWhile_append_of_pos hpre, List.dropWhile_cons, if_neg (by simp [hx])]
      rfl
    have hxquote : x = '\'' := by
      rw [List.append_assoc, List.cons_append, hbehind, hc] at h
      by_contra hne
      simp [hne] at h
    obtain ⟨first, second, rfl, hfirst, hsecond⟩ := hrest.split
    obtain rfl := hfirst.eq_self fun d hd =>
      isLineEnd_eq_false_of_ink (isBlank_eq_false_of_isWordChar (hpre d hd))
    obtain ⟨second, rfl, -⟩ := hsecond.of_cons (by rw [hxquote]; decide)
    rw [hn, List.replicate_zero, List.nil_append, List.append_assoc, List.cons_append, hbehind,
      hxquote]
    simp

/-- What is read at a character that starts neither a blank nor a comment nor a lifetime. -/
lemma read_eq {rest : List Char} (hlayout : ¬isLayout c)
    (hmark : ¬host.commentMark.isPrefixOf (c :: rest))
    (hlifetime : c = '\'' → lifetimeRest? host rest = none) :
    read host c rest =
      if c = '"' || c = '\'' then
        match stringRest? host c rest with
        | some more => .ok ⟨some .string, more⟩
        | none => .error .unterminatedString
      else if c.isDigit then .ok ⟨some .number, numberRest rest⟩
      else if isWordStart c then word c rest
      else match operator? c rest with
        | some lexeme => .ok lexeme
        | none => .error (.unexpectedCharacter c) := by
  have hnone : (if c = '\'' then lifetimeRest? host rest else none) = none := by
    split
    · rename_i hc
      exact hlifetime hc
    · rfl
  rw [read, if_neg hlayout, if_neg hmark]
  generalize (if c = '\'' then lifetimeRest? host rest else none) = more? at hnone ⊢
  subst hnone
  rfl

/-- What the python dialect reads at a character that starts neither a blank nor a comment. -/
lemma read_python {rest : List Char} (hlayout : ¬isLayout c) (hmark : c ≠ '#') :
    read (.dialect .python) c rest =
      if c = '"' || c = '\'' then
        match stringRest? (.dialect .python) c rest with
        | some more => .ok ⟨some .string, more⟩
        | none => .error .unterminatedString
      else if c.isDigit then .ok ⟨some .number, numberRest rest⟩
      else if isWordStart c then word c rest
      else match operator? c rest with
        | some lexeme => .ok lexeme
        | none => .error (.unexpectedCharacter c) :=
  read_eq hlayout (by simpa [Host.commentMark] using Ne.symm hmark) fun _ => rfl

/-- What is passed over is one blank, or a comment up to the end of its line. -/
lemma gap_cases {rest : List Char} {more : Nat} (h : read host c rest = .ok ⟨none, more⟩) :
    (isLayout c ∧ more = 0) ∨
      (host.commentMark.isPrefixOf (c :: rest) ∧ more = (rest.takeWhile (· != '\n')).length) := by
  by_cases hlayout : isLayout c
  · rw [read, if_pos hlayout] at h
    exact .inl ⟨hlayout, (Lexeme.mk.inj (Except.ok.inj h)).2.symm⟩
  by_cases hmark : host.commentMark.isPrefixOf (c :: rest)
  · rw [read, if_neg hlayout, if_pos hmark] at h
    exact .inr ⟨hmark, (Lexeme.mk.inj (Except.ok.inj h)).2.symm⟩
  rw [read, if_neg hlayout, if_neg hmark] at h
  split at h
  · cases h
  split at h
  · split at h <;> cases h
  split at h
  · cases h
  split at h
  · obtain ⟨kind, hkind, -⟩ := word_spec h
    cases hkind
  · cases hoperator : operator? c rest with
    | none =>
      rw [hoperator] at h
      cases h
    | some lexeme =>
      rw [hoperator] at h
      obtain rfl := Except.ok.inj h
      obtain ⟨kind, hkind, -⟩ := operator?_spec hoperator
      cases hkind

/-- No comment starts at a character where none started before. -/
lemma not_comment_of_resumes (h : ¬host.commentMark.isPrefixOf (c :: (taken ++ tail)))
    (hresumes : Resumes tail tail') (hpadded : Padded taken taken') :
    ¬host.commentMark.isPrefixOf (c :: (taken' ++ tail')) := by
  have hhead : (taken' ++ tail').head? = (taken ++ tail).head? ∨
      IsDelimited (taken' ++ tail') := by
    cases hpadded with
    | nil => exact hresumes.head
    | cons n hend hrest => exact .inl rfl
  have hslash : '/' ∉ ['(', ')', ','] := by decide
  rcases host with (_ | _) | _
  · simpa [Host.commentMark] using h
  · rw [List.isPrefixOf_iff_prefix] at h ⊢
    rintro hbegins
    obtain ⟨rfl, hsecond⟩ := List.cons_prefix_cons.mp hbegins
    obtain ⟨rest, hrest⟩ := hsecond
    rcases hhead with hhead | hdelimited
    · rw [← hrest] at hhead
      obtain ⟨rest', hrest'⟩ := List.head?_eq_some_iff.mp hhead.symm
      exact h (List.cons_prefix_cons.mpr ⟨rfl, ⟨rest', hrest'.symm⟩⟩)
    · exact hslash (hdelimited '/' (by rw [← hrest]; rfl))
  · simpa [Host.commentMark] using h

/-- A token is read alike with spaces behind the line ends in it and before another text that starts
in the same way. -/
lemma read_resumes {kind : TokenKind}
    (h : read host c (taken ++ tail) = .ok ⟨some kind, taken.length⟩)
    (hresumes : Resumes tail tail') :
    isLineEnd c = false ∧ ∀ taken', Padded taken taken' →
      read host c (taken' ++ tail') = .ok ⟨some kind, taken'.length⟩ := by
  by_cases hlayout : isLayout c
  · rw [read, if_pos hlayout] at h
    cases h
  by_cases hmark : host.commentMark.isPrefixOf (c :: (taken ++ tail))
  · rw [read, if_neg hlayout, if_pos hmark] at h
    cases h
  have hmark' {taken' : List Char} (hpadded : Padded taken taken') :=
    not_comment_of_resumes hmark hresumes hpadded
  by_cases hlifetime : c = '\'' ∧ ∃ n, lifetimeRest? host (taken ++ tail) = some n
  · obtain ⟨rfl, n, hn⟩ := hlifetime
    rw [read, if_neg hlayout, if_neg hmark, if_pos rfl, hn] at h
    obtain ⟨hkind, rfl⟩ := Lexeme.mk.inj (Except.ok.inj h)
    obtain ⟨hlines, hread⟩ := lifetimeRest?_resumes hn hresumes
    refine ⟨by decide, fun taken' hpadded => ?_⟩
    rw [read, if_neg hlayout, if_neg (hmark' hpadded), if_pos rfl, hpadded.eq_self hlines, hread,
      hkind]
  have hnone : c = '\'' → lifetimeRest? host (taken ++ tail) = none := fun hc =>
    Option.eq_none_iff_forall_ne_some.mpr fun n hn => hlifetime ⟨hc, n, hn⟩
  rw [read_eq hlayout hmark hnone] at h
  by_cases hquote : c = '"' || c = '\''
  · rw [if_pos hquote] at h
    have hquotes : c = '"' ∨ c = '\'' := by simpa using hquote
    cases hstring : stringRest? host c (taken ++ tail) with
    | none =>
      rw [hstring] at h
      cases h
    | some n =>
      rw [hstring] at h
      obtain ⟨hkind, rfl⟩ := Lexeme.mk.inj (Except.ok.inj h)
      refine ⟨isLineEnd_quote hquotes, fun taken' hpadded => ?_⟩
      have hnone' : c = '\'' → lifetimeRest? host (taken' ++ tail') = none := by
        rintro rfl
        exact lifetimeRest?_eq_none_of_string (hnone rfl) hstring hpadded
      rw [read_eq hlayout (hmark' hpadded) hnone', if_pos hquote,
        stringRest?_resumes hquotes hstring hresumes hpadded, hkind]
  have hother {taken' : List Char} (hpadded : Padded taken taken') :=
    read_eq hlayout (hmark' hpadded) fun hc => absurd (by simp [hc]) hquote
  rw [if_neg hquote] at h
  simp only [if_neg hquote] at hother
  by_cases hdigit : c.isDigit
  · rw [if_pos hdigit] at h
    simp only [if_pos hdigit] at hother
    obtain ⟨hkind, hlength⟩ := Lexeme.mk.inj (Except.ok.inj h)
    obtain ⟨hlines, hread⟩ := numberRest_resumes hlength hresumes
    refine ⟨isLineEnd_eq_false_of_isNumberPart (by simp [isNumberPart, hdigit]), ?_⟩
    intro taken' hpadded
    rw [hother hpadded, hpadded.eq_self hlines, hread, hkind]
  rw [if_neg hdigit] at h
  simp only [if_neg hdigit] at hother
  by_cases hword : isWordStart c
  · rw [if_pos hword] at h
    simp only [if_pos hword] at hother
    obtain ⟨hlines, hread⟩ := word_resumes h rfl hresumes
    have hc : isWordChar c := (Bool.and_eq_true_iff.mp hword).1
    refine ⟨isLineEnd_eq_false_of_ink (isBlank_eq_false_of_isWordChar hc), ?_⟩
    intro taken' hpadded
    rw [hother hpadded, hpadded.eq_self hlines, hread]
  · rw [if_neg hword] at h
    simp only [if_neg hword] at hother
    cases hoperator : operator? c (taken ++ tail) with
    | none =>
      rw [hoperator] at h
      cases h
    | some lexeme =>
      rw [hoperator] at h
      obtain rfl := Except.ok.inj h
      obtain ⟨hlines, hread⟩ := operator?_resumes hoperator hresumes.endsOperator
      refine ⟨hlines c List.mem_cons_self, fun taken' hpadded => ?_⟩
      rw [hother hpadded, hpadded.eq_self fun d hd => hlines d (List.mem_cons_of_mem _ hd), hread]

lemma read_layout {rest : List Char} (hc : isLayout c) :
    read host c rest = .ok ⟨none, 0⟩ := by
  rw [read, if_pos hc]

end Lexeme

namespace Lexes

variable {host : Host} {c : Char} {more more' cs ds : List Char} {parts : List Stretch}

/-- A blank that separates tokens is passed over. -/
lemma layout_cons (hc : Lexeme.isLayout c) (h : Lexes host more cs parts) :
    Lexes host more (c :: cs) (⟨none, [c]⟩ :: parts) := by
  have hread : Lexeme.read host c ([] ++ (cs ++ more)) =
      .ok ⟨none, ([] : List Char).length⟩ := Lexeme.read_layout hc
  exact .cons hread h

lemma spaces_append (n : Nat) (h : Lexes (.dialect .python) more cs parts) :
    ∃ gaps, Stretch.kinds gaps = [] ∧
      Lexes (.dialect .python) more (List.replicate n ' ' ++ cs) (gaps ++ parts) := by
  induction n with
  | zero => exact ⟨[], rfl, h⟩
  | succ n ih =>
    obtain ⟨gaps, hgaps, hread⟩ := ih
    exact ⟨⟨none, [' ']⟩ :: gaps, hgaps, hread.layout_cons rfl⟩

/-- A text that ends with a token is read alike when it is padded and a delimiter follows it, by
induction on its stretches. -/
theorem padded (h : Lexes (.dialect .python) more cs parts) (hends : Stretch.EndsInToken parts)
    (hmore' : Lexeme.IsDelimited more') (hpadded : Text.Padded cs ds) :
    ∃ parts', Lexes (.dialect .python) more' ds parts' ∧
      Stretch.kinds parts' = Stretch.kinds parts ∧ Stretch.EndsInToken parts' ∧
      ∀ s' ∈ parts'.head?, ∃ s ∈ parts.head?, s'.kind? = s.kind? := by
  induction h generalizing ds with
  | nil =>
    cases hpadded
    exact ⟨[], .nil, rfl, hends, by simp⟩
  | @cons c taken rest kind? parts hread hrest ih =>
    have hpadded : Text.Padded ((c :: taken) ++ rest) ds := hpadded
    obtain ⟨first, second, rfl, hfirst, hsecond⟩ := hpadded.split
    obtain ⟨parts', hread', hkinds, hends', -⟩ := ih hends.of_cons hsecond
    cases kind? with
    | some kind =>
      obtain ⟨hc, htoken⟩ := Lexeme.read_resumes hread (.of_padded hsecond hmore')
      obtain ⟨taken', rfl, htaken⟩ := hfirst.of_cons hc
      refine ⟨_, .cons (htoken taken' htaken) hread', ?_, hends'.cons fun _ => rfl, ?_⟩
      · rw [Stretch.kinds_cons, Stretch.kinds_cons, hkinds]
      · rintro s' ⟨⟩
        exact ⟨_, rfl, rfl⟩
    | none =>
      have hparts : parts ≠ [] := by
        rintro rfl
        exact absurd (hends _ rfl) (by simp)
      have hparts' : parts' ≠ [] := by
        rintro rfl
        exact hends.of_cons.kinds_ne_nil hparts hkinds.symm
      rcases Lexeme.gap_cases hread with ⟨hlayout, htaken⟩ | ⟨hmark, htaken⟩
      · obtain rfl := List.length_eq_zero_iff.mp htaken
        cases hfirst with
        | @cons _ _ _ n _ hnil =>
          cases hnil
          obtain ⟨gaps, hgaps, hspaces⟩ := hread'.spaces_append n
          rw [List.append_nil]
          refine ⟨_, hspaces.layout_cons hlayout, ?_, (hends'.append hparts').cons ?_, ?_⟩
          · rw [Stretch.kinds_cons, Stretch.kinds_cons, Stretch.kinds_append, hgaps, hkinds]
            rfl
          · intro hnil
            exact absurd (List.append_eq_nil_iff.mp hnil).2 hparts'
          · rintro s' ⟨⟩
            exact ⟨_, rfl, rfl⟩
      · obtain rfl : '#' = c := by simpa [Host.commentMark] using hmark
        obtain ⟨taken', rfl, htaken'⟩ := hfirst.of_cons (by decide)
        obtain ⟨hbody, hline⟩ := Lexeme.of_length_takeWhile htaken.symm
        have hbody' : ∀ d ∈ taken', (d != '\n') = true := htaken'.forall_mem hbody (by decide)
        have hline' : ∀ d ∈ (second ++ more').head?, (d != '\n') = false := by
          cases hsecond with
          | nil =>
            cases hread' with
            | nil => exact absurd rfl hparts'
          | cons n _ _ => exact hline
        have hcomment : Lexeme.read (.dialect .python) '#' (taken' ++ (second ++ more')) =
            .ok ⟨none, ((taken' ++ (second ++ more')).takeWhile (· != '\n')).length⟩ := rfl
        rw [Lexeme.takeWhile_append_eq hbody' hline'] at hcomment
        refine ⟨_, .cons hcomment hread', ?_, hends'.cons fun hnil => absurd hnil hparts', ?_⟩
        · rw [Stretch.kinds_cons, Stretch.kinds_cons, hkinds]
        · rintro s' ⟨⟩
          exact ⟨_, rfl, rfl⟩

end Lexes

end FieldComposition
