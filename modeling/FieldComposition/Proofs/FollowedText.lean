import FieldComposition.Proofs.SeparableText

/-!
# Text before another text

What is read from a text depends on what follows it by the last stretch alone (`Lexes.of_last`). So
a text that ends with a token is read alike before any delimiter (`Lexes.before_delimiter`), and one
that ends with a word before anything but a word character (`Lexes.before_nonword`). A sign is read
alone where no operator goes on with it (`Lexeme.read_sign`).
-/

namespace FieldComposition

namespace Lexeme

open Text

variable {host : Host} {c d : Char} {taken tail tail' rest : List Char} {kind : TokenKind}

lemma isDigit_eq_false (h : isWordChar c = false) : c.isDigit = false := by
  by_contra hdigit
  have hword : isWordChar c := by
    rw [isWordChar, isDecimalDigit_of_isDigit (by simpa using hdigit)]
    simp
  rw [h] at hword
  cases hword

/-- A stretch that is no token is read alike where the text behind it starts in the same way. -/
lemma gap_resumes (h : read host c (taken ++ tail) = .ok ⟨none, taken.length⟩)
    (hhead : tail'.head? = tail.head?) :
    read host c (taken ++ tail') = .ok ⟨none, taken.length⟩ := by
  by_cases hlayout : isLayout c
  · rw [read_layout hlayout] at h ⊢
    exact h
  obtain ⟨hmark, hlength⟩ := (gap_cases h).resolve_left fun hlayout' => hlayout hlayout'.1
  obtain ⟨htaken, htail⟩ := of_length_takeWhile hlength.symm
  obtain ⟨m, ms, hcomment, hms⟩ := exists_commentMark_eq_cons host
  have hmark' : host.commentMark.isPrefixOf (c :: (taken ++ tail')) := by
    rw [hcomment, List.isPrefixOf_iff_prefix, List.cons_prefix_cons] at hmark ⊢
    obtain ⟨rfl, rest, hrest⟩ := hmark
    have hbegins := congrArg (List.takeWhile (· != '\n')) hrest
    rw [takeWhile_append_eq htaken htail, List.takeWhile_append_of_pos hms] at hbegins
    exact ⟨rfl, _, (List.append_assoc ..).symm.trans (congrArg (· ++ tail') hbegins)⟩
  have htail' : ∀ d ∈ tail'.head?, (d != '\n') = false := by rwa [hhead]
  rw [read, if_neg hlayout, if_pos hmark', takeWhile_append_eq htaken htail']

lemma Resumes.of_append (hrest : rest ≠ []) (hdigit : ∀ d ∈ tail'.head?, d.isDigit = false) :
    Resumes (rest ++ tail) (rest ++ tail') := by
  obtain ⟨c, rest, rfl⟩ := List.exists_cons_of_ne_nil hrest
  refine ⟨.inl rfl, ?_⟩
  rintro ⟨d, more, hfraction, hd⟩
  obtain ⟨rfl, hbehind⟩ := List.cons.inj hfraction
  cases rest with
  | nil =>
    have hnone := hdigit d (by rw [show tail' = d :: more from hbehind]; rfl)
    rw [hnone] at hd
    cases hd
  | cons e rest =>
    obtain ⟨rfl, -⟩ := List.cons.inj hbehind
    exact ⟨e, rest ++ tail, rfl, hd⟩

/-- Whether an operator of several characters starts with these two. -/
def goesOn (c d : Char) : Bool :=
  longOperators.any fun e => [c, d].isPrefixOf e.1

/-- No operator goes on behind these characters. -/
lemma goesOn_mark (h : c ∈ ['{', '}', '[', ']', ',', '+']) : goesOn c d = false := by
  have hnone : ∀ e ∈ longOperators, ∀ x ∈ ['{', '}', '[', ']', ',', '+'], e.1.head? ≠ some x := by
    decide
  rw [goesOn, List.any_eq_false]
  intro e he hbegins
  obtain ⟨rest, hrest⟩ := List.isPrefixOf_iff_prefix.mp hbegins
  exact hnone e he c h (by rw [← hrest]; rfl)

/-- No operator goes on with a word character. -/
lemma goesOn_wordChar (h : isWordChar d) : goesOn c d = false := by
  have hbreaks : ∀ e ∈ longOperators, e.1 ⊆ wordBreaks := by decide
  rw [goesOn, List.any_eq_false]
  intro e he hbegins
  have hd : d ∈ e.1 := (List.isPrefixOf_iff_prefix.mp hbegins).subset (by simp)
  exact not_mem_wordBreaks h (hbreaks e he hd)

/-- Operators of one character, with which no comment starts. -/
def signs : List (Char × TokenKind) :=
  [('{', .openBrace), ('}', .closeBrace), ('[', .openBracket), (']', .closeBracket), (',', .comma),
   (':', .colon), ('&', .amp), ('+', .plus), ('>', .greater)]

lemma read_sign (h : (c, kind) ∈ signs) (hrest : ∀ d ∈ rest.head?, goesOn c d = false) :
    read host c rest = .ok ⟨some kind, 0⟩ := by
  have hsigns : ∀ sign ∈ signs, isLayout sign.1 = false ∧ (sign.1 ≠ '#' ∧ sign.1 ≠ '/') ∧
      (sign.1 ≠ '"' ∧ sign.1 ≠ '\'') ∧ sign.1.isDigit = false ∧
      sign.1 ∈ wordBreaks ∧ shortOperator? sign.1 = some sign.2 := by decide
  obtain ⟨hlayout, hmark, hquote, hdigit, hbreak, hshort⟩ := hsigns _ h
  dsimp only at hlayout hmark hquote hdigit hbreak hshort
  have hword := isWordStart_eq_false hbreak
  have hlength : ∀ e ∈ longOperators, 2 ≤ e.1.length := by decide
  have hfind : longOperators.find? (fun e => e.1.isPrefixOf (c :: rest)) = none := by
    rw [List.find?_eq_none]
    intro e he hbegins
    obtain ⟨x, y, more, hspelling⟩ : ∃ x y more, e.1 = x :: y :: more := by
      have htwo := hlength e he
      match hspelling : e.1 with
      | x :: y :: more => exact ⟨x, y, more, rfl⟩
      | [x] => rw [hspelling] at htwo; simp at htwo
      | [] => rw [hspelling] at htwo; simp at htwo
    rw [hspelling, List.isPrefixOf_iff_prefix] at hbegins
    obtain ⟨rfl, hsecond⟩ := List.cons_prefix_cons.mp hbegins
    obtain ⟨behind, rfl⟩ := hsecond
    have hgoes := hrest y rfl
    rw [goesOn, List.any_eq_false] at hgoes
    refine hgoes e he ?_
    rw [hspelling, List.isPrefixOf_iff_prefix]
    exact ⟨more, rfl⟩
  have hmark' : host.commentMark.isPrefixOf (c :: rest) = false := isPrefixOf_commentMark hmark
  have hoperator : operator? c rest = some ⟨some kind, 0⟩ := by
    rw [operator?, hfind]
    dsimp only
    rw [hshort]
    rfl
  rw [read_eq (by simp [hlayout]) (by simp [hmark']) fun hc => absurd hc hquote.2,
    if_neg (by simp [hquote]), if_neg (by simp [hdigit]), if_neg (by simp [hword]), hoperator]

/-- A sign is spelled in one way only. -/
lemma sign_of_read {n : Nat} (h : (c, kind) ∈ signs)
    (hread : read host d rest = .ok ⟨some kind, n⟩) : d = c ∧ n = 0 := by
  have hsigns : ∀ sign ∈ signs, sign.2 ∉ [.lifetime, .string, .number] ∧ sign.2.isWord = false ∧
      ∀ e ∈ longOperators, e.2 ≠ sign.2 := by decide
  obtain ⟨hother, hword, hlong⟩ := hsigns _ h
  dsimp only at hother hword hlong
  rcases read_token_cases hread with hkind | ⟨-, hread⟩ | hoperator
  · exact absurd hkind hother
  · rw [isWord_of_word hread] at hword
    cases hword
  · unfold operator? at hoperator
    split at hoperator
    · rename_i spelling kind' hfind
      obtain rfl := Option.some.inj (Lexeme.mk.inj (Option.some.inj hoperator)).1
      exact absurd rfl (hlong _ (List.mem_of_find?_eq_some hfind))
    · obtain ⟨kind', hshort, hlexeme⟩ := Option.map_eq_some_iff.mp hoperator
      obtain ⟨hkind, rfl⟩ := Lexeme.mk.inj hlexeme
      obtain rfl := Option.some.inj hkind
      refine ⟨?_, rfl⟩
      unfold shortOperator? at hshort
      split at hshort
      case h_15 =>
        split at hshort
        · obtain rfl := Option.some.inj hshort
          simp [signs] at h
        · cases hshort
      all_goals
        obtain rfl := Option.some.inj hshort
        revert h
        simp +contextual [signs]

end Lexeme

/-- The stretch is what is read at the front of its characters and more of them. -/
def Stretch.IsReadBefore (host : Host) (more : List Char) (s : Stretch) : Prop :=
  ∃ c taken, s.chars = c :: taken ∧
    Lexeme.read host c (taken ++ more) = .ok ⟨s.kind?, taken.length⟩

namespace Lexes

variable {host : Host} {cs more more' : List Char} {s : Stretch} {parts : List Stretch}

/-- By induction on the stretches: each but the last one stands before the next one. -/
lemma of_last (h : Lexes host more cs parts) (hdigit : ∀ d ∈ more'.head?, d.isDigit = false)
    (hlast : ∀ s ∈ parts.getLast?, s.IsReadBefore host more → s.IsReadBefore host more') :
    Lexes host more' cs parts := by
  induction h with
  | nil => exact .nil
  | @cons c taken rest kind? parts hread hrest ih =>
    cases hrest with
    | nil =>
      rw [List.nil_append] at hread
      obtain ⟨c', taken', hchars, hread'⟩ := hlast _ rfl ⟨c, taken, rfl, hread⟩
      obtain ⟨rfl, rfl⟩ := List.cons.inj hchars
      exact .cons hread' .nil
    | @cons d taken' rest' kind?' parts' hread' hrest' =>
      have htail := ih fun s hs => hlast s (by rw [List.getLast?_cons_cons]; exact hs)
      refine .cons ?_ htail
      cases kind? with
      | none => exact Lexeme.gap_resumes hread rfl
      | some kind =>
        have hresumes : Lexeme.Resumes (d :: (taken' ++ rest') ++ more)
            (d :: (taken' ++ rest') ++ more') := .of_append (List.cons_ne_nil _ _) hdigit
        exact (Lexeme.read_resumes hread hresumes).2 taken (.refl taken)

lemma before_delimiter (h : Lexes host more cs parts) (hends : Stretch.EndsInToken parts)
    (hmore' : Lexeme.IsDelimited more') : Lexes host more' cs parts := by
  have hnone : ∀ c ∈ ['(', ')', ','], c.isDigit = false ∧ c ≠ '.' := by decide
  refine h.of_last (fun d hd => (hnone d (hmore' d hd)).1) ?_
  rintro s hs ⟨c, taken, hchars, hread⟩
  obtain ⟨kind, hkind⟩ := Option.isSome_iff_exists.mp (hends s hs)
  have hresumes : Lexeme.Resumes more more' := by
    refine ⟨.inr hmore', ?_⟩
    rintro ⟨d, rest, rfl, -⟩
    have hdot := hmore' '.' rfl
    exact absurd rfl (hnone '.' hdot).2
  rw [hkind] at hread
  refine ⟨c, taken, hchars, ?_⟩
  rw [hkind]
  exact (Lexeme.read_resumes hread hresumes).2 taken (.refl taken)

lemma before_nonword (h : Lexes host more cs parts)
    (hword : ∀ s ∈ parts.getLast?, ∃ kind ∈ s.kind?, kind.isWord)
    (hmore' : ∀ d ∈ more'.head?, Text.isWordChar d = false) : Lexes host more' cs parts := by
  refine h.of_last (fun d hd => Lexeme.isDigit_eq_false (hmore' d hd)) ?_
  rintro s hs ⟨c, taken, hchars, hread⟩
  obtain ⟨kind, hkind, hisWord⟩ := hword s hs
  rw [hkind] at hread
  obtain ⟨hw, rfl, -⟩ := Lexeme.isWord_of_read hread hisWord
  refine ⟨c, taken, hchars, ?_⟩
  rw [hkind]
  exact Lexeme.read_word hw hmore'

/-- Each stretch is read before what follows it. -/
lemma isReadBefore (h : Lexes host more cs parts) (hs : s ∈ parts) :
    ∃ more', s.IsReadBefore host more' := by
  induction h with
  | nil => cases hs
  | @cons c taken rest kind? parts hread hrest ih =>
    rcases List.mem_cons.mp hs with rfl | hs
    · exact ⟨rest ++ more, c, taken, rfl, hread⟩
    · exact ih hs

/-- A sign is a text of its own where no operator goes on with it. -/
lemma sign {c : Char} {kind : TokenKind} (h : (c, kind) ∈ Lexeme.signs)
    (hmore : ∀ d ∈ more.head?, Lexeme.goesOn c d = false) :
    Lexes host more [c] [⟨some kind, [c]⟩] := by
  have hread : Lexeme.read host c ([] ++ more) = .ok ⟨some kind, ([] : List Char).length⟩ :=
    Lexeme.read_sign h hmore
  exact token hread

/-- A word is a text of its own where no word character follows it. -/
lemma ofWord (h : Text.IsWord cs) (hmore : ∀ d ∈ more.head?, Text.isWordChar d = false) :
    Lexes host more cs [⟨some (Lexeme.wordKind cs), cs⟩] := by
  obtain ⟨c, cs, rfl⟩ := List.exists_cons_of_ne_nil h.ne_nil
  exact token (Lexeme.read_word h hmore)

/-- A blank is a text of its own. -/
lemma blank : Lexes host more [' '] [⟨none, [' ']⟩] :=
  layout_cons rfl .nil

/-- What is read from a whole text is read from it before a new line. -/
lemma append_newline (h : Lexes host [] cs parts) : Lexes host ('\n' :: more) cs parts := by
  induction h with
  | nil => exact .nil
  | cons hread _ ih =>
    rw [List.append_nil] at hread
    obtain ⟨hread', -⟩ := Lexeme.read_append_newline hread
    rw [List.append_assoc] at hread'
    exact .cons hread' ih

end Lexes

end FieldComposition
