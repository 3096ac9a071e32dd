import FieldComposition.Proofs.FollowedText

/-!
# Identifiers as tokens

The lexer reads words, and words are not made of the same characters as identifiers: an identifier
may also go on with marks, such as vowel signs, accents that stand for themselves and the middle
dot. So an identifier that is no keyword is one token exactly if it is made of word characters, and
otherwise the text is refused at the first character that is none (`ofText_identifier`).
-/

namespace FieldComposition

namespace Text

/-- In ASCII, identifiers are made of word characters. -/
lemma isWordChar_of_isIdentifierPart {c : Char} (hc : c.toNat < 128) (h : isIdentifierPart c) :
    isWordChar c := by
  have hascii : ∀ n ∈ List.range 128,
      isIdentifierPart (Char.ofNat n) → isWordChar (Char.ofNat n) := by decide +kernel
  have hchar := hascii c.toNat (List.mem_range.mpr hc)
  rw [Char.ofNat_toNat] at hchar
  exact hchar h

end Text

namespace Lexeme

variable {host : Host} {c : Char} {rest : List Char}

lemma operator?_eq_none (hc : 128 ≤ c.toNat) : operator? c rest = none := by
  have hlong : ∀ e ∈ longOperators, e.1 ≠ [] ∧ ∀ d ∈ e.1, d.toNat < 128 := by decide
  have hfind : longOperators.find? (fun e => e.1.isPrefixOf (c :: rest)) = none := by
    rw [List.find?_eq_none]
    intro e he hbegins
    obtain ⟨hne, hall⟩ := hlong e he
    obtain ⟨d, more, hspelling⟩ := List.exists_cons_of_ne_nil hne
    rw [hspelling] at hbegins hall
    obtain ⟨rfl, -⟩ := List.cons_prefix_cons.mp (List.isPrefixOf_iff_prefix.mp hbegins)
    have hascii := hall d List.mem_cons_self
    omega
  have hshort : shortOperator? c = none := by
    unfold shortOperator?
    split
    case h_15 =>
      apply if_neg
      intro hmem
      have hsigns : ∀ d ∈ ['-', '*', '/', '%', '!', '^', '|', '~', '@', '?', '$', ';', '#'],
          d.toNat < 128 := by decide
      have hascii := hsigns c (by simpa using hmem)
      omega
    all_goals exact absurd hc (by decide)
  unfold operator?
  rw [hfind]
  dsimp only
  rw [hshort]
  rfl

/-- A character of an identifier that is no word character starts nothing. -/
lemma read_eq_error (hpart : Text.isIdentifierPart c) (hword : Text.isWordChar c = false) :
    read host c rest = .error (.unexpectedCharacter c) := by
  have hc : 128 ≤ c.toNat := by
    by_contra hlt
    rw [Text.isWordChar_of_isIdentifierPart (by omega) hpart] at hword
    cases hword
  have hne (d : Char) (hd : d.toNat < 128) : c ≠ d := by
    rintro rfl
    omega
  have hlayout : ¬isLayout c := by
    simp [isLayout, hne ' ' (by decide), hne '\t' (by decide), hne '\r' (by decide),
      hne '\n' (by decide)]
  have hmark : host.commentMark.isPrefixOf (c :: rest) = false :=
    isPrefixOf_commentMark ⟨hne '#' (by decide), hne '/' (by decide)⟩
  have hquote : ¬(c = '"' || c = '\'') = true := by
    simp [hne '"' (by decide), hne '\'' (by decide)]
  have hstart : ¬Text.isWordStart c := by simp [Text.isWordStart, hword]
  have hdigit : ¬c.isDigit := by simp [isDigit_eq_false hword]
  rw [read_eq hlayout (by simp [hmark]) fun hc => absurd (by simp [hc]) hquote, if_neg hquote,
    if_neg hdigit, if_neg hstart, operator?_eq_none hc]

end Lexeme

namespace Tokens

variable {host : Host} {s : String} {front back : List Char} {c : Char}

/-- An identifier is refused at its first character that is no word character. -/
lemma ofText_eq_error (hs : Text.isIdentifier s.toList) (hsplit : s.toList = front ++ c :: back)
    (hfront : ∀ d ∈ front, Text.isWordChar d) (hc : Text.isWordChar c = false) :
    ofText host s = .error (.fault (.unexpectedCharacter c) ⟨1, front.length + 1⟩) := by
  have hpart : Text.isIdentifierPart c :=
    Text.isIdentifierPart_of_isIdentifier hs c (by rw [hsplit]; simp)
  have herror : Lexeme.read host c back = .error (.unexpectedCharacter c) :=
    Lexeme.read_eq_error hpart hc
  unfold ofText
  rw [hsplit]
  cases front with
  | nil =>
    rw [List.nil_append, scan, herror]
    rfl
  | cons d front =>
    rw [hsplit] at hs
    have hword : Text.IsWord (d :: front) :=
      ⟨((Text.isIdentifier_append (List.cons_ne_nil _ _)).mp hs).1, hfront⟩
    have hread : Lexeme.read host d (front ++ c :: back) =
        .ok ⟨some (Lexeme.wordKind (d :: front)), front.length⟩ := by
      apply Lexeme.read_word hword
      intro e he
      obtain rfl : c = e := Option.some.inj he
      exact hc
    rw [List.cons_append, scan_cons hread]
    dsimp only
    rw [List.take_left, List.drop_left, hword.advance, scan, herror]
    simp [Position.start, Except.map, Int.add_comm]

/-- A word is one token. -/
lemma ofText_of_isWord (h : Text.IsWord s.toList) :
    ofText host s =
      .ok ⟨[⟨Lexeme.wordKind s.toList, s, 0, s.length, .start⟩], endOf s.toList⟩ := by
  have hlexes : Lexes host [] s.toList [⟨some (Lexeme.wordKind s.toList), s.toList⟩] :=
    .ofWord h nofun
  obtain ⟨⟨body, eof⟩, htokens, hbody⟩ := exists_ofText_of_lexes hlexes
  have htiles := ofText_tiles_text host s
  rw [htokens] at htiles
  have heof : eof = endOf s.toList := htiles.2.2
  have hlength : s.toList.length = s.length := String.length_toList
  dsimp only at hbody
  rw [htokens, hbody, heof]
  simp [Stretch.tokens, hlength]

end Tokens

/-- An identifier that is no keyword is one token if it is made of word characters, and is refused
at the first character that is none otherwise. -/
theorem ofText_identifier (host : Host) {s : String} (hs : Text.isIdentifier s.toList)
    (hkeyword : Lexeme.keyword? s = none) :
    (Tokens.ofText host s =
        .ok ⟨[⟨.ident, s, 0, s.length, .start⟩], Tokens.endOf s.toList⟩ ↔
      ∀ c ∈ s.toList, Text.isWordChar c) ∧
    ∀ front c back, s.toList = front ++ c :: back → (∀ d ∈ front, Text.isWordChar d) →
      Text.isWordChar c = false →
        Tokens.ofText host s =
          .error (.fault (.unexpectedCharacter c) ⟨1, front.length + 1⟩) := by
  have hkind : Lexeme.wordKind s.toList = .ident := by
    rw [Lexeme.wordKind, String.ofList_toList, hkeyword]
    rfl
  refine ⟨⟨?_, ?_⟩, fun front c back => Tokens.ofText_eq_error hs⟩
  · intro htokens
    cases hfind : s.toList.find? fun c => !Text.isWordChar c with
    | none => simpa using hfind
    | some c =>
      obtain ⟨hc, front, back, hsplit, hfront⟩ := List.find?_eq_some_iff_append.mp hfind
      rw [Tokens.ofText_eq_error hs hsplit (by simpa using hfront) (by simpa using hc)] at htokens
      cases htokens
  · intro hall
    rw [Tokens.ofText_of_isWord ⟨hs, hall⟩, hkind]

/-- A name in letters is one token, and one with a vowel sign is refused at the sign. -/
theorem ofText_identifier_vowelSign :
    let word := "données"
    let name := "नाम"
    (Text.isIdentifier word.toList ∧ Lexeme.keyword? word = none ∧
      Tokens.ofText (.dialect .python) word =
        .ok ⟨[⟨.ident, word, 0, word.length, .start⟩], Tokens.endOf word.toList⟩) ∧
    Text.isIdentifier name.toList ∧ Lexeme.keyword? name = none ∧
      Tokens.ofText (.dialect .python) name =
        .error (.fault (.unexpectedCharacter 'ा') ⟨1, 2⟩) := by
  intro word name
  have hword : Text.isIdentifier word.toList := by decide +kernel
  have hname : Text.isIdentifier name.toList := by decide +kernel
  have hread := (ofText_identifier (.dialect .python) hword (by decide)).1.mpr (by decide +kernel)
  have hrefused := (ofText_identifier (.dialect .python) hname (by decide)).2 ['न'] 'ा' ['म']
    (by decide) (by decide +kernel) (by decide +kernel)
  exact ⟨⟨hword, by decide, hread⟩, hname, by decide, hrefused⟩

/-- An identifier that is no keyword and no token: its accent is a character of its own. -/
theorem not_read_accent :
    Text.isIdentifier "café".toList ∧ Lexeme.keyword? "café" = none ∧
      ¬∃ t eof, Tokens.ofText (.dialect .python) "café" = .ok ⟨[t], eof⟩ ∧
        t.lexeme = (.ident, "café") := by
  refine ⟨by decide +kernel, by decide, ?_⟩
  have herror : Tokens.ofText (.dialect .python) "café" =
      .error (.fault (.unexpectedCharacter '́') ⟨1, 5⟩) := by decide +kernel
  rintro ⟨t, eof, htokens, -⟩
  rw [herror] at htokens
  cases htokens

end FieldComposition
