import FieldComposition.Proofs.MovedTokens
import FieldComposition.Proofs.IdentifierReading

/-!
# Logical lines

A text is one logical line of the python dialect if no newline stands between two of its tokens
outside brackets. A name that a text is assigned to adds no newline: the assignment is one logical
line exactly if the name is made of word characters and the text is one
(`Text.isLogicalLine_assignment_iff`).
-/

namespace FieldComposition

/-- How many more brackets are open behind a token of the kind. -/
def TokenKind.nesting (kind : TokenKind) : ℤ :=
  if kind.isOpener then 1 else if kind.isCloser then -1 else 0

namespace Token

/-- The places between two tokens where no bracket is open, when `depth` brackets are open before
the first one. -/
def gaps (depth : ℤ) : List Token → List (ℕ × ℕ)
  | t :: u :: rest =>
    let depth := depth + t.kind.nesting
    (if depth = 0 then [(t.stop, u.start)] else []) ++ gaps depth (u :: rest)
  | _ => []

end Token

/-- No newline stands between two tokens of a text outside brackets. -/
def Text.isLogicalLine (text : String) : Bool :=
  match Tokens.ofText (.dialect .python) text with
  | .error _ => false
  | .ok tokens => (Token.gaps 0 tokens.body).all fun gap =>
    '\n' ∉ (Text.slice text gap.1 gap.2).toList

namespace Token

/-- A token of the same kind, `k` characters further on. -/
structure IsShifted (k : ℕ) (t u : Token) : Prop where
  kind_eq : u.kind = t.kind
  start_eq : u.start = k + t.start
  stop_eq : u.stop = k + t.stop

lemma gaps_of_isShifted {k : ℕ} {ts us : List Token} (h : List.Forall₂ (IsShifted k) ts us)
    (depth : ℤ) : gaps depth us = (gaps depth ts).map fun gap => (k + gap.1, k + gap.2) := by
  induction h generalizing depth with
  | nil => rfl
  | cons hfirst hrest ih =>
    cases hrest with
    | nil => rfl
    | cons hnext hrest =>
      rw [gaps, gaps, hfirst.kind_eq, ih, hfirst.stop_eq, hnext.start_eq]
      split <;> rfl

end Token

lemma Stretch.forall₂_isShifted_tokens (k offset : ℕ) (p p' : Position) (parts : List Stretch) :
    List.Forall₂ (Token.IsShifted k) (tokens offset p parts) (tokens (k + offset) p' parts) := by
  induction parts generalizing offset p p' with
  | nil => exact .nil
  | cons s parts ih =>
    have hrest := ih (offset + s.chars.length) (p.advance s.chars) (p'.advance s.chars)
    rw [← Nat.add_assoc] at hrest
    rw [tokens, tokens]
    cases s.kind? with
    | none => exact hrest
    | some kind => exact .cons ⟨rfl, rfl, Nat.add_assoc ..⟩ hrest

lemma Text.slice_append (front text : String) (start stop : ℕ) :
    slice (front ++ text) (front.length + start) (front.length + stop) =
      slice text start stop := by
  have hlength : front.length + stop - (front.length + start) = stop - start := by omega
  rw [slice, slice, hlength, String.toList_append, ← String.length_toList, List.drop_append,
    List.drop_eq_nil_of_le (by omega), List.nil_append, Nat.add_sub_cancel_left]

/-- A name that the lexer reads before another text is made of word characters. -/
lemma Tokens.isWordChar_of_ofText {host : Host} {name text : String} {tokens : Tokens}
    (hname : Text.isIdentifier name.toList) (h : ofText host (name ++ text) = .ok tokens) :
    ∀ c ∈ name.toList, Text.isWordChar c := by
  cases hfind : name.toList.find? fun c => !Text.isWordChar c with
  | none => simpa using hfind
  | some c =>
    obtain ⟨hc, front, back, hsplit, hfront⟩ := List.find?_eq_some_iff_append.mp hfind
    have hfront : ∀ d ∈ front, Text.isWordChar d := by simpa using hfront
    have hc : Text.isWordChar c = false := by simpa using hc
    have herror : Lexeme.read host c (back ++ text.toList) = .error (.unexpectedCharacter c) :=
      Lexeme.read_eq_error
        (Text.isIdentifierPart_of_isIdentifier hname c (by rw [hsplit]; simp)) hc
    unfold ofText at h
    rw [String.toList_append, hsplit, List.append_assoc, List.cons_append] at h
    cases front with
    | nil =>
      rw [List.nil_append, scan, herror] at h
      cases h
    | cons d front =>
      rw [hsplit] at hname
      have hword : Text.IsWord (d :: front) :=
        ⟨((Text.isIdentifier_append (List.cons_ne_nil _ _)).mp hname).1, hfront⟩
      have hlexes : Lexes host (c :: (back ++ text.toList)) (d :: front) _ :=
        .ofWord hword (by simpa using hc)
      rw [hlexes.scan_append, scan, herror] at h
      cases h

namespace Text

/-- The characters between a name and a text that is assigned to it. -/
def assignment (name text : String) : String :=
  name ++ " = " ++ text

lemma lexes_name {name : String} (h : IsWord name.toList) (more : List Char) :
    Lexes (.dialect .python) more (name ++ " = ").toList
      [⟨some (Lexeme.wordKind name.toList), name.toList⟩, ⟨none, [' ']⟩, ⟨some .assign, ['=']⟩,
        ⟨none, [' ']⟩] := by
  have hsign : Lexeme.read (.dialect .python) '=' ([] ++ ([' '] ++ more)) =
      .ok ⟨some .assign, ([] : List Char).length⟩ := rfl
  have hbehind : Lexes (.dialect .python) more (['='] ++ [' ']) _ :=
    (Lexes.token hsign).append .blank
  have hblank : Lexes (.dialect .python) ((['='] ++ [' ']) ++ more) [' '] _ := .blank
  have hword : ∀ d ∈ (([' '] ++ (['='] ++ [' '])) ++ more).head?, isWordChar d = false := by
    intro d hd
    obtain rfl : ' ' = d := Option.some.inj hd
    exact isWordChar_eq_false (by decide)
  rw [String.toList_append]
  exact (Lexes.ofWord h hword).append (hblank.append hbehind)

/-- Tokens of an assignment: the name and the sign, with blanks around it, and those of the text. -/
structure IsAssignment (n : ℕ) (name sign : Token) (ts us : List Token) : Prop where
  nesting_name : name.kind.nesting = 0
  nesting_sign : sign.kind.nesting = 0
  name_stop : name.stop = n
  sign_start : sign.start = n + 1
  sign_stop : sign.stop = n + 2
  isShifted : List.Forall₂ (Token.IsShifted (n + 3)) ts us

/-- The places outside brackets in an assignment: around the sign, and those of the text. -/
lemma IsAssignment.gaps_eq {n : ℕ} {name sign : Token} {ts us : List Token}
    (h : IsAssignment n name sign ts us) : Token.gaps 0 (name :: sign :: us) = (n, n + 1) ::
      ((ts.head?.map fun t => (n + 2, n + 3 + t.start)).toList ++
        (Token.gaps 0 ts).map fun gap => (n + 3 + gap.1, n + 3 + gap.2)) := by
  rw [← Token.gaps_of_isShifted h.isShifted, Token.gaps, h.nesting_name, h.name_stop, h.sign_start]
  cases h.isShifted with
  | nil => rfl
  | cons hfirst hrest =>
    rw [Token.gaps, h.nesting_sign, h.sign_stop, hfirst.start_eq]
    rfl

lemma exists_ofText_assignment {name text : String} (hname : IsWord name.toList)
    {parts : List Stretch} (hlexes : Lexes (.dialect .python) [] text.toList parts) :
    ∃ tokens first sign us,
      Tokens.ofText (.dialect .python) (assignment name text) = .ok tokens ∧
      tokens.body = first :: sign :: us ∧
      IsAssignment name.length first sign (Stretch.tokens 0 .start parts) us := by
  have hfront := lexes_name hname (text.toList ++ [])
  have hline := hfront.append hlexes
  rw [← String.toList_append] at hline
  obtain ⟨tokens, htokens, hbody⟩ := Tokens.exists_ofText_of_lexes hline
  rw [Stretch.tokens_append, hfront.text_eq] at hbody
  have hinert := Lexeme.isInert_wordKind name.toList
  have hlength : name.toList.length = name.length := String.length_toList
  have hbehind : (name ++ " = ").toList.length = name.length + 3 := by
    rw [String.toList_append, List.length_append, hlength]
    rfl
  rw [hbehind, Nat.zero_add] at hbody
  refine ⟨tokens, _, _, _, htokens, hbody, ?_, rfl, ?_, ?_, ?_,
    Stretch.forall₂_isShifted_tokens _ 0 _ _ _⟩
  · simp [TokenKind.nesting, hinert.isOpener_eq, hinert.isCloser_eq]
  · simp [hlength]
  · simp [hlength]
  · simp [hlength]

lemma isLogicalLine_assignment_of_isWord {name text : String} (hname : IsWord name.toList)
    {parts : List Stretch} (hlexes : Lexes (.dialect .python) [] text.toList parts)
    (hstarts : ∀ s ∈ parts.head?, s.kind?.isSome) :
    isLogicalLine (assignment name text) = isLogicalLine text := by
  obtain ⟨tokens, htokens, hbody⟩ := Tokens.exists_ofText_of_lexes hlexes
  obtain ⟨tokens', first, sign, us, htokens', hbody', hassign⟩ :=
    exists_ofText_assignment hname hlexes
  have hslice (start stop : ℕ) : slice (assignment name text) (name.length + 3 + start)
      (name.length + 3 + stop) = slice text start stop := by
    have hlength : (name ++ " = ").length = name.length + 3 := by
      rw [String.length_append]
      rfl
    rw [← hlength]
    exact slice_append (name ++ " = ") text start stop
  have hblank (start stop : ℕ) : slice (assignment name text) (name.length + start)
      (name.length + stop) = slice (" = " ++ text) start stop := by
    rw [assignment, String.append_assoc]
    exact slice_append name (" = " ++ text) start stop
  have hblanks : slice (" = " ++ text) 0 1 = " " ∧ slice (" = " ++ text) 2 3 = " " := by
    simp [slice]
  have hstart : ∀ t ∈ tokens.body.head?, t.start = 0 :=
    hbody ▸ Stretch.start_of_head?_tokens hstarts
  rw [isLogicalLine, isLogicalLine, htokens, htokens']
  dsimp only
  rw [hbody', hassign.gaps_eq, ← hbody, List.all_cons, List.all_append, List.all_map]
  have hbefore : slice (assignment name text) name.length (name.length + 1) = " " :=
    (hblank 0 1).trans hblanks.1
  have hbehind : ∀ gap ∈ (tokens.body.head?.map fun t =>
      (name.length + 2, name.length + 3 + t.start)).toList,
      slice (assignment name text) gap.1 gap.2 = " " := by
    intro gap hgap
    obtain ⟨t, ht, rfl⟩ := Option.map_eq_some_iff.mp (Option.mem_toList.mp hgap)
    rw [hstart t ht]
    exact (hblank 2 3).trans hblanks.2
  have hsign : ((tokens.body.head?.map fun t =>
      (name.length + 2, name.length + 3 + t.start)).toList.all fun gap =>
        decide ('\n' ∉ (slice (assignment name text) gap.1 gap.2).toList)) = true := by
    rw [List.all_eq_true]
    intro gap hgap
    rw [hbehind gap hgap]
    decide
  rw [hsign, hbefore, Bool.true_and]
  simp only [Function.comp_def, hslice]
  rfl

theorem isLogicalLine_assignment_iff {name text : String} (hname : isIdentifier name.toList)
    {parts : List Stretch} (hlexes : Lexes (.dialect .python) [] text.toList parts)
    (hstarts : ∀ s ∈ parts.head?, s.kind?.isSome) :
    isLogicalLine (assignment name text) ↔
      (∀ c ∈ name.toList, isWordChar c) ∧ isLogicalLine text := by
  constructor
  · intro hline
    have hwords : ∀ c ∈ name.toList, isWordChar c := by
      cases htokens : Tokens.ofText (.dialect .python) (assignment name text) with
      | error error =>
        rw [isLogicalLine, htokens] at hline
        cases hline
      | ok tokens =>
        rw [assignment, String.append_assoc] at htokens
        exact Tokens.isWordChar_of_ofText hname htokens
    rw [isLogicalLine_assignment_of_isWord ⟨hname, hwords⟩ hlexes hstarts] at hline
    exact ⟨hwords, hline⟩
  · rintro ⟨hwords, htext⟩
    rwa [isLogicalLine_assignment_of_isWord ⟨hname, hwords⟩ hlexes hstarts]

end Text

example : Text.isLogicalLine "f(x,\n  y)[0] # the first\n" := by decide +kernel

end FieldComposition
