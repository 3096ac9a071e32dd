import FieldComposition.Proofs.EmbeddedText

/-!
# Stretches of a text

The lexer reads a text in stretches: tokens, blanks and comments. What it reads from a part of a
text depends on what follows the part (`Lexes`), so parts are put together and taken apart with
that in view. A text that is read to its end has the tokens of its stretches
(`exists_ofText_of_lexes`), and consecutive tokens of a text are read from a part of it that starts
and ends with a token (`exists_stretches_of_ofText`).
-/

namespace FieldComposition

/-- What is read at once: a token, or a blank or a comment, which has no kind. -/
structure Stretch where
  kind? : Option TokenKind
  chars : List Char
  deriving DecidableEq, Repr

namespace Stretch

def text (parts : List Stretch) : List Char :=
  parts.flatMap chars

def kinds (parts : List Stretch) : List TokenKind :=
  parts.filterMap kind?

/-- The kinds and the texts of the tokens. -/
def lexemes (parts : List Stretch) : List (TokenKind × String) :=
  parts.filterMap fun s => s.kind?.map fun kind => (kind, String.ofList s.chars)

/-- The tokens of stretches that start at an offset and a position. -/
def tokens (offset : Nat) (p : Position) : List Stretch → List Token
  | [] => []
  | s :: rest =>
    (s.kind?.map fun kind =>
      (⟨kind, String.ofList s.chars, offset, offset + s.chars.length, p⟩ : Token)).toList ++
        tokens (offset + s.chars.length) (p.advance s.chars) rest

/-- Stretches of which the last one is a token, if there is one. -/
def EndsInToken (parts : List Stretch) : Prop :=
  ∀ s ∈ parts.getLast?, s.kind?.isSome

/-- Stretches of which the first and the last one are tokens. -/
structure IsSolid (parts : List Stretch) : Prop where
  ne_nil : parts ≠ []
  starts : ∀ s ∈ parts.head?, s.kind?.isSome
  ends : EndsInToken parts

variable {offset : Nat} {p : Position} {s : Stretch} {parts more : List Stretch}

@[simp] lemma text_nil : text [] = [] := rfl

@[simp] lemma text_cons : text (s :: parts) = s.chars ++ text parts :=
  List.flatMap_cons

@[simp] lemma text_append : text (parts ++ more) = text parts ++ text more :=
  List.flatMap_append

@[simp] lemma kinds_nil : kinds [] = [] := rfl

lemma kinds_cons : kinds (s :: parts) = s.kind?.toList ++ kinds parts := by
  cases hkind : s.kind? <;> simp [kinds, hkind]

@[simp] lemma kinds_append : kinds (parts ++ more) = kinds parts ++ kinds more :=
  List.filterMap_append

lemma tokens_append : tokens offset p (parts ++ more) =
    tokens offset p parts ++
      tokens (offset + (text parts).length) (p.advance (text parts)) more := by
  induction parts generalizing offset p with
  | nil => rfl
  | cons s parts ih =>
    rw [List.cons_append, tokens, tokens, ih, text_cons, List.length_append,
      Position.advance_append, Nat.add_assoc, List.append_assoc]

lemma lexemes_cons : lexemes (s :: parts) =
    (s.kind?.map fun kind => (kind, String.ofList s.chars)).toList ++ lexemes parts := by
  cases hkind : s.kind? <;> simp [lexemes, hkind]

@[simp] lemma lexemes_append : lexemes (parts ++ more) = lexemes parts ++ lexemes more :=
  List.filterMap_append

lemma map_lexeme_tokens : (tokens offset p parts).map Token.lexeme = lexemes parts := by
  induction parts generalizing offset p with
  | nil => rfl
  | cons s parts ih =>
    rw [tokens, List.map_append, ih, lexemes_cons]
    cases s.kind? <;> rfl

lemma map_fst_lexemes : (lexemes parts).map Prod.fst = kinds parts := by
  induction parts with
  | nil => rfl
  | cons s parts ih =>
    rw [lexemes_cons, List.map_append, ih, kinds_cons]
    cases s.kind? <;> rfl

lemma map_kind_tokens : (tokens offset p parts).map Token.kind = kinds parts := by
  have hlexemes : (tokens offset p parts).map Token.lexeme = lexemes parts := map_lexeme_tokens
  rw [← map_fst_lexemes, ← hlexemes, List.map_map]
  rfl

lemma tokens_of_gaps (h : kinds parts = []) : tokens offset p parts = [] := by
  have hkinds : (tokens offset p parts).map Token.kind = [] := map_kind_tokens.trans h
  exact List.map_eq_nil_iff.mp hkinds

/-- Where the first stretch is a token, it is the first token. -/
lemma start_of_head?_tokens (h : ∀ s ∈ parts.head?, s.kind?.isSome) :
    ∀ t ∈ (tokens offset p parts).head?, t.start = offset := by
  intro t ht
  cases parts with
  | nil => cases ht
  | cons s rest =>
    obtain ⟨kind, hkind⟩ := Option.isSome_iff_exists.mp (h s rfl)
    rw [tokens, hkind] at ht
    obtain rfl := Option.some.inj ht
    rfl

lemma EndsInToken.of_cons (h : EndsInToken (s :: parts)) : EndsInToken parts := by
  intro t ht
  refine h t ?_
  rw [List.getLast?_cons, ht]
  rfl

lemma EndsInToken.cons (h : EndsInToken parts) (hs : parts = [] → s.kind?.isSome) :
    EndsInToken (s :: parts) := by
  intro t ht
  cases parts with
  | nil =>
    obtain rfl : s = t := Option.some.inj ht
    exact hs rfl
  | cons s' parts => exact h t ht

lemma EndsInToken.kinds_ne_nil (h : EndsInToken parts) (hne : parts ≠ []) : kinds parts ≠ [] := by
  obtain ⟨front, last, rfl⟩ := (List.eq_nil_or_concat' parts).resolve_left hne
  obtain ⟨kind, hkind⟩ := Option.isSome_iff_exists.mp (h last (by simp))
  rw [kinds_append, kinds_cons, hkind]
  simp

lemma EndsInToken.append (h : EndsInToken more) (hne : more ≠ []) :
    EndsInToken (parts ++ more) := by
  intro t ht
  rw [List.getLast?_append_of_ne_nil _ hne] at ht
  exact h t ht

lemma IsSolid.append (h : IsSolid parts) (h' : IsSolid more) : IsSolid (parts ++ more) := by
  obtain ⟨s, rest, rfl⟩ := List.exists_cons_of_ne_nil h.ne_nil
  exact ⟨by simp, h.starts, h'.ends.append h'.ne_nil⟩

/-- A solid part starts with its first token and ends with its last one. -/
lemma IsSolid.exists_ends (h : IsSolid parts) : ∃ first last,
    (tokens offset p parts).head? = some first ∧ (tokens offset p parts).getLast? = some last ∧
      first.start = offset ∧ last.stop = offset + (text parts).length := by
  obtain ⟨s, rest, rfl⟩ := List.exists_cons_of_ne_nil h.ne_nil
  obtain ⟨first, hfirst⟩ : ∃ first, (tokens offset p (s :: rest)).head? = some first ∧
      first.start = offset := by
    obtain ⟨kind, hkind⟩ := Option.isSome_iff_exists.mp (h.starts s rfl)
    rw [tokens, hkind]
    exact ⟨_, rfl, rfl⟩
  obtain ⟨front, last, hparts⟩ := (List.eq_nil_or_concat' (s :: rest)).resolve_left h.ne_nil
  obtain ⟨kind, hkind⟩ := Option.isSome_iff_exists.mp (h.ends last (by rw [hparts]; simp))
  have hlast : ∃ t, (tokens offset p (s :: rest)).getLast? = some t ∧
      t.stop = offset + (text (s :: rest)).length := by
    rw [hparts, tokens_append, tokens, hkind]
    refine ⟨_, List.getLast?_append_of_ne_nil _ (by simp), ?_⟩
    simp [Nat.add_assoc, tokens]
  obtain ⟨t, hlast, hstop⟩ := hlast
  exact ⟨first, t, hfirst.1, hlast, hfirst.2, hstop⟩

lemma kinds_of_lexemes {ts : List Token} (h : lexemes parts = ts.map Token.lexeme) :
    kinds parts = ts.map Token.kind := by
  rw [← map_fst_lexemes, h, List.map_map]
  rfl

end Stretch

/-- The lexer reads the stretches `parts` from the text `cs` when `more` follows it. -/
inductive Lexes (host : Host) (more : List Char) : List Char → List Stretch → Prop
  | nil : Lexes host more [] []
  | cons {c : Char} {taken rest : List Char} {kind? : Option TokenKind} {parts : List Stretch}
      (hread : Lexeme.read host c (taken ++ (rest ++ more)) = .ok ⟨kind?, taken.length⟩)
      (hrest : Lexes host more rest parts) :
      Lexes host more (c :: (taken ++ rest)) (⟨kind?, c :: taken⟩ :: parts)

namespace Lexes

variable {host : Host} {more cs ds : List Char} {parts parts' : List Stretch}

lemma text_eq (h : Lexes host more cs parts) : Stretch.text parts = cs := by
  induction h with
  | nil => rfl
  | cons _ _ ih =>
    rw [Stretch.text_cons, ih]
    rfl

lemma append (h : Lexes host (ds ++ more) cs parts) (h' : Lexes host more ds parts') :
    Lexes host more (cs ++ ds) (parts ++ parts') := by
  induction h with
  | nil => exact h'
  | @cons c taken rest kind? parts hread _ ih =>
    have hread' : Lexeme.read host c (taken ++ ((rest ++ ds) ++ more)) =
        .ok ⟨kind?, taken.length⟩ := by
      rwa [List.append_assoc rest]
    have h : Lexes host more (c :: (taken ++ (rest ++ ds))) _ := .cons hread' ih
    rw [List.cons_append, List.append_assoc]
    exact h

lemma split (h : Lexes host more cs (parts ++ parts')) :
    Lexes host (Stretch.text parts' ++ more) (Stretch.text parts) parts ∧
      Lexes host more (Stretch.text parts') parts' := by
  induction parts generalizing cs with
  | nil =>
    refine ⟨.nil, ?_⟩
    rw [List.nil_append] at h
    rwa [h.text_eq]
  | cons s parts ih =>
    rw [List.cons_append] at h
    cases h with
    | @cons c taken rest kind? _ hread hrest =>
      obtain ⟨hparts, hparts'⟩ := ih hrest
      have htext : Stretch.text (parts ++ parts') = rest := hrest.text_eq
      rw [Stretch.text_append] at htext
      refine ⟨?_, hparts'⟩
      rw [← htext, List.append_assoc] at hread
      exact .cons hread hparts

/-- The tokens of a text are those of the stretches it starts with, and those of what follows. -/
lemma scan_append (h : Lexes host more cs parts) (offset : Nat) (p : Position) :
    Tokens.scan host offset p (cs ++ more) =
      (Tokens.scan host (offset + cs.length) (p.advance cs) more).map
        (Tokens.append (Stretch.tokens offset p parts)) := by
  induction h generalizing offset p with
  | nil =>
    rw [List.nil_append, List.length_nil, Nat.add_zero, Position.advance_nil]
    cases Tokens.scan host offset p more <;> rfl
  | @cons c taken rest kind? parts hread _ ih =>
    have hlength : offset + (c :: taken).length + rest.length =
        offset + (c :: (taken ++ rest)).length := by
      simp only [List.length_cons, List.length_append]
      omega
    have hadvance : (p.advance (c :: taken)).advance rest = p.advance (c :: (taken ++ rest)) := by
      rw [← Position.advance_append, List.cons_append]
    rw [List.cons_append, List.append_assoc, Tokens.scan_cons hread]
    dsimp only
    rw [List.take_left, List.drop_left, ih, hlength, hadvance]
    cases Tokens.scan host (offset + (c :: (taken ++ rest)).length)
        (p.advance (c :: (taken ++ rest))) more with
    | error error => rfl
    | ok behind => cases kind? <;> rfl

/-- A text that is read to its end has the tokens of its stretches. -/
lemma exists_scan (h : Lexes host [] cs parts) (offset : Nat) (p : Position) :
    ∃ eof, Tokens.scan host offset p cs = .ok ⟨Stretch.tokens offset p parts, eof⟩ := by
  have hscan := h.scan_append offset p
  rw [List.append_nil, Tokens.scan, Except.map, Tokens.append, List.append_nil] at hscan
  exact ⟨_, hscan⟩

lemma exists_of_scan {offset : Nat} {p : Position} {tokens : Tokens}
    (h : Tokens.scan host offset p cs = .ok tokens) :
    ∃ parts, Lexes host [] cs parts ∧ tokens.body = Stretch.tokens offset p parts := by
  induction hn : cs.length using Nat.strong_induction_on generalizing offset p cs tokens with
  | _ n ih =>
    cases cs with
    | nil =>
      rw [Tokens.scan] at h
      obtain rfl := Except.ok.inj h
      exact ⟨[], .nil, rfl⟩
    | cons c rest =>
      obtain ⟨lexeme, behind, hread, hscan, rfl⟩ := Tokens.exists_of_scan_cons h
      have hshort : (rest.drop lexeme.more).length < n := by
        rw [← hn, List.length_drop, List.length_cons]
        omega
      obtain ⟨parts, hparts, hbody⟩ := ih _ hshort hscan rfl
      have hnewline : Lexeme.read host c (rest ++ '\n' :: []) = .ok lexeme ∧
          lexeme.more ≤ rest.length := Lexeme.read_append_newline hread
      have hle := hnewline.2
      have hlength : (rest.take lexeme.more).length = lexeme.more := List.length_take_of_le hle
      have hread' : Lexeme.read host c (rest.take lexeme.more ++ (rest.drop lexeme.more ++ [])) =
          .ok ⟨lexeme.kind?, (rest.take lexeme.more).length⟩ := by
        rw [List.append_nil, List.take_append_drop, hlength]
        exact hread
      have hlexes := cons hread' hparts
      rw [List.take_append_drop] at hlexes
      refine ⟨_, hlexes, ?_⟩
      rw [Stretch.tokens, ← hbody]
      cases lexeme.kind? <;> rfl

end Lexes

lemma Tokens.exists_ofText_of_lexes {host : Host} {text : String} {parts : List Stretch}
    (h : Lexes host [] text.toList parts) :
    ∃ tokens, ofText host text = .ok tokens ∧ tokens.body = Stretch.tokens 0 .start parts := by
  obtain ⟨eof, hscan⟩ := h.exists_scan 0 .start
  exact ⟨_, hscan, rfl⟩

namespace Stretch

variable {offset : Nat} {p : Position} {parts : List Stretch}

/-- The first tokens of stretches are those of the stretches up to the last of these tokens. -/
lemma exists_front {front behind : List Token} (h : tokens offset p parts = front ++ behind) :
    ∃ first second, parts = first ++ second ∧ tokens offset p first = front ∧
      tokens (offset + (text first).length) (p.advance (text first)) second = behind ∧
      EndsInToken first := by
  induction parts generalizing offset p front with
  | nil =>
    obtain ⟨rfl, rfl⟩ := List.append_eq_nil_iff.mp h.symm
    exact ⟨[], [], rfl, rfl, rfl, nofun⟩
  | cons s parts ih =>
    cases front with
    | nil => exact ⟨[], s :: parts, rfl, rfl, h, nofun⟩
    | cons t front =>
      rw [tokens] at h
      cases hkind : s.kind? with
      | none =>
        rw [hkind] at h
        obtain ⟨first, second, rfl, hfirst, hsecond, hends⟩ := ih h
        refine ⟨s :: first, second, rfl, ?_, ?_, ?_⟩
        · rw [tokens, hkind]
          exact hfirst
        · rw [text_cons, List.length_append, Position.advance_append, ← Nat.add_assoc]
          exact hsecond
        · refine hends.cons ?_
          rintro rfl
          cases hfirst
      | some kind =>
        rw [hkind] at h
        obtain ⟨hhead, htail⟩ := List.cons.inj h
        obtain ⟨first, second, rfl, hfirst, hsecond, hends⟩ := ih htail
        refine ⟨s :: first, second, rfl, ?_, ?_, ?_⟩
        · rw [tokens, hkind, hfirst, ← hhead]
          rfl
        · rw [text_cons, List.length_append, Position.advance_append, ← Nat.add_assoc]
          exact hsecond
        · exact hends.cons fun _ => by rw [hkind, Option.isSome_some]

/-- Tokens are those of a solid part with gaps before it. -/
lemma exists_solid (hne : tokens offset p parts ≠ [])
    (hends : EndsInToken parts) :
    ∃ gaps solid, parts = gaps ++ solid ∧ kinds gaps = [] ∧ IsSolid solid := by
  induction parts generalizing offset p with
  | nil => exact absurd rfl hne
  | cons s parts ih =>
    cases hkind : s.kind? with
    | some kind =>
      exact ⟨[], s :: parts, rfl, rfl, by simp, by simp [hkind], hends⟩
    | none =>
      rw [tokens, hkind] at hne
      obtain ⟨gaps, solid, heq, hgaps, hsolid⟩ := ih hne hends.of_cons
      refine ⟨s :: gaps, solid, by rw [heq, List.cons_append], ?_, hsolid⟩
      rw [kinds_cons, hkind, hgaps]
      rfl

end Stretch

/-- Consecutive tokens of a text are read from the part of it between the first and the last one. -/
lemma exists_stretches_of_ofText {host : Host} {text : String} {tokens : Tokens}
    (h : Tokens.ofText host text = .ok tokens) {before front behind : List Token}
    (hbody : tokens.body = before ++ (front ++ behind)) (hne : front ≠ []) :
    ∃ more parts, Lexes host more (Stretch.text parts) parts ∧ Stretch.IsSolid parts ∧
      Stretch.lexemes parts = front.map Token.lexeme ∧
      ∀ first ∈ front.head?, ∀ last ∈ front.getLast?,
        Text.slice text first.start last.stop = String.ofList (Stretch.text parts) := by
  obtain ⟨all, hlexes, hall⟩ := Lexes.exists_of_scan h
  obtain ⟨start, rest, rfl, -, hrest, -⟩ := Stretch.exists_front (hall.symm.trans hbody)
  obtain ⟨padded, behind', rfl, hpadded, -, hends⟩ := Stretch.exists_front hrest
  obtain ⟨gaps, solid, rfl, hgaps, hsolid⟩ :=
    Stretch.exists_solid (by rwa [hpadded]) hends
  rw [Stretch.tokens_append, Stretch.tokens_of_gaps hgaps, List.nil_append] at hpadded
  obtain ⟨first, last, hfirst, hlast, hstart, hstop⟩ := hsolid.exists_ends
  rw [hpadded] at hfirst hlast
  rw [List.append_assoc] at hlexes
  refine ⟨_, solid, hlexes.split.2.split.2.split.1, hsolid, ?_, ?_⟩
  · rw [← hpadded, Stretch.map_lexeme_tokens]
  · intro first' hfirst' last' hlast'
    obtain rfl : first = first' := Option.some.inj (hfirst.symm.trans hfirst')
    obtain rfl : last = last' := Option.some.inj (hlast.symm.trans hlast')
    have htext := hlexes.text_eq
    simp only [Stretch.text_append] at htext
    rw [Text.slice, ← htext, hstart, hstop, Nat.zero_add, ← List.length_append,
      ← List.append_assoc, List.drop_left, Nat.add_sub_cancel_left, List.take_left]

end FieldComposition
