import FieldComposition.Proofs.CapturedText
import FieldComposition.Proofs.FollowedText

/-!
# Printed text

What has been read is printed in chunks: tokens, blanks, and the text of consecutive tokens. If each
chunk can stand before the next one, then the printed text is read as the same tokens at other
places (`Chunk.exists_replacement`).
-/

namespace FieldComposition

/-- A part of a printed text: a blank, a token, or the text of consecutive tokens. -/
inductive Chunk where
  | blank
  | token (t : Token)
  | run (ts : List Token)

namespace Chunk

/-- What is printed for tokens of a text. -/
def chars (text : String) : Chunk → List Char
  | blank => [' ']
  | token t => t.value.toList
  | run ts => (Token.textOf text ts).toList

def tokens : Chunk → List Token
  | blank => []
  | token t => [t]
  | run ts => ts

/-- The chunk is read as its tokens before any text that starts with this character, or before
none. -/
def Fits (host : Host) (text : String) (next : Option Char) (c : Chunk) : Prop :=
  ∀ more : List Char, more.head? = next → ∃ parts, Lexes host more (c.chars text) parts ∧
    Stretch.lexemes parts = c.tokens.map Token.lexeme ∧ ∀ ts, c = run ts → Stretch.IsSolid parts

/-- The first character of chunks and what follows them. -/
def first (text : String) (chunks : List Chunk) (next : Option Char) : Option Char :=
  (chunks.flatMap (chars text)).head?.or next

/-- Each chunk fits before the next one. -/
def FitAll (host : Host) (text : String) : List Chunk → Option Char → Prop
  | [], _ => True
  | c :: chunks, next => c.Fits host text (first text chunks next) ∧ FitAll host text chunks next

variable {host : Host} {text : String} {c : Chunk} {chunks chunks' : List Chunk}
  {next : Option Char} {more : List Char}

lemma first_append :
    first text (chunks ++ chunks') next = first text chunks (first text chunks' next) := by
  rw [first, List.flatMap_append, List.head?_append, Option.or_assoc]
  rfl

lemma fitAll_append : FitAll host text (chunks ++ chunks') next ↔
    FitAll host text chunks (first text chunks' next) ∧ FitAll host text chunks' next := by
  induction chunks with
  | nil => simp [FitAll]
  | cons c chunks ih => rw [List.cons_append, FitAll, FitAll, ih, first_append, and_assoc]

/-- The stretches that a chunk is read as stand behind those of the chunks before it. -/
def StandsIn (text : String) (chunks : List Chunk) (parts : List Stretch) : Prop :=
  ∀ before ts behind, chunks = before ++ run ts :: behind →
    ∃ front solid back, parts = front ++ (solid ++ back) ∧
      Stretch.lexemes front = (before.flatMap tokens).map Token.lexeme ∧
      Stretch.lexemes solid = ts.map Token.lexeme ∧
      Stretch.text solid = (Token.textOf text ts).toList ∧ Stretch.IsSolid solid

lemma exists_parts (h : FitAll host text chunks next) (hmore : more.head? = next) :
    ∃ parts, Lexes host more (chunks.flatMap (chars text)) parts ∧
      Stretch.lexemes parts = (chunks.flatMap tokens).map Token.lexeme ∧
      StandsIn text chunks parts := by
  induction chunks with
  | nil =>
    refine ⟨[], .nil, rfl, fun before ts behind hsplit => ?_⟩
    exact absurd hsplit.symm (by simp)
  | cons c chunks ih =>
    obtain ⟨hfits, hall⟩ := h
    obtain ⟨rest, hrest, hlexemes, hstands⟩ := ih hall
    have hhead : (chunks.flatMap (chars text) ++ more).head? = first text chunks next := by
      rw [List.head?_append, hmore]
      rfl
    obtain ⟨parts, hparts, hlexemes', hsolid⟩ := hfits _ hhead
    refine ⟨parts ++ rest, hparts.append hrest, ?_, fun before ts behind hsplit => ?_⟩
    · rw [Stretch.lexemes_append, hlexemes', hlexemes, ← List.map_append]
      rfl
    cases before with
    | nil =>
      obtain ⟨rfl, rfl⟩ := List.cons.inj hsplit
      exact ⟨[], parts, rest, rfl, rfl, hlexemes', hparts.text_eq, hsolid ts rfl⟩
    | cons c' before =>
      obtain ⟨rfl, hchunks⟩ := List.cons.inj hsplit
      obtain ⟨front, solid, back, rfl, hfront, hsolid⟩ := hstands before ts behind hchunks
      refine ⟨parts ++ front, solid, back, (List.append_assoc ..).symm, ?_, hsolid⟩
      rw [Stretch.lexemes_append, hlexemes', hfront, ← List.map_append]
      rfl

end Chunk

/-- Different things can be replaced one by one. -/
lemma exists_map_eq {α : Type} [DecidableEq α] {as bs : List α} (h : as.Nodup)
    (hlength : bs.length = as.length) : ∃ f, as.map f = bs := by
  refine ⟨fun a => bs.getD (as.idxOf a) a, List.ext_getElem (by simp [hlength]) fun n h₁ h₂ => ?_⟩
  simp [h.idxOf_getElem, List.getD_eq_getElem?_getD, List.getElem?_eq_getElem h₂]

namespace Chunk

variable {host : Host} {text : String} {chunks : List Chunk}

/-- Printed text is read as the tokens that have been printed. Those of a run have the same text as
before. -/
lemma exists_replacement (h : FitAll host text chunks none)
    (hnodup : (chunks.flatMap tokens).Nodup) {text' : String}
    (htext : text'.toList = chunks.flatMap (chars text)) :
    ∃ f eof, Tokens.ofText host text' = .ok ⟨(chunks.flatMap tokens).map f, eof⟩ ∧
      (∀ t ∈ chunks.flatMap tokens, (f t).lexeme = t.lexeme) ∧
      ∀ ts, run ts ∈ chunks → Token.textOf text' (ts.map f) = Token.textOf text ts := by
  have hend : ([] : List Char).head? = none := rfl
  obtain ⟨parts, hparts, hlexemes, hstands⟩ := exists_parts h hend
  rw [← htext] at hparts
  obtain ⟨tokens', htokens, hbody⟩ := Tokens.exists_ofText_of_lexes hparts
  have hlexemes' : tokens'.body.map Token.lexeme = (chunks.flatMap tokens).map Token.lexeme := by
    rw [hbody, Stretch.map_lexeme_tokens, hlexemes]
  have hlength : tokens'.body.length = (chunks.flatMap tokens).length := by
    simpa using congrArg List.length hlexemes'
  obtain ⟨f, hf⟩ := exists_map_eq hnodup hlength
  refine ⟨f, tokens'.eof, by rw [htokens, hf], ?_, fun ts hts => ?_⟩
  · rw [← hf, List.map_map] at hlexemes'
    exact fun t ht => List.map_inj_left.mp hlexemes' t ht
  · obtain ⟨before, behind, hsplit⟩ := List.append_of_mem hts
    obtain ⟨front, solid, back, rfl, hfront, hsolid, hchars, hends⟩ :=
      hstands before ts behind hsplit
    let p := Position.start.advance (Stretch.text front)
    let offset := (Stretch.text front).length
    have hsame : (before.flatMap tokens).map f ++ (ts.map f ++ (behind.flatMap tokens).map f) =
        Stretch.tokens 0 .start front ++ (Stretch.tokens offset p solid ++
          Stretch.tokens (offset + (Stretch.text solid).length) (p.advance (Stretch.text solid))
            back) := by
      rw [Stretch.tokens_append, Stretch.tokens_append, Nat.zero_add, ← hf, hsplit] at hbody
      rw [← hbody]
      simp [tokens]
    have hfront' : (Stretch.tokens 0 .start front).map Token.lexeme =
        (before.flatMap tokens).map Token.lexeme := by rw [Stretch.map_lexeme_tokens, hfront]
    have hsolid' : (Stretch.tokens offset p solid).map Token.lexeme = ts.map Token.lexeme := by
      rw [Stretch.map_lexeme_tokens, hsolid]
    obtain ⟨-, hrest⟩ := List.append_inj hsame
      (by simpa using (congrArg List.length hfront').symm)
    obtain ⟨hrun, -⟩ := List.append_inj hrest
      (by simpa using (congrArg List.length hsolid').symm)
    obtain ⟨first, last, hfirst, hlast, hstart, hstop⟩ : ∃ first last,
        (Stretch.tokens offset p solid).head? = some first ∧
          (Stretch.tokens offset p solid).getLast? = some last ∧ first.start = offset ∧
          last.stop = offset + (Stretch.text solid).length := hends.exists_ends
    have hall : text'.toList = Stretch.text front ++ (Stretch.text solid ++ Stretch.text back) := by
      rw [← hparts.text_eq, Stretch.text_append, Stretch.text_append]
    rw [hrun, Token.textOf_eq hfirst hlast, Text.slice, hall, hstart, hstop, List.drop_left,
      Nat.add_sub_cancel_left, List.take_left, hchars, String.ofList_toList]

end Chunk

lemma Stretch.exists_of_mem_tokens {parts : List Stretch} {offset : Nat} {p : Position} {t : Token}
    (h : t ∈ tokens offset p parts) :
    ∃ s ∈ parts, s.kind? = some t.kind ∧ t.value = String.ofList s.chars := by
  induction parts generalizing offset p with
  | nil => cases h
  | cons s parts ih =>
    rcases List.mem_append.mp h with hs | hparts
    · obtain ⟨kind, hkind, rfl⟩ := Option.map_eq_some_iff.mp (Option.mem_toList.mp hs)
      exact ⟨s, List.mem_cons_self, hkind, rfl⟩
    · obtain ⟨s', hs', hspells⟩ := ih hparts
      exact ⟨s', List.mem_cons_of_mem _ hs', hspells⟩

section

variable {host : Host} {text : String} {tokens : Tokens} {t : Token} {next : Option Char}
  (htokens : Tokens.ofText host text = .ok tokens)

include htokens

/-- Each token of a text is read at the front of its characters. -/
lemma Token.exists_read_of_mem (ht : t ∈ tokens.body) :
    ∃ c taken more, t.value.toList = c :: taken ∧
      Lexeme.read host c (taken ++ more) = .ok ⟨some t.kind, taken.length⟩ := by
  obtain ⟨parts, hparts, hbody⟩ := Lexes.exists_of_scan htokens
  rw [hbody] at ht
  obtain ⟨s, hs, hkind, hvalue⟩ := Stretch.exists_of_mem_tokens ht
  obtain ⟨more, c, taken, hchars, hread⟩ := hparts.isReadBefore hs
  refine ⟨c, taken, more, ?_, by rw [← hkind]; exact hread⟩
  rw [hvalue, String.toList_ofList, hchars]

lemma Token.isWord_of_mem (ht : t ∈ tokens.body) (hkind : t.kind.isWord) :
    Text.IsWord t.value.toList ∧ t.kind = Lexeme.wordKind t.value.toList := by
  obtain ⟨c, taken, more, hvalue, hread⟩ := exists_read_of_mem htokens ht
  obtain ⟨hword, hkind', -⟩ := Lexeme.isWord_of_read hread hkind
  rw [hvalue]
  exact ⟨hword, hkind'⟩

lemma Token.value_of_sign {c : Char} (ht : t ∈ tokens.body) (h : (c, t.kind) ∈ Lexeme.signs) :
    t.value.toList = [c] := by
  obtain ⟨d, taken, more, hvalue, hread⟩ := exists_read_of_mem htokens ht
  obtain ⟨rfl, hlength⟩ := Lexeme.sign_of_read h hread
  rw [hvalue, List.length_eq_zero_iff.mp hlength]

/-- The words `mut` and `in` are spelled in one way only. -/
lemma Token.value_of_keyword (ht : t ∈ tokens.body) :
    (t.kind = .wordMut → t.value = "mut") ∧ (t.kind = .wordIn → t.value = "in") := by
  have hkeyword {spelling : String} {kind : TokenKind} (hne : kind ≠ .ident)
      (h : kind = (Lexeme.keyword? spelling).getD .ident) :
      Lexeme.keyword? spelling = some kind := by
    cases hnone : Lexeme.keyword? spelling with
    | none => exact absurd (by rw [h, hnone]; rfl) hne
    | some kind' => rw [h, hnone]; rfl
  constructor
  all_goals
    intro hkind
    obtain ⟨-, hspells⟩ := isWord_of_mem htokens ht (by rw [hkind]; rfl)
    rw [hkind, Lexeme.wordKind, String.ofList_toList] at hspells
    have hsome := hkeyword (by decide) hspells
    unfold Lexeme.keyword? at hsome
    split at hsome
    all_goals first | assumption | cases hsome

namespace Chunk

omit htokens in
lemma fits_blank : Fits host text next blank := fun _ _ => ⟨_, .blank, rfl, nofun⟩

omit htokens in
lemma fits_of_lexes {kind : TokenKind} (hkind : t.kind = kind)
    (h : ∀ more : List Char, more.head? = next →
      Lexes host more t.value.toList [⟨some kind, t.value.toList⟩]) :
    Fits host text next (token t) := by
  intro more hmore
  refine ⟨_, h more hmore, ?_, nofun⟩
  simp [Stretch.lexemes, tokens, Token.lexeme, hkind]

/-- A word fits before anything but a word character. -/
lemma fits_word (ht : t ∈ tokens.body) (hkind : t.kind.isWord)
    (hnext : ∀ d ∈ next, Text.isWordChar d = false) : Fits host text next (token t) := by
  obtain ⟨hword, hkind'⟩ := Token.isWord_of_mem htokens ht hkind
  refine fits_of_lexes hkind' fun more hmore => ?_
  exact .ofWord hword (by rw [hmore]; exact hnext)

/-- A sign fits where no operator goes on with it. -/
lemma fits_sign {c : Char} (ht : t ∈ tokens.body) (h : (c, t.kind) ∈ Lexeme.signs)
    (hnext : ∀ d ∈ next, Lexeme.goesOn c d = false) : Fits host text next (token t) := by
  refine fits_of_lexes rfl fun more hmore => ?_
  rw [Token.value_of_sign htokens ht h]
  exact .sign h (by rw [hmore]; exact hnext)

variable {ts : List Token} (hts : ts <:+: tokens.body) (hne : ts ≠ [])

include hts hne

lemma exists_solid : ∃ more parts, Lexes host more (Token.textOf text ts).toList parts ∧
    Stretch.lexemes parts = ts.map Token.lexeme ∧ Stretch.IsSolid parts := by
  obtain ⟨before, behind, hbody⟩ := hts
  obtain ⟨more, parts, hlexes, hsolid, hlexemes, htext⟩ :=
    exists_stretches_of_ofText htokens (hbody.symm.trans (List.append_assoc ..)) hne
  obtain ⟨first, last, hfirst, hlast⟩ := exists_ends hne
  refine ⟨more, parts, ?_, hlexemes, hsolid⟩
  rw [Token.textOf_eq hfirst hlast, htext first hfirst last hlast, String.toList_ofList]
  exact hlexes

/-- The text of tokens fits before a delimiter. -/
lemma fits_run (hnext : ∀ d ∈ next, d ∈ ['(', ')', ',']) : Fits host text next (run ts) := by
  obtain ⟨more, parts, hlexes, hlexemes, hsolid⟩ := exists_solid htokens hts hne
  intro more' hmore'
  refine ⟨parts, hlexes.before_delimiter hsolid.ends ?_, hlexemes, fun _ _ => hsolid⟩
  intro d hd
  exact hnext d (hmore' ▸ hd)

/-- The text of tokens of which the last one is a word fits before anything but a word character. -/
lemma fits_run_of_word (hlast : ∀ t ∈ ts.getLast?, t.kind.isWord)
    (hnext : ∀ d ∈ next, Text.isWordChar d = false) : Fits host text next (run ts) := by
  obtain ⟨more, parts, hlexes, hlexemes, hsolid⟩ := exists_solid htokens hts hne
  intro more' hmore'
  refine ⟨parts, hlexes.before_nonword ?_ (by rw [hmore']; exact hnext), hlexemes,
    fun _ _ => hsolid⟩
  intro s hs
  obtain ⟨kind, hkind⟩ := Option.isSome_iff_exists.mp (hsolid.ends s hs)
  obtain ⟨front, hsplit⟩ := List.getLast?_eq_some_iff.mp hs
  have hend := congrArg List.getLast? hlexemes
  rw [hsplit, Stretch.lexemes_append, Stretch.lexemes_cons, hkind, List.getLast?_map] at hend
  simp only [Option.map_some, Option.toList_some, List.cons_append, List.getLast?_append,
    Stretch.lexemes, List.filterMap_nil, List.nil_append, List.getLast?_singleton,
    Option.some_or] at hend
  obtain ⟨t, ht, hlexeme⟩ := Option.map_eq_some_iff.mp hend.symm
  obtain rfl : t.kind = kind := congrArg Prod.fst hlexeme
  exact ⟨t.kind, hkind, hlast t ht⟩

end Chunk

end

end FieldComposition
