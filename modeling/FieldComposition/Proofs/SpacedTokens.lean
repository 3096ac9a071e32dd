import FieldComposition.Proofs.PrintedText

/-!
# Tokens with single blanks between them

Where a token ends is decided by the characters behind it, but no token goes on over a blank or the
end of the text (`Lexeme.read_before_layout`). So the tokens of a text can be laid out anew with a
single blank between each two, and they are read again as they were (`ofText_spaced`).
-/

namespace FieldComposition

/-- A token is read alike at the end of a text and before a blank, whatever stood behind it. -/
lemma Lexeme.read_before_layout {host : Host} {c : Char} {taken tail more : List Char}
    {kind : TokenKind} (h : read host c (taken ++ tail) = .ok ⟨some kind, taken.length⟩)
    (hmore : ∀ d ∈ more.head?, isLayout d) :
    read host c (taken ++ more) = .ok ⟨some kind, taken.length⟩ := by
  have hend : Resumes tail [] := by
    constructor
    · right
      intro d hd
      cases hd
    · rintro ⟨d, rest, hnil, -⟩
      cases hnil
  have halone := (read_resumes h hend).2 taken (.refl taken)
  cases more with
  | nil => exact halone
  | cons d more =>
    rw [List.append_nil] at halone
    exact (read_append_layout (hmore d rfl) halone nofun).1

namespace Tokens

/-- The texts of tokens with single blanks between them. -/
def spaced (ts : List Token) : String :=
  " ".intercalate (ts.map Token.value)

lemma spaced_cons_cons (t u : Token) (ts : List Token) :
    (spaced (t :: u :: ts)).toList = t.value.toList ++ ([' '] ++ (spaced (u :: ts)).toList) := by
  unfold spaced
  rw [List.map_cons, List.map_cons, String.intercalate_cons_cons, String.toList_append,
    String.toList_append, List.append_assoc]
  rfl

/-- By induction on the tokens: each but the last one stands before a blank. -/
lemma exists_lexes_spaced {host : Host} {ts : List Token}
    (h : ∀ t ∈ ts, ∃ c taken tail, t.value.toList = c :: taken ∧
      Lexeme.read host c (taken ++ tail) = .ok ⟨some t.kind, taken.length⟩) :
    ∃ parts, Lexes host [] (spaced ts).toList parts ∧
      Stretch.lexemes parts = ts.map Token.lexeme := by
  have htoken : ∀ t ∈ ts, ∀ more : List Char, (∀ d ∈ more.head?, Lexeme.isLayout d) →
      Lexes host more t.value.toList [⟨some t.kind, t.value.toList⟩] := by
    intro t ht more hmore
    obtain ⟨c, taken, tail, hvalue, hread⟩ := h t ht
    have hbefore := Lexeme.read_before_layout hread hmore
    rw [hvalue]
    exact .token hbefore
  have hlexeme (t : Token) : Stretch.lexemes [⟨some t.kind, t.value.toList⟩] = [t.lexeme] := by
    simp [Stretch.lexemes, Token.lexeme]
  clear h
  induction ts with
  | nil => exact ⟨[], .nil, rfl⟩
  | cons t ts ih =>
    cases ts with
    | nil =>
      have hlast := htoken t List.mem_cons_self [] (by simp)
      have hspaced : spaced [t] = t.value := String.intercalate_singleton
      rw [hspaced]
      exact ⟨_, hlast, hlexeme t⟩
    | cons u ts =>
      obtain ⟨parts, hparts, hlexemes⟩ := ih fun t' ht' => htoken t' (List.mem_cons_of_mem _ ht')
      have hbefore := htoken t List.mem_cons_self ([' '] ++ (spaced (u :: ts)).toList ++ []) (by
        intro d hd
        obtain rfl : ' ' = d := Option.some.inj hd
        rfl)
      have hblank : Lexes host ((spaced (u :: ts)).toList ++ []) [' '] [⟨none, [' ']⟩] := .blank
      rw [spaced_cons_cons]
      refine ⟨_, hbefore.append (hblank.append hparts), ?_⟩
      rw [Stretch.lexemes_append, Stretch.lexemes_append, hlexeme, hlexemes]
      rfl

end Tokens

/-- The tokens of a text are read again, kind by kind and value by value, when they are written with
single blanks between them. -/
theorem ofText_spaced {host : Host} {text : String} {tokens : Tokens}
    (h : Tokens.ofText host text = .ok tokens) :
    ∃ tokens', Tokens.ofText host (Tokens.spaced tokens.body) = .ok tokens' ∧
      tokens'.toList.map Token.lexeme = tokens.toList.map Token.lexeme := by
  have hread : ∀ t ∈ tokens.body, ∃ c taken tail, t.value.toList = c :: taken ∧
      Lexeme.read host c (taken ++ tail) = .ok ⟨some t.kind, taken.length⟩ :=
    fun t ht => Token.exists_read_of_mem h ht
  obtain ⟨parts, hparts, hlexemes⟩ := Tokens.exists_lexes_spaced hread
  obtain ⟨tokens', htokens', hbody⟩ := Tokens.exists_ofText_of_lexes hparts
  refine ⟨tokens', htokens', ?_⟩
  have hend {text : String} {tokens : Tokens} (h : Tokens.ofText host text = .ok tokens) :
      tokens.eof.lexeme = (.eof, "") := by
    have htiles := ofText_tiles_text host text
    rw [h] at htiles
    rw [htiles.2.2]
    rfl
  unfold Tokens.toList
  rw [List.map_append, List.map_append, hbody, Stretch.map_lexeme_tokens, hlexemes,
    List.map_singleton, List.map_singleton, hend h, hend htokens']

/-- A lifetime and a character in one quote, a range behind a number, operators that share their
characters, a string with a quote in it, and an empty one behind a comment. -/
theorem ofText_spaced_lookahead :
    ∃ tokens tokens', Tokens.ofText (.dialect .rust) "'a,'b'..=1.5e3>>=\"x\\\"\"// end\n''y" =
        .ok tokens ∧ Tokens.spaced tokens.body = "'a , 'b' ..= 1.5e3 >> = \"x\\\"\" '' y" ∧
      Tokens.ofText (.dialect .rust) (Tokens.spaced tokens.body) = .ok tokens' ∧
      tokens'.toList.map Token.lexeme = tokens.toList.map Token.lexeme := by
  let text := "'a,'b'..=1.5e3>>=\"x\\\"\"// end\n''y"
  have hspaced : (Tokens.ofText (.dialect .rust) text).map (fun ts => Tokens.spaced ts.body) =
      .ok "'a , 'b' ..= 1.5e3 >> = \"x\\\"\" '' y" := by decide +kernel
  cases htokens : Tokens.ofText (.dialect .rust) text with
  | error error =>
    rw [htokens] at hspaced
    cases hspaced
  | ok tokens =>
    rw [htokens] at hspaced
    obtain ⟨tokens', hagain, hlexemes⟩ := ofText_spaced htokens
    exact ⟨tokens, tokens', rfl, Except.ok.inj hspaced, hagain, hlexemes⟩

end FieldComposition
