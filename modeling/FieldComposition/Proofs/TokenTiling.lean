import FieldComposition.Proofs.OffsetPosition
import FieldComposition.Token.Lexer

/-!
# Tokens tile their text

`Tiled host text i ts j` holds when the tokens `ts` stand one after another in `text` between the
offsets `i` and `j`, with nothing but blanks and line comments in the gaps. Tokenizing either tiles
the whole text and ends in the token of its end, or it tiles the text up to the offset at which
nothing can be read (`ofText_tiles_text`).
-/

namespace FieldComposition

/-- `Skips host cs rest` passes from `cs` to `rest` over blanks and line comments of the host; a
comment goes on to the next newline or to the end of the text. -/
inductive Skips (host : Host) : List Char → List Char → Prop
  | done (cs : List Char) : Skips host cs cs
  | blank {c : Char} {cs rest : List Char} (hc : c = ' ' ∨ c = '\t' ∨ c = '\r' ∨ c = '\n')
      (h : Skips host cs rest) : Skips host (c :: cs) rest
  | comment {body cs rest : List Char} (hbody : '\n' ∉ body)
      (hend : cs = [] ∨ cs.head? = some '\n') (h : Skips host cs rest) :
      Skips host (host.commentMark ++ body ++ cs) rest

lemma Skips.trans {host : Host} {cs ds es : List Char} (h : Skips host cs ds)
    (h' : Skips host ds es) : Skips host cs es := by
  induction h with
  | done => exact h'
  | blank hc _ ih => exact .blank hc (ih h')
  | comment hbody hend _ ih => exact .comment hbody hend (ih h')

/-- Between two offsets of a text stand blanks and comments only. -/
structure IsGap (host : Host) (text : List Char) (i j : Nat) : Prop where
  le : i ≤ j
  le_length : j ≤ text.length
  skips : Skips host (text.drop i) (text.drop j)

lemma IsGap.refl (host : Host) {text : List Char} {i : Nat} (h : i ≤ text.length) :
    IsGap host text i i :=
  ⟨le_rfl, h, .done _⟩

lemma IsGap.trans {host : Host} {text : List Char} {i j k : Nat} (h : IsGap host text i j)
    (h' : IsGap host text j k) : IsGap host text i k :=
  ⟨h.le.trans h'.le, h'.le_length, h.skips.trans h'.skips⟩

namespace Token

/-- The value of a token is the part of the text between its offsets, and its position is that of
the first of them. -/
structure Spans (text : List Char) (t : Token) : Prop where
  start_le_stop : t.start ≤ t.stop
  stop_le_length : t.stop ≤ text.length
  value_eq : t.value = String.ofList ((text.drop t.start).take (t.stop - t.start))
  position_eq : t.position = .ofOffset text t.start

/-- A token is what the lexer reads at its first offset. -/
def IsReadFrom (host : Host) (text : List Char) (t : Token) : Prop :=
  ∃ c rest more, text.drop t.start = c :: rest ∧
    Lexeme.read host c rest = .ok ⟨some t.kind, more⟩ ∧
    t.stop = t.start + (c :: rest.take more).length

lemma IsReadFrom.start_lt_stop {host : Host} {text : List Char} {t : Token}
    (h : t.IsReadFrom host text) : t.start < t.stop := by
  obtain ⟨c, rest, more, -, -, hstop⟩ := h
  rw [hstop, List.length_cons]
  omega

end Token

/-- Tokens that stand one after another between two offsets of a text, with gaps between them. -/
inductive Tiled (host : Host) (text : List Char) : Nat → List Token → Nat → Prop
  | gap {i j : Nat} (hgap : IsGap host text i j) : Tiled host text i [] j
  | token {i j : Nat} {t : Token} {ts : List Token} (hgap : IsGap host text i t.start)
      (hspans : t.Spans text) (hread : t.IsReadFrom host text)
      (hrest : Tiled host text t.stop ts j) : Tiled host text i (t :: ts) j

namespace Tiled

variable {host : Host} {text : List Char} {i j k : Nat} {ts : List Token}

lemma of_gap (hgap : IsGap host text i j) (h : Tiled host text j ts k) :
    Tiled host text i ts k := by
  cases h with
  | gap hgap' => exact .gap (hgap.trans hgap')
  | token hgap' hspans hread hrest => exact .token (hgap.trans hgap') hspans hread hrest

lemma le (h : Tiled host text i ts j) : i ≤ j := by
  induction h with
  | gap hgap => exact hgap.le
  | token hgap hspans _ _ ih => exact hgap.le.trans (hspans.start_le_stop.trans ih)

lemma forall_mem (h : Tiled host text i ts j) :
    ∀ t ∈ ts, i ≤ t.start ∧ t.stop ≤ j ∧ t.Spans text ∧ t.IsReadFrom host text := by
  induction h with
  | gap => simp
  | token hgap hspans hread hrest ih =>
    intro u hu
    rcases List.mem_cons.mp hu with rfl | hu
    · exact ⟨hgap.le, hrest.le, hspans, hread⟩
    · obtain ⟨hstart, hrest⟩ := ih u hu
      exact ⟨hgap.le.trans (hspans.start_le_stop.trans hstart), hrest⟩

lemma pairwise (h : Tiled host text i ts j) : ts.Pairwise (fun t u => t.stop ≤ u.start) := by
  induction h with
  | gap => exact .nil
  | token _ _ _ hrest ih => exact .cons (fun u hu => (hrest.forall_mem u hu).1) ih

end Tiled

namespace Lexeme

lemma drop_length_takeWhile (p : Char → Bool) (cs : List Char) :
    cs.drop (cs.takeWhile p).length = cs.dropWhile p := by
  induction cs with
  | nil => rfl
  | cons c cs ih =>
    by_cases hc : p c
    · simpa [hc] using ih
    · simp [hc]

lemma exists_commentMark_eq_cons (host : Host) :
    ∃ c more, host.commentMark = c :: more ∧ ∀ x ∈ more, x != '\n' := by
  rcases host with (_ | _) | _
  · exact ⟨'#', [], rfl, by simp⟩
  · exact ⟨'/', ['/'], rfl, by simp⟩
  · exact ⟨'#', [], rfl, by simp⟩

/-- A comment mark opens a comment that reaches to the end of its line. -/
lemma skips_comment {host : Host} {c : Char} {rest : List Char}
    (h : host.commentMark.isPrefixOf (c :: rest)) :
    Skips host (c :: rest) (rest.drop (rest.takeWhile (· != '\n')).length) := by
  obtain ⟨tail, htail⟩ := List.isPrefixOf_iff_prefix.mp h
  obtain ⟨d, more, hcons, hmore⟩ := exists_commentMark_eq_cons host
  obtain ⟨rfl, rfl⟩ : d = c ∧ more ++ tail = rest := by simpa [hcons] using htail
  have hbody : '\n' ∉ tail.takeWhile (· != '\n') := fun hmem => by
    simpa using List.mem_takeWhile_imp hmem
  have hend : tail.dropWhile (· != '\n') = [] ∨
      (tail.dropWhile (· != '\n')).head? = some '\n' := by
    cases htail : tail.dropWhile (· != '\n') with
    | nil => exact .inl rfl
    | cons x xs =>
      have hx := List.head_dropWhile_not (· != '\n') (by rw [htail]; simp)
      simp only [htail, List.head_cons] at hx
      exact .inr (by simpa using hx)
  have hskips : Skips host (host.commentMark ++ tail.takeWhile (· != '\n') ++
      tail.dropWhile (· != '\n')) (tail.dropWhile (· != '\n')) :=
    .comment hbody hend (.done _)
  rw [drop_length_takeWhile, List.dropWhile_append_of_pos hmore]
  rwa [List.append_assoc, List.takeWhile_append_dropWhile, htail] at hskips

lemma shortOperator?_spec {c : Char} {kind : TokenKind} (h : shortOperator? c = some kind) :
    kind ≠ .eof ∧ kind ≠ .doubleGreater := by
  unfold shortOperator? at h
  split at h
  case h_15 =>
    split at h
    · obtain rfl := Option.some.inj h
      decide
    · exact absurd h (by simp)
  all_goals
    obtain rfl := Option.some.inj h
    decide

lemma keyword?_spec {spelling : String} {kind : TokenKind} (h : keyword? spelling = some kind) :
    kind ≠ .eof ∧ kind ≠ .doubleGreater := by
  unfold keyword? at h
  split at h
  case h_8 => exact absurd h (by simp)
  all_goals
    obtain rfl := Option.some.inj h
    decide

/-- A word is of a kind that is neither the end nor an operator. -/
lemma word_spec {c : Char} {rest : List Char} {lexeme : Lexeme} (h : word c rest = .ok lexeme) :
    ∃ kind, lexeme.kind? = some kind ∧ kind ≠ .eof ∧ kind ≠ .doubleGreater := by
  simp only [word] at h
  split at h
  · refine ⟨_, congrArg Lexeme.kind? (Except.ok.inj h).symm, ?_⟩
    cases hkeyword : keyword? (String.ofList (c :: rest.takeWhile Text.isWordChar)) with
    | none => decide
    | some kind => exact keyword?_spec hkeyword
  · exact absurd h (by simp)

/-- An operator has a kind that is not the end, and is spelled as two closing angle brackets if it
is of the kind of these. -/
lemma operator?_spec {c : Char} {rest : List Char} {lexeme : Lexeme}
    (h : operator? c rest = some lexeme) :
    ∃ kind, lexeme.kind? = some kind ∧ kind ≠ .eof ∧
      (kind = .doubleGreater → c :: rest.take lexeme.more = ['>', '>']) := by
  unfold operator? at h
  split at h
  · rename_i spelling kind hfind
    obtain rfl : (⟨some kind, spelling.length - 1⟩ : Lexeme) = lexeme := by simpa using h
    have htable : ∀ entry ∈ longOperators,
        entry.2 ≠ .eof ∧ (entry.2 = .doubleGreater → entry.1 = ['>', '>']) := by decide
    obtain ⟨heof, hdouble⟩ := htable _ (List.mem_of_find?_eq_some hfind)
    refine ⟨kind, rfl, heof, fun hkind => ?_⟩
    have hspelling : spelling = ['>', '>'] := hdouble hkind
    have hprefix := List.find?_some hfind
    obtain ⟨tail, htail⟩ := List.isPrefixOf_iff_prefix.mp hprefix
    subst hspelling
    obtain ⟨rfl, rfl⟩ : '>' = c ∧ '>' :: tail = rest := by simpa using htail
    rfl
  · obtain ⟨kind, hkind, rfl⟩ := Option.map_eq_some_iff.mp h
    have hshort := shortOperator?_spec hkind
    exact ⟨kind, rfl, hshort.1, fun hdouble => absurd hdouble hshort.2⟩

/-- What the lexer reads is either passed over, or it is a token. -/
theorem read_cases {host : Host} {c : Char} {rest : List Char} {lexeme : Lexeme}
    (h : read host c rest = .ok lexeme) :
    (lexeme.kind? = none ∧ Skips host (c :: rest) (rest.drop lexeme.more)) ∨
      ∃ kind, lexeme.kind? = some kind ∧ kind ≠ .eof ∧
        (kind = .doubleGreater → c :: rest.take lexeme.more = ['>', '>']) := by
  unfold read at h
  split at h
  · rename_i hc
    obtain rfl : (⟨none, 0⟩ : Lexeme) = lexeme := by simpa using h
    refine .inl ⟨rfl, .blank ?_ (.done _)⟩
    simpa [isLayout, or_assoc] using hc
  split at h
  · rename_i hmark
    obtain rfl : (⟨none, (rest.takeWhile (· != '\n')).length⟩ : Lexeme) = lexeme := by
      simpa using h
    exact .inl ⟨rfl, skips_comment hmark⟩
  right
  split at h
  · obtain rfl := Except.ok.inj h
    exact ⟨.lifetime, rfl, by decide, nofun⟩
  split at h
  · split at h
    · obtain rfl := Except.ok.inj h
      exact ⟨.string, rfl, by decide, nofun⟩
    · exact absurd h (by simp)
  split at h
  · obtain rfl := Except.ok.inj h
    exact ⟨.number, rfl, by decide, nofun⟩
  split at h
  · obtain ⟨kind, hkind, heof, hdouble⟩ := word_spec h
    exact ⟨kind, hkind, heof, fun h => absurd h hdouble⟩
  · split at h
    · rename_i hoperator
      obtain rfl := Except.ok.inj h
      exact operator?_spec hoperator
    · exact absurd h (by simp)

/-- A fault is about what stands at the front of the text: a character that starts nothing, a word
that is no identifier, or the quote of a string that is not closed. -/
def Offends (cs : List Char) : SyntaxFault → Prop
  | .unexpectedCharacter c => cs.head? = some c
  | .invalidIdentifier word => word ≠ "" ∧ word.toList <+: cs
  | .unterminatedString => cs.head? = some '"' ∨ cs.head? = some '\''
  | _ => False

lemma offends_of_read {host : Host} {c : Char} {rest : List Char} {fault : SyntaxFault}
    (h : read host c rest = .error fault) : Offends (c :: rest) fault := by
  unfold read at h
  split at h
  · exact absurd h (by simp)
  split at h
  · exact absurd h (by simp)
  split at h
  · exact absurd h (by simp)
  split at h
  · rename_i hquote
    split at h
    · exact absurd h (by simp)
    · obtain rfl := Except.error.inj h
      rcases (Bool.or_eq_true ..).mp hquote with hc | hc
      · exact .inl (congrArg some (of_decide_eq_true hc))
      · exact .inr (congrArg some (of_decide_eq_true hc))
  split at h
  · exact absurd h (by simp)
  split at h
  · simp only [word] at h
    split at h
    · exact absurd h (by simp)
    · obtain rfl := Except.error.inj h
      refine ⟨by simp, ?_⟩
      rw [String.toList_ofList, List.cons_prefix_cons]
      exact ⟨rfl, List.takeWhile_prefix _⟩
  · split at h
    · exact absurd h (by simp)
    · obtain rfl := Except.error.inj h
      rfl

end Lexeme

namespace Token.IsReadFrom

variable {host : Host} {text : List Char} {t : Token}

lemma kind_spec (h : t.IsReadFrom host text) :
    t.kind ≠ .eof ∧
      (t.kind = .doubleGreater → (text.drop t.start).take (t.stop - t.start) = ['>', '>']) := by
  obtain ⟨c, rest, more, hdrop, hread, hstop⟩ := h
  rcases Lexeme.read_cases hread with ⟨hkind, -⟩ | ⟨kind, hkind, heof, hdouble⟩
  · exact absurd hkind (by simp)
  · obtain rfl : t.kind = kind := by simpa using hkind
    refine ⟨heof, fun h => ?_⟩
    rw [← hdouble h, hdrop, hstop, Nat.add_sub_cancel_left, List.length_cons, List.take_succ_cons]
    simp

end Token.IsReadFrom

namespace Tokens

/-- The token that stands for the end of a text. -/
def endOf (text : List Char) : Token :=
  ⟨.eof, "", text.length, text.length, .ofOffset text text.length⟩

/-- How tokenizing a text from an offset on may end: the rest of the text is tiled, or it is tiled
up to an offset at which the lexer reports a fault. -/
def Outcome (host : Host) (text : List Char) (i : Nat) : Except ReadError Tokens → Prop
  | .ok tokens => Tiled host text i tokens.body text.length ∧ tokens.eof = endOf text
  | .error error => ∃ ts j c rest fault, Tiled host text i ts j ∧ text.drop j = c :: rest ∧
      Lexeme.read host c rest = .error fault ∧ error = .fault fault (.ofOffset text j)

/-- What the lexer reads at one offset extends a tiling of the text behind it. -/
lemma tiled_of_read {host : Host} {text before rest : List Char} {c : Char} {lexeme : Lexeme}
    (htext : text = before ++ c :: rest) (hread : Lexeme.read host c rest = .ok lexeme)
    {ts : List Token} {j : Nat} :
    let taken := c :: rest.take lexeme.more
    let stop := before.length + taken.length
    Tiled host text stop ts j →
      Tiled host text before.length
        ((lexeme.kind?.map fun kind => (⟨kind, String.ofList taken, before.length, stop,
          Position.start.advance before⟩ : Token)).toList ++ ts) j := by
  intro taken stop h
  have hsplit : c :: rest = taken ++ rest.drop lexeme.more := by
    simp [taken, List.take_append_drop]
  have hdrop : text.drop before.length = c :: rest := by rw [htext, List.drop_left]
  have hdropStop : text.drop stop = rest.drop lexeme.more := by
    rw [← List.drop_drop, hdrop, hsplit, List.drop_left]
  have hle : before.length ≤ stop := Nat.le_add_right ..
  have hlength : stop ≤ text.length := by
    rw [htext, hsplit, List.length_append, List.length_append]
    omega
  rcases Lexeme.read_cases hread with ⟨hkind, hskips⟩ | ⟨kind, hkind, -⟩
  · rw [hkind]
    refine h.of_gap ⟨hle, hlength, ?_⟩
    rwa [hdrop, hdropStop]
  · rw [hkind]
    refine .token (.refl host (hle.trans hlength)) ⟨hle, hlength, ?_, ?_⟩ ?_ h
    · rw [hdrop, hsplit, Nat.add_sub_cancel_left, List.take_left]
    · rw [htext, Position.advance_start_eq_ofOffset]
    · exact ⟨c, rest, lexeme.more, hdrop, by rw [hread, ← hkind], rfl⟩

/-- The scan from any offset has one of the two outcomes, by induction on the text that is left. -/
lemma outcome_scan (host : Host) (text before : List Char) (cs : List Char)
    (htext : text = before ++ cs) :
    Outcome host text before.length
      (scan host before.length (Position.start.advance before) cs) := by
  induction hn : cs.length using Nat.strong_induction_on generalizing before cs with
  | _ n ih =>
    have hposition : Position.start.advance before = .ofOffset text before.length := by
      rw [htext, Position.advance_start_eq_ofOffset]
    have hgap : IsGap host text before.length before.length :=
      .refl host (by rw [htext, List.length_append]; omega)
    cases cs with
    | nil =>
      obtain rfl : text = before := by simpa using htext
      rw [scan, hposition]
      exact ⟨.gap hgap, rfl⟩
    | cons c rest =>
      rw [scan]
      cases hread : Lexeme.read host c rest with
      | error fault =>
        refine ⟨[], before.length, c, rest, fault, .gap hgap, ?_, hread, ?_⟩
        · rw [htext, List.drop_left]
        · rw [hposition]
      | ok lexeme =>
        let taken := c :: rest.take lexeme.more
        have hsplit : text = (before ++ taken) ++ rest.drop lexeme.more := by
          rw [htext]
          simp [taken, List.take_append_drop]
        have hshort : (rest.drop lexeme.more).length < n := by
          rw [← hn, List.length_drop, List.length_cons]
          omega
        have hrest := ih _ hshort (before ++ taken) (rest.drop lexeme.more) hsplit rfl
        rw [Position.advance_append, List.length_append] at hrest
        dsimp only
        cases hscan : scan host (before.length + taken.length)
            ((Position.start.advance before).advance taken) (rest.drop lexeme.more) with
        | error error =>
          rw [hscan] at hrest
          obtain ⟨ts, j, d, more, fault, htiled, hmore⟩ := hrest
          exact ⟨_, j, d, more, fault, tiled_of_read htext hread htiled, hmore⟩
        | ok tokens =>
          rw [hscan] at hrest
          have htiled := tiled_of_read htext hread hrest.1
          dsimp only
          cases hkind : lexeme.kind? with
          | none =>
            rw [hkind] at htiled
            exact ⟨htiled, hrest.2⟩
          | some kind =>
            rw [hkind] at htiled
            exact ⟨htiled, hrest.2⟩

lemma outcome_ofText (host : Host) (text : String) :
    Outcome host text.toList 0 (ofText host text) :=
  outcome_scan host text.toList [] text.toList rfl

section

variable {host : Host} {text : String} {tokens : Tokens}

lemma tiled_of_ofText (h : ofText host text = .ok tokens) :
    Tiled host text.toList 0 tokens.body text.toList.length := by
  have houtcome := outcome_ofText host text
  rw [h] at houtcome
  exact houtcome.1

lemma kind_ne_eof_of_ofText (h : ofText host text = .ok tokens) :
    ∀ t ∈ tokens.body, t.kind ≠ .eof := by
  intro t ht
  obtain ⟨-, -, -, hread⟩ := (tiled_of_ofText h).forall_mem t ht
  exact hread.kind_spec.1

/-- Tokens at different offsets are different. -/
lemma nodup_of_ofText (h : ofText host text = .ok tokens) : tokens.body.Nodup := by
  have htiled := tiled_of_ofText h
  refine htiled.pairwise.imp_of_mem fun {t u} ht _ hstop heq => ?_
  obtain ⟨-, -, -, hread⟩ := htiled.forall_mem t ht
  have hlt := hread.start_lt_stop
  rw [← heq] at hstop
  omega

lemma kind_eof_of_ofText (h : ofText host text = .ok tokens) : tokens.eof.kind = .eof := by
  have houtcome := outcome_ofText host text
  rw [h] at houtcome
  exact congrArg Token.kind houtcome.2

end

end Tokens

/-- Tokenizing a text either tiles it to its end, where the token of the end stands, or tiles it up
to the offset of a fault, at whose position the error is reported. -/
theorem ofText_tiles_text (host : Host) (text : String) :
    match Tokens.ofText host text with
    | .ok tokens =>
      Tiled host text.toList 0 tokens.body text.toList.length ∧
        (∀ t ∈ tokens.body, t.start < t.stop ∧ t.kind ≠ .eof) ∧
        tokens.eof = Tokens.endOf text.toList
    | .error error =>
      ∃ ts offset fault, Tiled host text.toList 0 ts offset ∧ offset < text.toList.length ∧
        Lexeme.Offends (text.toList.drop offset) fault ∧
        error = .fault fault (.ofOffset text.toList offset) := by
  have h := Tokens.outcome_ofText host text
  cases htokens : Tokens.ofText host text with
  | ok tokens =>
    rw [htokens] at h
    refine ⟨h.1, fun t ht => ?_, h.2⟩
    obtain ⟨-, -, -, hread⟩ := h.1.forall_mem t ht
    exact ⟨hread.start_lt_stop, hread.kind_spec.1⟩
  | error error =>
    rw [htokens] at h
    obtain ⟨ts, offset, c, rest, fault, htiled, hdrop, hread, herror⟩ := h
    refine ⟨ts, offset, fault, htiled, ?_, ?_, herror⟩
    · exact List.length_lt_of_drop_ne_nil (by simp [hdrop])
    · rw [hdrop]
      exact Lexeme.offends_of_read hread

end FieldComposition
