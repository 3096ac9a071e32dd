import Mathlib.Logic.Function.Basic
import FieldComposition.Proofs.FollowedText
import FieldComposition.Proofs.MovedTokens

/-!
# Texts with one word replaced

A word of a text is replaced by another one. Where a sign or a blank stands before it, the text is
read as the same tokens but for that word, and what stands behind it on its line is shifted
(`Tokens.exists_ofText_reword`).
-/

namespace FieldComposition

/-! ## What moves -/

/-- Positions behind `p` on its line are shifted by a number of columns. -/
def Position.shiftBehind (p : Position) (n : Int) (q : Position) : Position :=
  if q.line = p.line ∧ p.column < q.column then ⟨q.line, q.column + n⟩ else q

namespace Position

variable {p q : Position} {n : Int}

/-- A position that reading has reached from `p`. -/
def IsBehind (p q : Position) : Prop :=
  p.line < q.line ∨ (p.line = q.line ∧ p.column < q.column)

lemma shiftBehind_eq_self (h : ¬p.IsBehind q) : p.shiftBehind n q = q := by
  refine if_neg fun hline => h (.inr ⟨hline.1.symm, hline.2⟩)

lemma line_shiftBehind : (p.shiftBehind n q).line = q.line := by
  rw [shiftBehind]
  split <;> rfl

/-- Reading on commutes with the shift. -/
lemma step_shiftBehind (c : Char) (h : p.IsBehind q) :
    p.IsBehind (q.step c) ∧ (p.shiftBehind n q).step c = p.shiftBehind n (q.step c) := by
  unfold IsBehind at h
  by_cases hc : c = '\n'
  · have hnext : q.step c = ⟨q.line + 1, 1⟩ := if_pos hc
    have hbelow : p.line < (q.step c).line := by
      rw [hnext]
      dsimp only
      omega
    have hsame : p.shiftBehind n (q.step c) = q.step c := if_neg fun hline => by omega
    have hshifted : (p.shiftBehind n q).step c = ⟨(p.shiftBehind n q).line + 1, 1⟩ := if_pos hc
    exact ⟨.inl hbelow, by rw [hsame, hshifted, line_shiftBehind, hnext]⟩
  · have hnext : q.step c = ⟨q.line, q.column + 1⟩ := if_neg hc
    have hshifted : (p.shiftBehind n q).step c =
        ⟨(p.shiftBehind n q).line, (p.shiftBehind n q).column + 1⟩ := if_neg hc
    rw [hnext, hshifted]
    refine ⟨by unfold IsBehind; dsimp only; omega, ?_⟩
    unfold shiftBehind
    dsimp only
    by_cases hline : q.line = p.line
    · rw [if_pos ⟨hline, by omega⟩, if_pos ⟨hline, by omega⟩]
      dsimp only
      rw [Int.add_right_comm]
    · rw [if_neg fun hboth => hline hboth.1, if_neg fun hboth => hline hboth.1]

/-- No position comes before one that reading has reached. -/
lemma not_isBehind_advance (q : Position) (cs : List Char) : ¬(q.advance cs).IsBehind q := by
  have hstep (q : Position) (c : Char) : ¬(q.step c).IsBehind q := by
    unfold IsBehind step
    split <;> dsimp only <;> omega
  have htrans {p q r : Position} (h : ¬q.IsBehind p) (h' : ¬r.IsBehind q) : ¬r.IsBehind p := by
    unfold IsBehind at *
    omega
  induction cs generalizing q with
  | nil =>
    unfold IsBehind
    rw [advance_nil]
    omega
  | cons c cs ih =>
    rw [advance_cons]
    exact htrans (hstep q c) (ih _)

end Position

/-- The positions of a text in which a word stands for a token. -/
def Token.makeRoom (t : Token) (word : String) : Position → Position :=
  t.position.shiftBehind (word.length - t.value.length)

/-- The tokens of a text in which a word stands for the token `t`. -/
def Token.reword (t : Token) (word : String) (u : Token) : Token :=
  if u = t then
    { t with kind := Lexeme.wordKind word.toList, value := word, stop := t.start + word.length }
  else if u.start < t.start then u
  else u.move t.stop (t.start + word.length) (t.makeRoom word)

namespace Text

/-- The text with a word in the place of a token. -/
def reword (text : String) (t : Token) (word : String) : String :=
  String.ofList (text.toList.take t.start ++ (word.toList ++ text.toList.drop t.stop))

end Text

/-- The kinds of tokens that may stand right before a name. -/
def TokenKind.introducers : List TokenKind :=
  [.comma, .openBrace, .wordMut, .plus, .greater, .amp, .openBracket, .closeBracket, .colon,
    .pathSep, .dot]

namespace Lexeme

open Text

variable {c : Char} {taken tail tail' : List Char} {kind : TokenKind}

/-- An operator before a word is read alike before another word. -/
lemma read_before_word
    (h : read (.dialect .python) c (taken ++ tail) = .ok ⟨some kind, taken.length⟩)
    (hkind : kind ∈ TokenKind.introducers) (htail : ∀ d ∈ tail.head?, isWordChar d)
    (hne : tail ≠ []) (htail' : ∀ d ∈ tail'.head?, isWordChar d) :
    read (.dialect .python) c (taken ++ tail') = .ok ⟨some kind, taken.length⟩ := by
  have hother : ∀ kind ∈ TokenKind.introducers, kind ∉ [.lifetime, .string, .number] ∧
      (kind.isWord → kind = .wordMut) := by decide
  have hbreaks : ∀ e ∈ longOperators, e.1 ⊆ wordBreaks := by decide
  have hoperators : ∀ e ∈ longOperators, ∀ x ∈ e.1, isWordChar x = false :=
    fun e he x hx => isWordChar_eq_false (hbreaks e he hx)
  by_cases hlayout : isLayout c
  · rw [read, if_pos hlayout] at h
    cases h
  by_cases hmark : c = '#'
  · subst hmark
    cases h
  have hword : ¬kind.isWord := by
    intro hisWord
    obtain ⟨-, -, hnone⟩ := isWord_of_read h hisWord
    obtain ⟨d, rest, rfl⟩ := List.exists_cons_of_ne_nil hne
    have hd := hnone d rfl
    rw [htail d rfl] at hd
    cases hd
  have hoperator : operator? c (taken ++ tail) = some ⟨some kind, taken.length⟩ := by
    rcases read_token_cases h with hmem | ⟨-, hread⟩ | hoperator
    · exact absurd hmem (hother kind hkind).1
    · exact absurd (isWord_of_word hread) hword
    · exact hoperator
  have hends : EndsOperator tail tail' := by
    refine .inr fun d hd e he hmem => ?_
    have hnone := hoperators e he d hmem
    rw [htail' d hd] at hnone
    cases hnone
  obtain ⟨-, hoperator'⟩ := operator?_resumes hoperator hends
  rw [read_python hlayout hmark] at h ⊢
  split at h
  · split at h
    · obtain rfl := Option.some.inj (Lexeme.mk.inj (Except.ok.inj h)).1
      exact absurd (by decide) (hother _ hkind).1
    · cases h
  split at h
  · obtain rfl := Option.some.inj (Lexeme.mk.inj (Except.ok.inj h)).1
    exact absurd (by decide) (hother _ hkind).1
  split at h
  · exact absurd (isWord_of_word h) hword
  · rename_i hquote hdigit hstart
    rw [if_neg hquote, if_neg hdigit, if_neg hstart, hoperator']

end Lexeme

/-- The first character of a word is no digit. -/
lemma Text.IsWord.head_not_digit {cs : List Char} (h : IsWord cs) (more : List Char) :
    ∀ d ∈ (cs ++ more).head?, Text.isWordChar d ∧ d.isDigit = false := by
  obtain ⟨c, cs, rfl⟩ := List.exists_cons_of_ne_nil h.ne_nil
  rintro d ⟨⟩
  obtain ⟨hchar, hdecimal⟩ := Bool.and_eq_true_iff.mp h.isWordStart
  refine ⟨hchar, ?_⟩
  by_contra hdigit
  rw [isDecimalDigit_of_isDigit (by simpa using hdigit)] at hdecimal
  cases hdecimal

/-- A text before a word is read alike before another word. -/
lemma Lexes.before_word {cs word word' more more' : List Char} {parts : List Stretch}
    (h : Lexes (.dialect .python) (word ++ more) cs parts) (hword : Text.IsWord word)
    (hword' : Text.IsWord word')
    (hlast : ∀ s ∈ parts.getLast?, ∀ kind ∈ s.kind?, kind ∈ TokenKind.introducers) :
    Lexes (.dialect .python) (word' ++ more') cs parts := by
  have hhead := hword.head_not_digit more
  have hhead' := hword'.head_not_digit more'
  have hne : word ++ more ≠ [] := fun hnil => hword.ne_nil (List.append_eq_nil_iff.mp hnil).1
  refine h.of_last (fun d hd => (hhead' d hd).2) ?_
  rintro s hs ⟨c, taken, hchars, hread⟩
  refine ⟨c, taken, hchars, ?_⟩
  cases hkind : s.kind? with
  | some kind =>
    rw [hkind] at hread
    exact Lexeme.read_before_word hread (hlast s hs kind hkind) (fun d hd => (hhead d hd).1) hne
      fun d hd => (hhead' d hd).1
  | none =>
    rw [hkind] at hread
    rcases Lexeme.gap_cases hread with ⟨hlayout, htaken⟩ | ⟨-, htaken⟩
    · rw [htaken]
      exact Lexeme.read_layout hlayout
    · -- A comment would go on to the end of the line.
      obtain ⟨-, hend⟩ := Lexeme.of_length_takeWhile htaken.symm
      obtain ⟨d, rest, hcons⟩ := List.exists_cons_of_ne_nil hne
      rw [hcons] at hhead hend
      have hnewline : d = '\n' := by simpa using hend d rfl
      have hchar := (hhead d rfl).1
      rw [hnewline] at hchar
      exact absurd (by decide) (Text.not_mem_wordBreaks hchar)

namespace Stretch

variable {offset : Nat} {p : Position} {parts : List Stretch}

/-- The stretch of a token, with what stands before and behind it. -/
lemma exists_of_tokens {before behind : List Token} {t : Token}
    (h : tokens offset p parts = before ++ t :: behind) :
    ∃ front s back, parts = front ++ s :: back ∧ tokens offset p front = before ∧
      s.kind? = some t.kind ∧ t.value = String.ofList s.chars ∧
      t.start = offset + (text front).length ∧ t.stop = t.start + s.chars.length ∧
      t.position = p.advance (text front) ∧
      tokens t.stop (t.position.advance s.chars) back = behind := by
  have hsplit : tokens offset p parts = (before ++ [t]) ++ behind := by
    rw [h, List.append_assoc]
    rfl
  obtain ⟨first, back, rfl, hfirst, hback, hends⟩ := exists_front hsplit
  have hne : first ≠ [] := by
    rintro rfl
    exact List.append_ne_nil_of_right_ne_nil _ (List.cons_ne_nil _ _) hfirst.symm
  obtain ⟨front, s, rfl⟩ : ∃ front s, first = front ++ [s] :=
    ⟨_, _, (List.dropLast_concat_getLast hne).symm⟩
  obtain ⟨kind, hkind⟩ := Option.isSome_iff_exists.mp (hends s (by simp))
  rw [tokens_append] at hfirst
  simp only [tokens, hkind, Option.map_some, Option.toList_some, List.append_nil] at hfirst
  obtain ⟨hbefore, ht⟩ := List.append_inj' hfirst rfl
  obtain rfl := List.singleton_inj.mp ht
  refine ⟨front, s, back, List.append_assoc .., hbefore, hkind, rfl, rfl, rfl, rfl, ?_⟩
  simpa [text_append, Position.advance_append, Nat.add_assoc] using hback

/-- The last stretch, if it is a token, is the last token. -/
lemma kind_getLast? {s : Stretch} {kind : TokenKind} (hs : s ∈ parts.getLast?)
    (hkind : s.kind? = some kind) : ∃ t ∈ (tokens offset p parts).getLast?, t.kind = kind := by
  obtain ⟨front, rfl⟩ := List.getLast?_eq_some_iff.mp hs
  rw [tokens_append]
  simp [tokens, hkind]

end Stretch

namespace Token

variable {t u : Token} {word : String}

lemma reword_self : t.reword word t =
    { t with kind := Lexeme.wordKind word.toList, value := word, stop := t.start + word.length } :=
  if_pos rfl

lemma reword_of_lt (h : u.start < t.start) : t.reword word u = u := by
  have hne : u ≠ t := fun heq => absurd (congrArg start heq) h.ne
  rw [reword, if_neg hne, if_pos h]

lemma reword_of_gt (h : t.start < u.start) :
    t.reword word u = u.move t.stop (t.start + word.length) (t.makeRoom word) := by
  have hne : u ≠ t := fun heq => absurd (congrArg start heq) h.ne'
  rw [reword, if_neg hne, if_neg h.not_gt]

lemma reword_of_ne (h : u ≠ t) :
    (t.reword word u).kind = u.kind ∧ (t.reword word u).value = u.value := by
  rw [reword, if_neg h]
  split <;> exact ⟨rfl, rfl⟩

/-- Behind a word stands what stood behind the word in its place before. -/
lemma makeRoom_advance (hword : Text.IsWord word.toList) (hvalue : Text.IsWord t.value.toList) :
    t.makeRoom word (t.position.advance t.value.toList) = t.position.advance word.toList := by
  have hlength : 0 < t.value.toList.length := List.length_pos_of_ne_nil hvalue.ne_nil
  rw [hword.advance, hvalue.advance, makeRoom, Position.shiftBehind,
    if_pos ⟨rfl, by dsimp only; omega⟩]
  simp only [String.length_toList, Position.mk.injEq, true_and]
  omega

end Token

namespace Tokens

variable {text word : String} {before behind : List Token} {t eof : Token}

/-- The tokens before and behind a token of a text. -/
lemma bounds_of_ofText {host : Host}
    (htokens : ofText host text = .ok ⟨before ++ t :: behind, eof⟩) :
    t.start < t.stop ∧ (∀ u ∈ before, u.start < t.start ∧ u.stop ≤ t.start) ∧
      ∀ u ∈ behind, t.stop ≤ u.start ∧ u.start < u.stop := by
  have htiled := tiled_of_ofText htokens
  have hread : ∀ u ∈ before ++ t :: behind, u.start < u.stop := by
    intro u hu
    obtain ⟨-, -, -, hread⟩ := htiled.forall_mem u hu
    exact hread.start_lt_stop
  obtain ⟨-, hrest, hfront⟩ := List.pairwise_append.mp htiled.pairwise
  obtain ⟨hback, -⟩ := List.pairwise_cons.mp hrest
  refine ⟨hread t (by simp), fun u hu => ?_, fun u hu => ⟨hback u hu, hread u (by simp [hu])⟩⟩
  have hle := hfront u hu t List.mem_cons_self
  exact ⟨(hread u (by simp [hu])).trans_le hle, hle⟩

/-- A text with another word in the place of a name is read as the same tokens but for that one. -/
lemma exists_ofText_reword
    (htokens : ofText (.dialect .python) text = .ok ⟨before ++ t :: behind, eof⟩)
    (hkind : t.kind.isWord) (hbefore : ∀ u ∈ before.getLast?, u.kind ∈ TokenKind.introducers)
    (hword : Text.IsWord word.toList) :
    ∃ eof', ofText (.dialect .python) (Text.reword text t word) =
      .ok ⟨(before ++ t :: behind).map (t.reword word), eof'⟩ := by
  obtain ⟨parts, hparts, hbody⟩ := Lexes.exists_of_scan htokens
  obtain ⟨front, s, back, rfl, hfront, hskind, hvalue, hstart, hstop, hposition, hback⟩ :=
    Stretch.exists_of_tokens hbody.symm
  obtain ⟨hfrontLexes, hrest⟩ := hparts.split
  have hall := hparts.text_eq
  have hchars : t.value.toList = s.chars := by rw [hvalue, String.toList_ofList]
  rw [Stretch.text_append] at hall
  rw [Nat.zero_add] at hstart
  generalize hcs : Stretch.text (s :: back) = cs at hfrontLexes hrest hall
  cases hrest with
  | @cons c taken rest kind? _ hread hbackLexes =>
    dsimp only at hskind hchars hstop hback
    subst hskind
    obtain ⟨hvalueWord, -, hmore⟩ := Lexeme.isWord_of_read hread hkind
    have htext : (Text.reword text t word).toList =
        Stretch.text front ++ (word.toList ++ rest) := by
      have hdrop : text.toList.drop t.stop = rest := by
        rw [← hall, hstop, hstart, ← List.drop_drop, List.drop_left]
        exact List.drop_left' rfl
      rw [Text.reword, String.toList_ofList, hdrop, ← hall, hstart, List.take_left]
    have hfront' : Lexes (.dialect .python) ((word.toList ++ rest) ++ []) (Stretch.text front)
        front := by
      have hfrontWord : Lexes (.dialect .python) ((c :: taken) ++ (rest ++ [])) (Stretch.text front)
          front := by
        rwa [← List.append_assoc]
      rw [List.append_assoc]
      refine hfrontWord.before_word hvalueWord hword fun s hs kind hkind => ?_
      obtain ⟨u, hu, rfl⟩ : ∃ u ∈ (Stretch.tokens 0 .start front).getLast?, u.kind = kind :=
        Stretch.kind_getLast? hs hkind
      rw [hfront] at hu
      exact hbefore u hu
    have hlexes := hfront'.append ((Lexes.ofWord hword hmore).append hbackLexes)
    rw [← htext] at hlexes
    obtain ⟨tokens', htokens', hbody'⟩ := exists_ofText_of_lexes hlexes
    obtain ⟨hlt, hbounds, hbounds'⟩ := bounds_of_ofText htokens
    have hbefore' : before.map (t.reword word) = before := by
      refine (List.map_congr_left fun u hu => ?_).trans (List.map_id _)
      exact Token.reword_of_lt (hbounds u hu).1
    have hbehind' : behind.map (t.reword word) =
        Stretch.tokens (t.start + word.length) (t.position.advance word.toList) back := by
      have hreached : t.position.IsBehind (t.position.advance t.value.toList) := by
        rw [hchars, hvalueWord.advance]
        exact .inr ⟨rfl, by rw [List.length_cons]; dsimp only; omega⟩
      have hmoved : Stretch.tokens (t.start + word.length + 0)
          (t.makeRoom word (t.position.advance t.value.toList)) back =
            (Stretch.tokens (t.stop + 0) (t.position.advance t.value.toList) back).map
              (Token.move t.stop (t.start + word.length) (t.makeRoom word)) :=
        Stretch.tokens_move (P := t.position.IsBehind)
          (fun q c hq => Position.step_shiftBehind c hq) hreached
      rw [Token.makeRoom_advance hword (hchars ▸ hvalueWord), hchars, Nat.add_zero, Nat.add_zero,
        hback] at hmoved
      rw [hmoved]
      exact List.map_congr_left fun u hu => Token.reword_of_gt (hlt.trans_le (hbounds' u hu).1)
    have hbodies : tokens'.body = (before ++ t :: behind).map (t.reword word) := by
      rw [hbody', Stretch.tokens_append, hfront, List.map_append, List.map_cons, hbefore', hbehind',
        Token.reword_self]
      simp [Stretch.tokens, hstart, hposition, String.length_toList]
    exact ⟨tokens'.eof, by rw [htokens', ← hbodies]⟩

/-- The position of a token up to the reworded one stays as it is. -/
lemma makeRoom_eq_self {host : Host} {tokens : Tokens} {u : Token}
    (htokens : ofText host text = .ok tokens) (hu : u ∈ tokens.body) (ht : t ∈ tokens.body)
    (hle : u.start ≤ t.start) : t.makeRoom word u.position = u.position := by
  have hposition {v : Token} (hv : v ∈ tokens.body) :
      v.position = Position.start.advance (text.toList.take v.start) ∧
        v.start ≤ text.toList.length := by
    obtain ⟨-, -, hspans, -⟩ := (tiled_of_ofText htokens).forall_mem v hv
    have hlength := hspans.start_le_stop.trans hspans.stop_le_length
    have hoffset := Position.advance_start_eq_ofOffset (text.toList.take v.start)
      (text.toList.drop v.start)
    rw [List.take_append_drop, List.length_take_of_le hlength] at hoffset
    exact ⟨hspans.position_eq.trans hoffset.symm, hlength⟩
  have hadvance : t.position =
      u.position.advance ((text.toList.drop u.start).take (t.start - u.start)) := by
    rw [(hposition ht).1, (hposition hu).1, ← Position.advance_append, ← List.take_add,
      Nat.add_sub_cancel' hle]
  refine Position.shiftBehind_eq_self ?_
  rw [hadvance]
  exact Position.not_isBehind_advance _ _

end Tokens

namespace Text

variable {text word : String} {t : Token}

lemma take_reword (h : t.start ≤ text.toList.length) :
    (reword text t word).toList.take t.start = text.toList.take t.start := by
  have hlength : (text.toList.take t.start).length = t.start := List.length_take_of_le h
  rw [reword, String.toList_ofList]
  exact List.take_left' hlength

lemma drop_reword (h : t.start ≤ text.toList.length) :
    (reword text t word).toList.drop (t.start + word.length) = text.toList.drop t.stop := by
  have hlength : (text.toList.take t.start ++ word.toList).length = t.start + word.length := by
    rw [List.length_append, List.length_take_of_le h, String.length_toList]
  rw [reword, String.toList_ofList, ← List.append_assoc]
  exact List.drop_left' hlength

end Text

end FieldComposition
