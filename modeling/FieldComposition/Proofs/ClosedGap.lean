import FieldComposition.Proofs.RewordedText

/-!
# Texts with a gap closed

What stands between a token and the `=` behind it is cut out of a text. A word, a closing bracket
and two closing angle brackets are read alike right in front of the `=`, and so the tokens of the
text stay, but those from the `=` on move up (`Tokens.Splits.ofText_without`). A single closing
angle bracket becomes one operator with the `=` (`Tokens.Splits.ofText_without_greater`).
-/

namespace FieldComposition

/-! ## What moves up -/

/-- Positions from `q` on move, as `q` does to `p`. -/
def Position.rebase (p q r : Position) : Position :=
  if r.line < q.line ∨ r.line = q.line ∧ r.column < q.column then r
  else if r.line = q.line then ⟨p.line, p.column + (r.column - q.column)⟩
  else ⟨p.line + (r.line - q.line), r.column⟩

namespace Position

variable {p q r : Position}

lemma rebase_of_isBehind (h : r.IsBehind q) : rebase p q r = r :=
  if_pos h

lemma rebase_self : rebase p q q = p := by
  have hself : ¬(q.line < q.line ∨ q.line = q.line ∧ q.column < q.column) := by omega
  rw [rebase, if_neg hself, if_pos rfl, Int.sub_self, Int.add_zero]

lemma line_rebase (h : p.line = q.line) : (rebase p q r).line = r.line := by
  unfold rebase
  split
  · rfl
  split
  · rename_i hline
    rw [h, hline]
  · dsimp only
    omega

/-- Reading on commutes with the move. -/
lemma step_rebase (c : Char) (h : ¬r.IsBehind q) :
    ¬(r.step c).IsBehind q ∧ (rebase p q r).step c = rebase p q (r.step c) := by
  have hr : rebase p q r = if r.line = q.line then ⟨p.line, p.column + (r.column - q.column)⟩
      else ⟨p.line + (r.line - q.line), r.column⟩ := if_neg h
  have hstep : ¬(r.step c).IsBehind q := by
    unfold IsBehind step at *
    split <;> dsimp only <;> omega
  have hnext : rebase p q (r.step c) = if (r.step c).line = q.line then
      ⟨p.line, p.column + ((r.step c).column - q.column)⟩
      else ⟨p.line + ((r.step c).line - q.line), (r.step c).column⟩ := if_neg hstep
  refine ⟨hstep, ?_⟩
  unfold IsBehind at h
  rw [hr, hnext]
  by_cases hc : c = '\n'
  · have hbelow : r.line + 1 ≠ q.line := by omega
    simp only [step, if_pos hc, if_neg hbelow]
    by_cases hline : r.line = q.line
    · rw [if_pos hline, mk.injEq]
      dsimp only
      omega
    · rw [if_neg hline, mk.injEq]
      dsimp only
      omega
  · simp only [step, if_neg hc]
    by_cases hline : r.line = q.line
    · rw [if_pos hline, if_pos hline, mk.injEq]
      dsimp only
      omega
    · rw [if_neg hline, if_neg hline]

lemma advance_rebase (cs : List Char) (h : ¬r.IsBehind q) :
    (rebase p q r).advance cs = rebase p q (r.advance cs) := by
  induction cs generalizing r with
  | nil => rfl
  | cons c cs ih =>
    obtain ⟨hstep, hcommutes⟩ := step_rebase c h
    rw [advance_cons, advance_cons, hcommutes, ih hstep]

/-- Reading leads on. -/
lemma isBehind_advance {cs : List Char} (hne : cs ≠ []) (q : Position) :
    q.IsBehind (q.advance cs) := by
  by_cases hmem : '\n' ∈ cs
  · have hline := line_advance q cs
    have hpos : 0 < cs.count '\n' := List.count_pos_iff.mpr hmem
    exact .inl (by omega)
  · have hpos : 0 < cs.length := List.length_pos_iff.mpr hne
    rw [advance_of_not_mem hmem]
    exact .inr ⟨rfl, by dsimp only; omega⟩

/-- Reading leads from an offset of a text to a later one. -/
lemma exists_advance_ofOffset {text : List Char} {i j : Nat} (hij : i ≤ j) (hj : j ≤ text.length) :
    ∃ cs : List Char, cs.length = j - i ∧ ofOffset text j = (ofOffset text i).advance cs := by
  have hsplit : text.drop i = (text.drop i).take (j - i) ++ (text.drop i).drop (j - i) :=
    (List.take_append_drop ..).symm
  have hlength : ((text.drop i).take (j - i)).length = j - i := by
    rw [List.length_take, List.length_drop]
    omega
  have hadd := ofOffset_add hsplit
  rw [hlength, Nat.add_sub_cancel' hij] at hadd
  exact ⟨_, hlength, hadd⟩

/-- An earlier offset of a text is in front of a later one. -/
lemma isBehind_ofOffset {text : List Char} {i j : Nat} (hij : i < j) (hj : j ≤ text.length) :
    (ofOffset text i).IsBehind (ofOffset text j) := by
  obtain ⟨cs, hlength, hadvance⟩ := exists_advance_ofOffset hij.le hj
  have hne : cs ≠ [] := by
    rw [← List.length_pos_iff, hlength]
    omega
  rw [hadvance]
  exact isBehind_advance hne _

lemma not_isBehind_ofOffset {text : List Char} {i j : Nat} (hij : i ≤ j) (hj : j ≤ text.length) :
    ¬(ofOffset text j).IsBehind (ofOffset text i) := by
  obtain ⟨cs, -, hadvance⟩ := exists_advance_ofOffset hij hj
  rw [hadvance]
  exact not_isBehind_advance _ cs

end Position

/-- The text without the characters from one offset to another. -/
def Text.without (text : String) (i j : Nat) : String :=
  String.ofList (text.toList.take i ++ text.toList.drop j)

/-- The kinds of token that a type may end with where it ends with a name or a closing bracket. -/
def TokenKind.closesType (kind : TokenKind) : Bool :=
  kind.isWord ||
    [closeParen, closeBracket, closeBrace, greater, doubleGreater].contains kind

/-! ## What is read in front of an equals sign -/

namespace Lexeme

variable {host : Host} {c : Char} {taken rest more more' : List Char} {kind : TokenKind}

lemma read_eq_operator? (hc : c ∈ ['>', ')', ']', '}']) :
    read host c rest = match operator? c rest with
      | some lexeme => .ok lexeme
      | none => .error (.unexpectedCharacter c) := by
  have hsigns : ∀ c ∈ ['>', ')', ']', '}'], isLayout c = false ∧ (c ≠ '#' ∧ c ≠ '/') ∧
      (c = '"' || c = '\'') = false ∧ c.isDigit = false ∧ c ∈ Text.wordBreaks := by decide
  obtain ⟨hlayout, hmark, hquote, hdigit, hbreak⟩ := hsigns c hc
  have hword := Text.isWordStart_eq_false hbreak
  have hmark' : host.commentMark.isPrefixOf (c :: rest) = false := isPrefixOf_commentMark hmark
  have hread : read host c rest = _ :=
    read_eq (by simp [hlayout]) (by simp [hmark']) fun heq => by simp [heq] at hquote
  rw [if_neg (by simp [hquote]), if_neg (by simp [hdigit]), if_neg (by simp [hword])] at hread
  exact hread

/-- The spelling of a closing bracket of any kind, or of an equals sign. -/
def signSpelling? : TokenKind → Option (List Char)
  | .closeParen => some [')']
  | .closeBracket => some [']']
  | .closeBrace => some ['}']
  | .greater => some ['>']
  | .doubleGreater => some ['>', '>']
  | .assign => some ['=']
  | _ => none

lemma signSpelling?_of_read (hkind : (signSpelling? kind).isSome)
    (h : read host c (taken ++ more) = .ok ⟨some kind, taken.length⟩) :
    signSpelling? kind = some (c :: taken) := by
  have hother : ∀ kind ∈ [TokenKind.lifetime, .string, .number], signSpelling? kind = none := by
    decide
  have hword : ∀ kind : TokenKind, kind.isWord → signSpelling? kind = none := by
    intro kind
    cases kind <;> decide
  have hlong : ∀ e ∈ longOperators, ∀ spelling ∈ signSpelling? e.2, spelling = e.1 := by decide
  rcases read_token_cases h with hmem | ⟨-, hread⟩ | hoperator
  · rw [hother kind hmem] at hkind
    cases hkind
  · rw [hword kind (isWord_of_word hread)] at hkind
    cases hkind
  unfold operator? at hoperator
  split at hoperator
  · rename_i spelling kind' hfind
    obtain ⟨hkind', hlength⟩ := Lexeme.mk.inj (Option.some.inj hoperator)
    obtain rfl := Option.some.inj hkind'
    obtain ⟨sign, hsign⟩ := Option.isSome_iff_exists.mp hkind
    obtain rfl : sign = spelling := hlong _ (List.mem_of_find?_eq_some hfind) sign hsign
    have hbegins := List.find?_some hfind
    obtain ⟨tail, htail⟩ := List.isPrefixOf_iff_prefix.mp hbegins
    obtain ⟨d, ds, rfl⟩ : ∃ d ds, sign = d :: ds := by
      cases kind' <;> cases hsign <;> exact ⟨_, _, rfl⟩
    obtain ⟨rfl, hbehind⟩ := List.cons.inj htail
    rw [List.length_cons, Nat.add_sub_cancel] at hlength
    rw [hsign, (List.append_inj hbehind hlength).1]
  · obtain ⟨kind', hshort, hlexeme⟩ := Option.map_eq_some_iff.mp hoperator
    obtain ⟨hkind', hlength⟩ := Lexeme.mk.inj hlexeme
    obtain rfl := Option.some.inj hkind'
    obtain rfl := List.length_eq_zero_iff.mp hlength.symm
    unfold shortOperator? at hshort
    split at hshort
    case h_15 =>
      split at hshort
      · obtain rfl := Option.some.inj hshort
        cases hkind
      · cases hshort
    all_goals
      obtain rfl := Option.some.inj hshort
      first | rfl | cases hkind

/-- A closing bracket is read whatever follows it, and so are two closing angle brackets. -/
lemma read_closer (h : signSpelling? kind = some (c :: taken)) (hgreater : kind ≠ .greater)
    (hassign : kind ≠ .assign) : read host c (taken ++ more) = .ok ⟨some kind, taken.length⟩ := by
  cases kind <;> cases h
  case greater => exact absurd rfl hgreater
  case assign => exact absurd rfl hassign
  all_goals
    rw [read_eq_operator? (by decide)]
    rfl

/-- The end of a type that is no single angle bracket is read alike in front of an `=`. -/
lemma read_before_assign (h : read host c (taken ++ more) = .ok ⟨some kind, taken.length⟩)
    (hkind : kind.closesType) (hgreater : kind ≠ .greater) :
    read host c (taken ++ '=' :: more') = .ok ⟨some kind, taken.length⟩ := by
  by_cases hword : kind.isWord
  · obtain ⟨hw, rfl, -⟩ := isWord_of_read h hword
    refine read_word hw ?_
    rintro d ⟨⟩
    exact Text.isWordChar_eq_false (by decide)
  · have hsign : (signSpelling? kind).isSome ∧ kind ≠ .assign := by
      revert hkind hword
      cases kind <;> decide
    exact read_closer (signSpelling?_of_read hsign.1 h) hgreater hsign.2

/-- A single angle bracket is one operator with the `=` behind it. -/
lemma read_greater_assign : read host '>' ('=' :: rest) = .ok ⟨some .op, 1⟩ := by
  rw [read_eq_operator? (by decide)]
  rfl

end Lexeme

/-- What is read in front of a sign does not depend on what is behind the sign. -/
lemma Lexes.before_cons {host : Host} {c : Char} {cs more more' : List Char}
    {parts : List Stretch} (h : Lexes host (c :: more) cs parts) (hc : c.isDigit = false)
    (hmore' : ∀ d ∈ more'.head?, d.isDigit = false) : Lexes host (c :: more') cs parts := by
  refine h.of_last (by rintro d ⟨⟩; exact hc) ?_
  rintro s - ⟨d, taken, hchars, hread⟩
  refine ⟨d, taken, hchars, ?_⟩
  cases hkind : s.kind? with
  | none =>
    rw [hkind] at hread
    exact Lexeme.gap_resumes hread rfl
  | some kind =>
    rw [hkind] at hread
    have hresumes : Lexeme.Resumes ([c] ++ more) ([c] ++ more') := .of_append (by simp) hmore'
    exact (Lexeme.read_resumes hread hresumes).2 taken (.refl taken)

/-! ## The tokens around a gap -/

/-- The position behind a token. -/
def Token.endPosition (t : Token) : Position :=
  t.position.advance t.value.toList

/-- The token of what stands from `next` on, when it moves up to the token `last`. -/
def Token.moveUp (last next : Token) : Token → Token :=
  move next.start last.stop (last.endPosition.rebase next.position)

/-- What a closing angle bracket is read as in front of an equals sign. -/
def Token.glued (t : Token) : Token :=
  { t with kind := .op, value := ">=", stop := t.stop + 1 }

/-- The stretch of characters that a token is read from. -/
def Token.stretch (t : Token) : Stretch :=
  ⟨some t.kind, t.value.toList⟩

/-- The stretches of a text in front of a token, between it and the next token, and behind them. -/
structure Tokens.Splits (host : Host) (text : String) (before : List Token) (last next : Token)
    (behind : List Token) (front gap back : List Stretch) : Prop where
  lexes : Lexes host [] text.toList (front ++ last.stretch :: (gap ++ next.stretch :: back))
  tokens_front : Stretch.tokens 0 .start front = before
  tokens_back : Stretch.tokens next.stop next.endPosition back = behind
  last_start : last.start = (Stretch.text front).length
  last_stop : last.stop = last.start + last.value.toList.length
  last_position : last.position = Position.start.advance (Stretch.text front)
  next_start : next.start = last.stop + (Stretch.text gap).length
  next_stop : next.stop = next.start + next.value.toList.length
  next_position : next.position = last.endPosition.advance (Stretch.text gap)

lemma Tokens.eof_eq_endOf {host : Host} {text : String} {tokens : Tokens}
    (htokens : ofText host text = .ok tokens) : tokens.eof = endOf text.toList := by
  have houtcome := outcome_ofText host text
  rw [htokens] at houtcome
  exact houtcome.2

section

variable {host : Host} {text : String} {before behind : List Token} {last next eof : Token}
  {front gap back : List Stretch}

lemma Tokens.exists_splits
    (htokens : ofText host text = .ok ⟨before ++ last :: next :: behind, eof⟩) :
    ∃ front gap back, Splits host text before last next behind front gap back := by
  obtain ⟨parts, hlexes, hbody⟩ := Lexes.exists_of_scan htokens
  obtain ⟨front, s, rest, rfl, hfront, hs, hvalue, hstart, hstop, hposition, hrest⟩ :=
    Stretch.exists_of_tokens hbody.symm
  have hchars : last.value.toList = s.chars := by rw [hvalue, String.toList_ofList]
  rw [← List.nil_append (next :: behind)] at hrest
  obtain ⟨gap, u, back, rfl, -, hu, hvalue', hstart', hstop', hposition', hback⟩ :=
    Stretch.exists_of_tokens hrest
  have hchars' : next.value.toList = u.chars := by rw [hvalue', String.toList_ofList]
  have hlast : last.stretch = s := by rw [Token.stretch, hchars, ← hs]
  have hnext : next.stretch = u := by rw [Token.stretch, hchars', ← hu]
  rw [Nat.zero_add] at hstart
  rw [← hchars] at hstop hposition'
  rw [← hchars'] at hstop' hback
  rw [← hlast, ← hnext] at hlexes
  exact ⟨front, gap, back, hlexes, hfront, hback, hstart, hstop, hposition, hstart', hstop',
    hposition'⟩

namespace Tokens.Splits

variable (h : Splits host text before last next behind front gap back)

include h

lemma text_eq : text.toList = Stretch.text front ++ (last.value.toList ++
    (Stretch.text gap ++ (next.value.toList ++ Stretch.text back))) := by
  rw [← h.lexes.text_eq]
  simp [Token.stretch]

omit h in
lemma text_last : Stretch.text (front ++ [last.stretch]) =
    Stretch.text front ++ last.value.toList := by
  simp [Token.stretch]

lemma endPosition_last :
    last.endPosition = Position.start.advance (Stretch.text front ++ last.value.toList) := by
  rw [Token.endPosition, h.last_position, Position.advance_append]

lemma take_last_stop :
    text.toList.take last.stop = Stretch.text front ++ last.value.toList := by
  rw [h.text_eq, ← List.append_assoc]
  exact List.take_left' (by rw [List.length_append, h.last_stop, h.last_start])

lemma drop_next_start :
    text.toList.drop next.start = next.value.toList ++ Stretch.text back := by
  rw [h.text_eq, ← List.append_assoc, ← List.append_assoc]
  refine List.drop_left' ?_
  rw [List.length_append, List.length_append, h.next_start, h.last_stop, h.last_start]

lemma toList_without : (Text.without text last.stop next.start).toList =
    Stretch.text front ++ last.value.toList ++ (next.value.toList ++ Stretch.text back) := by
  rw [Text.without, String.toList_ofList, h.take_last_stop, h.drop_next_start]

/-- A gap on one line leaves the line. -/
lemma line_next (hgap : '\n' ∉ (Text.slice text last.stop next.start).toList) :
    last.endPosition.line = next.position.line := by
  have htext : text.toList.drop last.stop =
      Stretch.text gap ++ (next.value.toList ++ Stretch.text back) := by
    rw [h.text_eq, ← List.append_assoc]
    exact List.drop_left' (by rw [List.length_append, h.last_stop, h.last_start])
  have hlength : next.start - last.stop = (Stretch.text gap).length := by
    rw [h.next_start, Nat.add_sub_cancel_left]
  rw [Text.slice, String.toList_ofList, htext, hlength, List.take_left] at hgap
  rw [h.next_position, Position.line_advance, List.count_eq_zero_of_not_mem hgap]
  simp

lemma take_without : (Text.without text last.stop next.start).toList.take last.stop =
    text.toList.take last.stop := by
  rw [h.toList_without, h.take_last_stop]
  exact List.take_left' (by rw [List.length_append, h.last_stop, h.last_start])

lemma drop_without : (Text.without text last.stop next.start).toList.drop last.stop =
    text.toList.drop next.start := by
  rw [h.toList_without, h.drop_next_start]
  exact List.drop_left' (by rw [List.length_append, h.last_stop, h.last_start])

lemma tokens_next :
    Stretch.tokens next.start next.position (next.stretch :: back) = next :: behind := by
  have hnext : (⟨next.kind, String.ofList next.value.toList, next.start,
      next.start + next.value.toList.length, next.position⟩ : Token) = next := by
    rw [← h.next_stop, String.ofList_toList]
  rw [← h.tokens_back, Stretch.tokens, h.next_stop]
  exact congrArg (· :: _) hnext

lemma tokens_last : Stretch.tokens 0 .start (front ++ [last.stretch]) = before ++ [last] := by
  have hlast : (⟨last.kind, String.ofList last.value.toList, last.start,
      last.start + last.value.toList.length, last.position⟩ : Token) = last := by
    rw [← h.last_stop, String.ofList_toList]
  rw [Stretch.tokens_append, h.tokens_front, Nat.zero_add, ← h.last_start, ← h.last_position]
  exact congrArg (before ++ [·]) hlast

/-- Behind the gap, the stretches are read at the place of the gap as they were before. -/
lemma tokens_moved : Stretch.tokens last.stop last.endPosition (next.stretch :: back) =
    (next :: behind).map (last.moveUp next) := by
  have hmoved : Stretch.tokens (last.stop + 0)
      (last.endPosition.rebase next.position next.position) (next.stretch :: back) =
        (Stretch.tokens (next.start + 0) next.position (next.stretch :: back)).map
          (last.moveUp next) :=
    Stretch.tokens_move (P := fun p => ¬p.IsBehind next.position)
      (fun p c hp => Position.step_rebase c hp) (Position.not_isBehind_advance next.position [])
  rwa [Position.rebase_self, Nat.add_zero, Nat.add_zero, h.tokens_next] at hmoved

lemma lexes_next : Lexes host [] (next.value.toList ++ Stretch.text back)
    (next.stretch :: back) := by
  have hrest : Lexes host [] _ ((last.stretch :: gap) ++ next.stretch :: back) := h.lexes.split.2
  exact hrest.split.2

/-- The text in front of the gap is read before what stands in the gap and behind it. -/
lemma lexes_last : ∃ more, Lexes host more (Stretch.text front ++ last.value.toList)
    (front ++ [last.stretch]) := by
  have hparts : front ++ last.stretch :: (gap ++ next.stretch :: back) =
      (front ++ [last.stretch]) ++ (gap ++ next.stretch :: back) := by simp
  have hlexes := h.lexes
  rw [hparts] at hlexes
  have hfront := hlexes.split.1
  rw [text_last] at hfront
  exact ⟨_, hfront⟩

/-- A closing bracket or an equals sign among the tokens is spelled in its one way. -/
lemma signSpelling?_eq {t : Token} (ht : t = last ∨ t = next)
    (hsign : (Lexeme.signSpelling? t.kind).isSome) :
    Lexeme.signSpelling? t.kind = some t.value.toList := by
  have hmem : t.stretch ∈ front ++ last.stretch :: (gap ++ next.stretch :: back) := by
    rcases ht with rfl | rfl <;> simp
  obtain ⟨more, c, taken, hchars, hread⟩ := h.lexes.isReadBefore hmem
  have hvalue : t.value.toList = c :: taken := hchars
  rw [hvalue]
  exact Lexeme.signSpelling?_of_read hsign hread

lemma value_of_assign (hassign : next.kind = .assign) : next.value.toList = ['='] := by
  have hvalue := h.signSpelling?_eq (.inr rfl) (by rw [hassign]; rfl)
  rw [hassign] at hvalue
  exact (Option.some.inj hvalue).symm

/-- The end of the text moves up as what is in front of it. -/
lemma endOf_without : endOf (Text.without text last.stop next.start).toList =
    last.moveUp next (endOf text.toList) := by
  have hle : next.start ≤ text.toList.length := by
    rw [h.text_eq, h.next_start, h.last_stop, h.last_start]
    simp only [List.length_append]
    omega
  have hlength : (Text.without text last.stop next.start).toList.length =
      last.stop + (text.toList.length - next.start) := by
    rw [h.toList_without, ← h.drop_next_start, ← h.take_last_stop, List.length_append,
      List.length_drop, List.length_take_of_le]
    rw [h.next_start] at hle
    omega
  have hend {cs : List Char} : Position.ofOffset cs cs.length = Position.start.advance cs := by
    have hadvance := Position.advance_start_eq_ofOffset cs []
    rw [List.append_nil] at hadvance
    exact hadvance.symm
  have hnext : Position.start.advance text.toList =
      next.position.advance (next.value.toList ++ Stretch.text back) := by
    rw [h.text_eq, ← List.append_assoc, ← List.append_assoc, Position.advance_append,
      Position.advance_append _ (_ ++ _), ← h.endPosition_last, ← h.next_position]
  have hposition : Position.start.advance (Text.without text last.stop next.start).toList =
      last.endPosition.rebase next.position (Position.start.advance text.toList) := by
    have hself : ¬next.position.IsBehind next.position :=
      Position.not_isBehind_advance next.position []
    rw [h.toList_without, Position.advance_append, ← h.endPosition_last, hnext,
      ← Position.advance_rebase _ hself, Position.rebase_self]
  rw [endOf, endOf, hend, hposition, Token.moveUp, Token.move, hend, hlength]

/-- A text without the gap behind the end of a type, which is no single angle bracket, has the same
tokens. -/
lemma ofText_without (hkind : last.kind.closesType) (hgreater : last.kind ≠ .greater)
    (hassign : next.kind = .assign) :
    ofText host (Text.without text last.stop next.start) =
      .ok ⟨before ++ last :: (next :: behind).map (last.moveUp next),
        last.moveUp next (endOf text.toList)⟩ := by
  have hequals := h.value_of_assign hassign
  obtain ⟨more, hfront⟩ := h.lexes_last
  have hlexes : Lexes host (next.value.toList ++ Stretch.text back ++ [])
      (Stretch.text front ++ last.value.toList) (front ++ [last.stretch]) := by
    rw [hequals]
    refine hfront.of_last (by rintro d ⟨⟩; decide) ?_
    rintro s hs ⟨c, taken, hchars, hread⟩
    obtain rfl : last.stretch = s := by simpa using hs
    exact ⟨c, taken, hchars, Lexeme.read_before_assign hread hkind hgreater⟩
  have hall := hlexes.append h.lexes_next
  rw [← h.toList_without] at hall
  obtain ⟨⟨body, eof'⟩, htokens, hbody⟩ := exists_ofText_of_lexes hall
  have heof : eof' = endOf _ := eof_eq_endOf htokens
  dsimp only at hbody
  rw [htokens, heof, h.endOf_without, hbody, Stretch.tokens_append, h.tokens_last, text_last,
    ← h.endPosition_last, Nat.zero_add, List.length_append, ← h.last_start, ← h.last_stop,
    h.tokens_moved, List.append_assoc]
  rfl

/-- A single closing angle bracket at the end of a type is lost where the gap behind it is closed:
it is read as one operator with the equals sign. -/
lemma ofText_without_greater (hkind : last.kind = .greater) (hassign : next.kind = .assign) :
    ofText host (Text.without text last.stop next.start) =
      .ok ⟨before ++ last.glued :: behind.map (last.moveUp next),
        last.moveUp next (endOf text.toList)⟩ := by
  have hequals := h.value_of_assign hassign
  have hangle : last.value.toList = ['>'] := by
    have hvalue := h.signSpelling?_eq (.inl rfl) (by rw [hkind]; rfl)
    rw [hkind] at hvalue
    exact (Option.some.inj hvalue).symm
  have hop : Lexes host (Stretch.text back ++ []) ['>', '='] [⟨some .op, ['>', '=']⟩] :=
    Lexes.token Lexeme.read_greater_assign
  have hnext : Lexes host [] _ ([next.stretch] ++ back) := h.lexes_next
  have hbehind := hop.append hnext.split.2
  have hfront := h.lexes.split.1
  rw [Stretch.text_cons, Token.stretch, hangle] at hfront
  have hlexes : Lexes host ('>' :: ('=' :: Stretch.text back ++ [])) (Stretch.text front) front :=
    hfront.before_cons (by decide) (by rintro d ⟨⟩; decide)
  have hall := hlexes.append hbehind
  have htext : (Text.without text last.stop next.start).toList =
      Stretch.text front ++ (['>', '='] ++ Stretch.text back) := by
    rw [h.toList_without, hangle, hequals, List.append_assoc]
    rfl
  rw [← htext] at hall
  obtain ⟨⟨body, eof'⟩, htokens, hbody⟩ := exists_ofText_of_lexes hall
  have heof : eof' = endOf _ := eof_eq_endOf htokens
  dsimp only at hbody
  have hmoved := h.tokens_moved
  rw [Stretch.tokens, List.map_cons] at hmoved
  have hback := (List.cons.inj hmoved).2
  have hstop : last.stop = last.start + 1 := by rw [h.last_stop, hangle]; rfl
  have hglued : last.glued = ⟨.op, String.ofList ['>', '='], last.start, last.start + 2,
      last.position⟩ := by
    rw [Token.glued, hstop]
  have hend : last.endPosition = last.position.advance ['>'] := by rw [Token.endPosition, hangle]
  rw [htokens, heof, h.endOf_without, hbody, Stretch.tokens_append, h.tokens_front, Nat.zero_add,
    ← h.last_start, ← h.last_position, ← hback, hglued, hstop, hend, Token.stretch, hequals]
  rfl

end Tokens.Splits

end

end FieldComposition
