import FieldComposition.Proofs.Layout
import Mathlib.Data.List.Find

/-!
# Tokens of a text inside another one

What a text is split into does not depend on what stands after it, if that starts on a new line
(`Tokens.scan_append_newline`), nor on what stands before it, by which positions on the first line
and all offsets are shifted (`Tokens.scan_shift`). A single token does not depend on what stands
behind a blank after it (`Lexeme.read_append_layout`).
-/

namespace FieldComposition

/-- The characters of a text are checked one by one. Going through all characters there are decides
this as well, but that takes too long. -/
instance Text.decidableForallMem (cs : List Char) (p : Char → Prop) [DecidablePred p] :
    Decidable (∀ c ∈ cs, p c) :=
  List.decidableBAll p cs

namespace Lexeme

variable {rest more : List Char} {d : Char}

lemma takeWhile_append_stop {p : Char → Bool} (hp : p d = false) :
    (rest ++ d :: more).takeWhile p = rest.takeWhile p := by
  induction rest with
  | nil => simp [hp]
  | cons c rest ih =>
    rw [List.cons_append, List.takeWhile_cons, List.takeWhile_cons, ih]

lemma isPrefixOf_append_stop {spelling : List Char} (h : d ∉ spelling) :
    spelling.isPrefixOf (rest ++ d :: more) = spelling.isPrefixOf rest := by
  induction spelling generalizing rest with
  | nil => simp
  | cons c spelling ih =>
    obtain ⟨hc, hspelling⟩ := not_or.mp (mt List.mem_cons.mpr h)
    cases rest with
    | nil => simp [List.isPrefixOf, Ne.symm hc]
    | cons e rest => rw [List.cons_append, List.isPrefixOf, List.isPrefixOf, ih hspelling]

lemma length_takeWhile_le (p : Char → Bool) (cs : List Char) :
    (cs.takeWhile p).length ≤ cs.length :=
  (List.takeWhile_prefix p).length_le

lemma drop_takeWhile_append (p : Char → Bool) :
    (rest ++ d :: more).drop (rest.takeWhile p).length = rest.dropWhile p ++ d :: more := by
  rw [List.drop_append_of_le_length (length_takeWhile_le p rest), drop_length_takeWhile]

/-- A blank between tokens is part of none, strings apart. -/
lemma not_part_of_isLayout (hd : isLayout d) : (isNumberPart d = false ∧ d ≠ '.') ∧
    (Text.isWordStart d = false ∧ Text.isWordChar d = false ∧ d ≠ '\'') ∧
    ∀ entry ∈ longOperators, d ∉ entry.1 := by
  have hblanks : ∀ d ∈ [' ', '\t', '\r', '\n'], (isNumberPart d = false ∧ d ≠ '.') ∧
      (d ∈ Text.wordBreaks ∧ d ≠ '\'') ∧ ∀ entry ∈ longOperators, d ∉ entry.1 := by decide
  obtain ⟨hnumber, ⟨hbreak, hquote⟩, hoperators⟩ :=
    hblanks d (by simpa [isLayout, or_assoc] using hd)
  exact ⟨hnumber, ⟨Text.isWordStart_eq_false hbreak, Text.isWordChar_eq_false hbreak, hquote⟩,
    hoperators⟩

lemma numberRest_append_layout (hd : isLayout d) :
    numberRest (rest ++ d :: more) = numberRest rest := by
  obtain ⟨hpart, hdot⟩ := (not_part_of_isLayout hd).1
  have hdigit : d.isDigit = false := by
    simp only [isNumberPart, Bool.or_eq_false_iff] at hpart
    exact hpart.1.1
  unfold numberRest
  dsimp only
  rw [takeWhile_append_stop hpart, drop_takeWhile_append, drop_length_takeWhile]
  cases rest.dropWhile isNumberPart with
  | nil => simp [hdot]
  | cons c tail =>
    cases tail with
    | nil =>
      by_cases hc : c = '.'
      · subst hc
        simp [hdigit]
      · simp [hc]
    | cons e fraction =>
      by_cases hc : c = '.'
      · subst hc
        simp only [List.cons_append]
        rw [takeWhile_append_stop hpart]
      · simp [hc]

lemma numberRest_le : numberRest rest ≤ rest.length := by
  have hwhole := length_takeWhile_le isNumberPart rest
  unfold numberRest
  dsimp only
  split
  · rename_i d fraction hdrop
    have hlength := congrArg List.length hdrop
    have hfraction := length_takeWhile_le isNumberPart fraction
    rw [List.length_drop, List.length_cons, List.length_cons] at hlength
    split <;> omega
  · exact hwhole

lemma lifetimeRest?_append_layout {host : Host} (hd : isLayout d) :
    lifetimeRest? host (rest ++ d :: more) = lifetimeRest? host rest := by
  obtain ⟨hstart, hchar, hquote⟩ := (not_part_of_isLayout hd).2.1
  unfold lifetimeRest?
  split
  · cases rest with
    | nil => simp [hstart]
    | cons c rest =>
      dsimp only [List.cons_append]
      rw [takeWhile_append_stop hchar, drop_takeWhile_append, drop_length_takeWhile]
      cases rest.dropWhile Text.isWordChar <;> simp [hquote]
  · rfl

lemma lifetimeRest?_le {host : Host} {n : Nat} (h : lifetimeRest? host rest = some n) :
    n ≤ rest.length := by
  unfold lifetimeRest? at h
  split at h
  case isFalse => exact absurd h (by simp)
  cases rest with
  | nil => exact absurd h (by simp)
  | cons c rest =>
    dsimp only at h
    split at h
    · obtain rfl := Option.some.inj h
      exact Nat.succ_le_succ (length_takeWhile_le _ rest)
    · exact absurd h (by simp)

lemma toTripleQuote?_append_stop {quote : Char} (hquote : quote ≠ d) {n : Nat}
    (h : toTripleQuote? quote rest = some n) :
    toTripleQuote? quote (rest ++ d :: more) = some n ∧ n ≤ rest.length := by
  induction rest generalizing n with
  | nil => simp [toTripleQuote?] at h
  | cons c rest ih =>
    have hquotes : d ∉ [quote, quote, quote] := by simpa using hquote.symm
    rw [toTripleQuote?] at h
    rw [List.cons_append, toTripleQuote?, ← List.cons_append, isPrefixOf_append_stop hquotes]
    by_cases hprefix : [quote, quote, quote].isPrefixOf (c :: rest)
    · rw [if_pos hprefix] at h ⊢
      obtain rfl := Option.some.inj h
      exact ⟨rfl, (List.isPrefixOf_iff_prefix.mp hprefix).length_le⟩
    · rw [if_neg hprefix] at h ⊢
      obtain ⟨m, hm, rfl⟩ := Option.map_eq_some_iff.mp h
      obtain ⟨hread, hle⟩ := ih hm
      rw [hread]
      exact ⟨rfl, Nat.succ_le_succ hle⟩

lemma toQuote?_append {oneLine : Bool} {quote : Char} {n : Nat}
    (h : toQuote? oneLine quote rest = some n) :
    toQuote? oneLine quote (rest ++ more) = some n ∧ n ≤ rest.length := by
  fun_induction toQuote? oneLine quote rest generalizing n with
  | case1 => simp at h
  | case2 c rest ih =>
    obtain ⟨m, hm, rfl⟩ := Option.map_eq_some_iff.mp h
    obtain ⟨hread, hle⟩ := ih hm
    rw [List.cons_append, List.cons_append, toQuote?, hread, List.length_cons, List.length_cons]
    exact ⟨rfl, by omega⟩
  | case3 => simp at h
  | case4 rest hescape hslash =>
    obtain rfl := Option.some.inj h
    rw [List.cons_append, toQuote?.eq_3 _ _ _ _ (by simp [hslash]), if_neg hslash, if_pos rfl]
    exact ⟨rfl, by simp⟩
  | case5 => simp at h
  | case6 c rest hescape hslash hquote hnewline ih =>
    obtain ⟨m, hm, rfl⟩ := Option.map_eq_some_iff.mp h
    obtain ⟨hread, hle⟩ := ih hm
    rw [List.cons_append, toQuote?.eq_3 _ _ _ _ (by simp [hslash]), if_neg hslash, if_neg hquote,
      if_neg hnewline, hread, List.length_cons]
    exact ⟨rfl, by omega⟩

lemma stringRest?_append_stop {host : Host} {quote : Char} (hquote : quote ≠ d) {n : Nat}
    (h : stringRest? host quote rest = some n) :
    stringRest? host quote (rest ++ d :: more) = some n ∧ n ≤ rest.length := by
  unfold stringRest? at h ⊢
  have hquotes : d ∉ [quote, quote] := by simpa using hquote.symm
  rw [isPrefixOf_append_stop hquotes]
  by_cases hprefix : [quote, quote].isPrefixOf rest
  · rw [if_pos hprefix] at h ⊢
    obtain ⟨tail, rfl⟩ := List.isPrefixOf_iff_prefix.mp hprefix
    obtain ⟨m, hm, rfl⟩ := Option.map_eq_some_iff.mp h
    have htriple : toTripleQuote? quote (tail ++ d :: more) = some m ∧ m ≤ tail.length :=
      toTripleQuote?_append_stop hquote hm
    refine ⟨?_, ?_⟩
    · change (toTripleQuote? quote (tail ++ d :: more)).map (· + 2) = some (m + 2)
      rw [htriple.1]
      rfl
    · have hle := htriple.2
      rw [List.length_append]
      simp only [List.length_cons, List.length_nil]
      omega
  · rw [if_neg hprefix] at h ⊢
    exact toQuote?_append h

lemma word_append_layout (hd : isLayout d) {c : Char} {lexeme : Lexeme}
    (h : word c rest = .ok lexeme) :
    word c (rest ++ d :: more) = .ok lexeme ∧ lexeme.more ≤ rest.length := by
  have hword : word c (rest ++ d :: more) = word c rest := by
    unfold word
    rw [takeWhile_append_stop (not_part_of_isLayout hd).2.1.2.1]
  refine ⟨hword.trans h, ?_⟩
  simp only [word] at h
  split at h
  · obtain rfl := Except.ok.inj h
    exact length_takeWhile_le _ rest
  · exact absurd h (by simp)

lemma operator?_append_layout (hd : isLayout d) {c : Char} {lexeme : Lexeme}
    (h : operator? c rest = some lexeme) :
    operator? c (rest ++ d :: more) = some lexeme ∧ lexeme.more ≤ rest.length := by
  have hfind : longOperators.find? (fun entry => entry.1.isPrefixOf (c :: (rest ++ d :: more))) =
      longOperators.find? fun entry => entry.1.isPrefixOf (c :: rest) := by
    refine List.find?_congr fun entry hentry => ?_
    rw [← List.cons_append, isPrefixOf_append_stop ((not_part_of_isLayout hd).2.2 entry hentry)]
  have hoperator : operator? c (rest ++ d :: more) = operator? c rest := by
    unfold operator?
    rw [hfind]
  refine ⟨hoperator.trans h, ?_⟩
  unfold operator? at h
  split at h
  · rename_i spelling kind hspelling
    obtain rfl := Option.some.inj h
    have hprefix := List.find?_some hspelling
    have hlength : spelling.length ≤ rest.length + 1 :=
      (List.isPrefixOf_iff_prefix.mp hprefix).length_le
    exact Nat.sub_le_of_le_add hlength
  · obtain ⟨kind, -, rfl⟩ := Option.map_eq_some_iff.mp h
    exact Nat.zero_le _

lemma isPrefixOf_commentMark {host : Host} {c : Char} (h : c ≠ '#' ∧ c ≠ '/') :
    host.commentMark.isPrefixOf (c :: rest) = false := by
  rcases host with (_ | _) | _
  all_goals simp [Host.commentMark, List.isPrefixOf, h.1.symm, h.2.symm]

/-- What is read at a character is the same when a blank follows the text, which must be a new line
to end a comment. -/
theorem read_append_layout (hd : isLayout d) {host : Host} {c : Char} {lexeme : Lexeme}
    (h : read host c rest = .ok lexeme) (hline : lexeme.kind? = none → d = '\n') :
    read host c (rest ++ d :: more) = .ok lexeme ∧ lexeme.more ≤ rest.length := by
  have hmark : d ∉ host.commentMark := by
    intro hmem
    have hnone : ∀ e ∈ host.commentMark, isLayout e = false := by
      rcases host with (_ | _) | _ <;> decide
    rw [hnone d hmem] at hd
    cases hd
  unfold read at h ⊢
  rw [← List.cons_append, isPrefixOf_append_stop hmark, lifetimeRest?_append_layout hd]
  by_cases hlayout : isLayout c
  · rw [if_pos hlayout] at h ⊢
    obtain rfl := Except.ok.inj h
    exact ⟨rfl, Nat.zero_le _⟩
  rw [if_neg hlayout] at h ⊢
  by_cases hcomment : host.commentMark.isPrefixOf (c :: rest)
  · rw [if_pos hcomment] at h ⊢
    obtain rfl := Except.ok.inj h
    rw [takeWhile_append_stop (by rw [hline rfl]; rfl)]
    exact ⟨rfl, length_takeWhile_le _ rest⟩
  rw [if_neg hcomment] at h ⊢
  cases hlifetime : if c = '\'' then lifetimeRest? host rest else none with
  | some n =>
    rw [hlifetime] at h
    obtain rfl := Except.ok.inj h
    split at hlifetime
    · exact ⟨rfl, lifetimeRest?_le hlifetime⟩
    · exact absurd hlifetime (by simp)
  | none =>
    rw [hlifetime] at h
    dsimp only at h ⊢
    by_cases hquote : c = '"' || c = '\''
    · rw [if_pos hquote] at h ⊢
      have hne : c ≠ d := by
        rintro rfl
        exact hlayout hd
      cases hstring : stringRest? host c rest with
      | none =>
        rw [hstring] at h
        exact absurd h (by simp)
      | some n =>
        rw [hstring] at h
        have hrest : stringRest? host c (rest ++ d :: more) = some n ∧ n ≤ rest.length :=
          stringRest?_append_stop hne hstring
        obtain rfl := Except.ok.inj h
        rw [hrest.1]
        exact ⟨rfl, hrest.2⟩
    rw [if_neg hquote] at h ⊢
    by_cases hdigit : c.isDigit
    · rw [if_pos hdigit] at h ⊢
      rw [numberRest_append_layout hd]
      obtain rfl := Except.ok.inj h
      exact ⟨rfl, numberRest_le⟩
    rw [if_neg hdigit] at h ⊢
    by_cases hword : Text.isWordStart c
    · rw [if_pos hword] at h ⊢
      exact word_append_layout hd h
    rw [if_neg hword] at h ⊢
    cases hoperator : operator? c rest with
    | none =>
      rw [hoperator] at h
      exact absurd h (by simp)
    | some operator =>
      rw [hoperator] at h
      obtain rfl := Except.ok.inj h
      have hrest : operator? c (rest ++ d :: more) = some operator ∧
          operator.more ≤ rest.length := operator?_append_layout hd hoperator
      rw [hrest.1]
      exact ⟨rfl, hrest.2⟩

/-- What is read at a character is the same when a new line follows the text. -/
theorem read_append_newline {host : Host} {c : Char} {lexeme : Lexeme}
    (h : read host c rest = .ok lexeme) :
    read host c (rest ++ '\n' :: more) = .ok lexeme ∧ lexeme.more ≤ rest.length :=
  read_append_layout rfl h fun _ => rfl

end Lexeme

/-- The position behind `k` more characters on the first line. -/
def Position.shift (k : Nat) (p : Position) : Position :=
  if p.line = 1 then ⟨1, p.column + k⟩ else p

lemma Position.shift_step {k : Nat} {p : Position} (hp : 1 ≤ p.line) (c : Char) :
    (p.shift k).step c = (p.step c).shift k ∧ 1 ≤ (p.step c).line := by
  unfold shift step
  by_cases hline : p.line = 1
  · by_cases hc : c = '\n'
    · simp [hline, hc]
    · simp [hline, hc]
      omega
  · by_cases hc : c = '\n'
    · simp [hline, hc]
      omega
    · simp [hline, hc]
      omega

lemma Position.shift_advance {k : Nat} {p : Position} (hp : 1 ≤ p.line) (cs : List Char) :
    (p.shift k).advance cs = (p.advance cs).shift k ∧ 1 ≤ (p.advance cs).line := by
  induction cs generalizing p with
  | nil => exact ⟨rfl, hp⟩
  | cons c cs ih =>
    obtain ⟨hstep, hline⟩ := shift_step hp c (k := k)
    rw [advance_cons, advance_cons, hstep]
    exact ih hline

def Token.shift (k : Nat) (t : Token) : Token :=
  { t with start := t.start + k, stop := t.stop + k, position := t.position.shift k }

namespace Tokens

/-- The tokens from a lexeme on, which is a token itself when it has a kind. -/
def push (kind? : Option TokenKind) (taken : List Char) (offset : Nat) (p : Position)
    (behind : Tokens) : Tokens :=
  match kind? with
  | none => behind
  | some kind =>
    ⟨⟨kind, String.ofList taken, offset, offset + taken.length, p⟩ :: behind.body, behind.eof⟩

def shift (k : Nat) (tokens : Tokens) : Tokens where
  body := tokens.body.map (Token.shift k)
  eof := tokens.eof.shift k

def append (front : List Token) (behind : Tokens) : Tokens :=
  ⟨front ++ behind.body, behind.eof⟩

lemma shift_push {kind? : Option TokenKind} {taken : List Char} {offset k : Nat} {p : Position}
    {behind : Tokens} : (push kind? taken offset p behind).shift k =
      push kind? taken (offset + k) (p.shift k) (behind.shift k) := by
  cases kind? with
  | none => rfl
  | some kind =>
    rw [push, push, Nat.add_right_comm]
    rfl

lemma append_push {kind? : Option TokenKind} {taken : List Char} {offset : Nat} {p : Position}
    {inner behind : Tokens} : append (push kind? taken offset p inner).body behind =
      push kind? taken offset p (append inner.body behind) := by
  cases kind? <;> rfl

section

variable {host : Host} {offset : Nat} {p : Position} {c : Char} {rest : List Char}

lemma scan_cons {lexeme : Lexeme} (h : Lexeme.read host c rest = .ok lexeme) :
    scan host offset p (c :: rest) =
      (scan host (offset + (c :: rest.take lexeme.more).length)
        (p.advance (c :: rest.take lexeme.more)) (rest.drop lexeme.more)).map
          (push lexeme.kind? (c :: rest.take lexeme.more) offset p) := by
  rw [scan, h]
  dsimp only
  rcases scan host _ _ (rest.drop lexeme.more) with error | behind
  · rfl
  · cases lexeme.kind? <;> rfl

lemma exists_of_scan_cons {tokens : Tokens} (h : scan host offset p (c :: rest) = .ok tokens) :
    ∃ lexeme behind, Lexeme.read host c rest = .ok lexeme ∧
      scan host (offset + (c :: rest.take lexeme.more).length)
        (p.advance (c :: rest.take lexeme.more)) (rest.drop lexeme.more) = .ok behind ∧
      push lexeme.kind? (c :: rest.take lexeme.more) offset p behind = tokens := by
  cases hread : Lexeme.read host c rest with
  | error fault =>
    rw [scan, hread] at h
    exact absurd h (by simp)
  | ok lexeme =>
    rw [scan_cons hread] at h
    rcases hscan : scan host (offset + (c :: rest.take lexeme.more).length)
      (p.advance (c :: rest.take lexeme.more)) (rest.drop lexeme.more) with error | behind
    · rw [hscan] at h
      cases h
    · rw [hscan] at h
      exact ⟨lexeme, behind, rfl, hscan, Except.ok.inj h⟩

end

/-- The tokens of a text behind `k` characters, by induction on the text that is left. -/
theorem scan_shift {host : Host} {offset k : Nat} {p : Position} {cs : List Char} {tokens : Tokens}
    (hp : 1 ≤ p.line) (h : scan host offset p cs = .ok tokens) :
    scan host (offset + k) (p.shift k) cs = .ok (tokens.shift k) := by
  induction hn : cs.length using Nat.strong_induction_on generalizing offset p cs tokens with
  | _ n ih =>
    cases cs with
    | nil =>
      rw [scan] at h ⊢
      obtain rfl := Except.ok.inj h
      rfl
    | cons c rest =>
      obtain ⟨lexeme, behind, hread, hscan, rfl⟩ := exists_of_scan_cons h
      have hshort : (rest.drop lexeme.more).length < n := by
        rw [← hn, List.length_drop, List.length_cons]
        omega
      obtain ⟨hadvance, hline⟩ :=
        Position.shift_advance hp (c :: rest.take lexeme.more) (k := k)
      have hbehind := ih _ hshort hline hscan rfl
      rw [scan_cons hread, Nat.add_right_comm, hadvance, hbehind, shift_push]
      rfl

/-- The tokens of a text are the first ones when a new line follows it. -/
theorem scan_append_newline {host : Host} {offset : Nat} {p : Position} {cs : List Char}
    {tokens : Tokens} (h : scan host offset p cs = .ok tokens) (more : List Char) :
    scan host offset p (cs ++ '\n' :: more) =
      (scan host (offset + cs.length) (p.advance cs) ('\n' :: more)).map (append tokens.body) := by
  induction hn : cs.length using Nat.strong_induction_on generalizing offset p cs tokens with
  | _ n ih =>
    cases cs with
    | nil =>
      rw [scan] at h
      obtain rfl := Except.ok.inj h
      rw [List.nil_append, ← hn, List.length_nil, Nat.add_zero, Position.advance_nil]
      cases scan host offset p ('\n' :: more) <;> rfl
    | cons c rest =>
      obtain ⟨lexeme, inner, hread, hscan, rfl⟩ := exists_of_scan_cons h
      have hsame : Lexeme.read host c (rest ++ '\n' :: more) = .ok lexeme ∧
          lexeme.more ≤ rest.length := Lexeme.read_append_newline hread
      have hshort : (rest.drop lexeme.more).length < n := by
        rw [← hn, List.length_drop, List.length_cons]
        omega
      have hinner := ih _ hshort hscan rfl
      have hlength : offset + (c :: rest.take lexeme.more).length +
          (rest.drop lexeme.more).length = offset + n := by
        rw [← hn]
        simp only [List.length_cons, List.length_take, List.length_drop]
        omega
      have hposition : (p.advance (c :: rest.take lexeme.more)).advance
          (rest.drop lexeme.more) = p.advance (c :: rest) := by
        rw [← Position.advance_append, List.cons_append, List.take_append_drop]
      rw [List.cons_append, scan_cons hsame.1, List.take_append_of_le_length hsame.2,
        List.drop_append_of_le_length hsame.2, hinner, hlength, hposition]
      cases scan host (offset + n) (p.advance (c :: rest)) ('\n' :: more) with
      | error error => rfl
      | ok behind => exact congrArg Except.ok append_push.symm

end Tokens

end FieldComposition
