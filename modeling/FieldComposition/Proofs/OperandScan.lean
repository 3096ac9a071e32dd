import FieldComposition.Emission.Term
import FieldComposition.Proofs.FollowedText

/-!
# The scan of an operand

Whether a text is one operand is decided by a scan of its characters (`Rust.atomicFrom`), which
knows quotes and brackets but no tokens. What it makes of the text of a token is said here for each
kind of token: it passes it, and outside of brackets it does so exactly if the token leaves an
operand whole (`Stretch.IsOperand`). In quoted text it stops where the lexer does
(`Rust.atomicFrom_quoted`), provided that it takes the first quote for one
(`Stretch.IsPassedAlike`). It knows neither comments nor quotes in threes nor texts in single
quotes: a comment outside of brackets ends the scan, and inside of them it is scanned as code
(`Rust.atomicFrom_comment`); of three double quotes the third one opens a text, up to the next one
that is not escaped (`Rust.atomicFrom_tripled`); and a single quote is passed, with what stands
behind it scanned as code (`Rust.atomicFrom_tick`).
-/

namespace FieldComposition

namespace Rust

/-- A character that stands neither for a bracket nor for a quote. -/
def isPlain (c : Char) : Bool :=
  !(['"', '\'', '(', '[', '{', ')', ']', '}'].contains c)

section

variable {depth : Int} {c quote : Char} {cs rest : List Char}

/-- What the scan does at a character outside of quotes. -/
lemma atomicFrom_none : atomicFrom depth none (c :: rest) =
    if c = '"' then atomicFrom depth (some c) rest
    else if c = '\'' && rest[1]? == some '\'' then atomicFrom depth none (rest.drop 2)
    else if c = '\'' && rest.head? == some '\\' && 3 ≤ rest.length then
      atomicFrom depth (some c) rest
    else if c = '(' || c = '[' || c = '{' then atomicFrom (depth + 1) none rest
    else if c = ')' || c = ']' || c = '}' then atomicFrom (depth - 1) none rest
    else if depth = 0 && (endsOperand c || (c = '.' && rest.head? == some '.')) then false
    else atomicFrom depth none rest := by
  rw [atomicFrom]
  simp

/-- A plain character is passed unless it ends an operand or is the first of two dots. -/
lemma atomicFrom_cons (hc : isPlain c) : atomicFrom depth none (c :: rest) ↔
    (depth = 0 → endsOperand c = false ∧ ¬['.', '.'] <+: c :: rest) ∧
      atomicFrom depth none rest := by
  simp only [isPlain, Bool.not_eq_true', List.contains_eq_mem, decide_eq_false_iff_not,
    List.mem_cons, not_or, List.not_mem_nil, not_false_eq_true, and_true] at hc
  obtain ⟨hdouble, hsingle, hparen, hbracket, hbrace, hparen', hbracket', hbrace'⟩ := hc
  have hdots : (c = '.' && rest.head? == some '.') = true ↔ ['.', '.'] <+: c :: rest := by
    cases rest with
    | nil => simp
    | cons d rest => simp [List.cons_prefix_cons, eq_comm (a := '.')]
  rw [atomicFrom_none, if_neg hdouble, if_neg (by simp [hsingle]), if_neg (by simp [hsingle]),
    if_neg (by simp [hparen, hbracket, hbrace]), if_neg (by simp [hparen', hbracket', hbrace'])]
  split
  · rename_i hends
    rw [Bool.and_eq_true, Bool.or_eq_true, hdots] at hends
    have hnot : ¬(depth = 0 → endsOperand c = false ∧ ¬['.', '.'] <+: c :: rest) := by
      intro h
      obtain ⟨hoperator, hnone⟩ := h (of_decide_eq_true hends.1)
      rcases hends.2 with hends | hends
      · rw [hoperator] at hends
        cases hends
      · exact hnone hends
    exact ⟨fun h => absurd h (by simp), fun h => absurd h.1 hnot⟩
  · rename_i hpasses
    refine ⟨fun h => ⟨fun hdepth => ?_, h⟩, And.right⟩
    rw [Bool.and_eq_true, Bool.or_eq_true, hdots] at hpasses
    have hneither := not_and.mp hpasses (decide_eq_true hdepth)
    exact ⟨by simpa using fun h => hneither (.inl h), fun h => hneither (.inr h)⟩

lemma atomicFrom_append (hcs : ∀ c ∈ cs, isPlain c) (hdot : depth = 0 → '.' ∉ cs) :
    atomicFrom depth none (cs ++ rest) ↔
      (depth = 0 → ∀ c ∈ cs, endsOperand c = false) ∧ atomicFrom depth none rest := by
  induction cs with
  | nil => simp
  | cons c cs ih =>
    have hnone (hdepth : depth = 0) : ¬['.', '.'] <+: c :: (cs ++ rest) := by
      intro hdots
      obtain ⟨rfl, -⟩ := List.cons_prefix_cons.mp hdots
      exact hdot hdepth List.mem_cons_self
    rw [List.cons_append, atomicFrom_cons (hcs c List.mem_cons_self),
      ih (fun d hd => hcs d (List.mem_cons_of_mem _ hd))
        fun hdepth hmem => hdot hdepth (List.mem_cons_of_mem _ hmem)]
    simp only [List.forall_mem_cons]
    constructor
    · rintro ⟨hc, hcs, hrest⟩
      exact ⟨fun hdepth => ⟨(hc hdepth).1, hcs hdepth⟩, hrest⟩
    · rintro ⟨hcs, hrest⟩
      exact ⟨fun hdepth => ⟨(hcs hdepth).1, hnone hdepth⟩, fun hdepth => (hcs hdepth).2, hrest⟩

lemma atomicFrom_dot (hrest : rest.head? ≠ some '.') :
    atomicFrom depth none ('.' :: rest) ↔ atomicFrom depth none rest := by
  have hnone : ¬['.', '.'] <+: '.' :: rest := by
    rintro ⟨more, hmore⟩
    obtain rfl : '.' :: more = rest := (List.cons.inj hmore).2
    exact hrest rfl
  rw [atomicFrom_cons (by decide)]
  exact and_iff_right fun _ => ⟨by decide, hnone⟩

lemma atomicFrom_opener (hc : c ∈ ['(', '[', '{']) :
    atomicFrom depth none (c :: rest) = atomicFrom (depth + 1) none rest := by
  rw [atomicFrom_none]
  simp only [List.mem_cons, List.not_mem_nil, or_false] at hc
  rcases hc with rfl | rfl | rfl <;> simp

lemma atomicFrom_closer (hc : c ∈ [')', ']', '}']) :
    atomicFrom depth none (c :: rest) = atomicFrom (depth - 1) none rest := by
  rw [atomicFrom_none]
  simp only [List.mem_cons, List.not_mem_nil, or_false] at hc
  rcases hc with rfl | rfl | rfl <;> simp

lemma atomicFrom_char (hc : rest[1]? = some '\'') :
    atomicFrom depth none ('\'' :: rest) = atomicFrom depth none (rest.drop 2) := by
  rw [atomicFrom_none]
  simp [hc]

/-- A quote that is followed neither by a quoted character nor by an escape is passed. -/
lemma atomicFrom_tick (hchar : rest[1]? ≠ some '\'') (hescape : rest.head? ≠ some '\\') :
    atomicFrom depth none ('\'' :: rest) = atomicFrom depth none rest := by
  rw [atomicFrom_none]
  simp [hchar, hescape, show endsOperand '\'' = false by decide]

/-- A comment ends the scan outside of brackets, and is scanned as code inside of them. -/
lemma atomicFrom_comment : atomicFrom depth none ('/' :: '/' :: rest) ↔
    depth ≠ 0 ∧ atomicFrom depth none rest := by
  have hplain : ∀ d ∈ ['/', '/'], isPlain d := by decide
  refine (atomicFrom_append hplain fun _ => by decide).trans (and_congr_left fun _ => ?_)
  exact imp_congr_right fun _ => iff_of_false (by decide) not_false

/-- Two double quotes are a text of their own. -/
lemma atomicFrom_empty :
    atomicFrom depth none ('"' :: '"' :: rest) = atomicFrom depth none rest := by
  rw [atomicFrom_none, if_pos rfl, atomicFrom]
  simp

/-- Of three double quotes the third one opens a text. -/
lemma atomicFrom_tripled :
    atomicFrom depth none ('"' :: '"' :: '"' :: rest) = atomicFrom depth (some '"') rest := by
  rw [atomicFrom_empty, atomicFrom_none, if_pos rfl]

/-- A quoted text ends where the lexer says so, by the recursion of its search. -/
lemma atomicFrom_quoted {oneLine : Bool} {n : Nat}
    (h : Lexeme.toQuote? oneLine quote cs = some n) :
    atomicFrom depth (some quote) cs = atomicFrom depth none (cs.drop n) := by
  fun_induction Lexeme.toQuote? oneLine quote cs generalizing n with
  | case1 => cases h
  | case2 c rest ih =>
    obtain ⟨m, hm, rfl⟩ := Option.map_eq_some_iff.mp h
    rw [atomicFrom]
    simpa using ih hm
  | case3 => cases h
  | case4 rest _ hslash =>
    obtain rfl := Option.some.inj h
    rw [atomicFrom]
    simp [hslash]
  | case5 => cases h
  | case6 c rest _ hslash hc _ ih =>
    obtain ⟨m, hm, rfl⟩ := Option.map_eq_some_iff.mp h
    rw [atomicFrom]
    simpa [hslash, hc] using ih hm

end

/-- The characters that the scan looks for. -/
def landmarks : List Char :=
  ['"', '\'', '(', '[', '{', ')', ']', '}', '.', ' ', '\t', '\n', '+', '-', '*', '/', '%', '&', '|',
    '^', '!', '<', '>', '=', '?', ',', ';']

lemma isPlain_of_not_mem {c : Char} (hc : c ∉ landmarks) :
    isPlain c ∧ endsOperand c = false ∧ c ≠ '.' := by
  have hmarks : ∀ d ∈ ['"', '\'', '(', '[', '{', ')', ']', '}'], d ∈ landmarks := by decide
  have hends : ∀ d ∈ [' ', '\t', '\n', '+', '-', '*', '/', '%', '&', '|', '^', '!', '<', '>', '=',
      '?', ',', ';'], d ∈ landmarks := by decide
  refine ⟨?_, ?_, fun hdot => hc (by rw [hdot]; decide)⟩
  · rw [isPlain, Bool.not_eq_true', List.contains_eq_mem, decide_eq_false_iff_not]
    exact fun hmem => hc (hmarks c hmem)
  · rw [endsOperand, List.contains_eq_mem, decide_eq_false_iff_not]
    exact fun hmem => hc (hends c hmem)

lemma not_mem_landmarks_of_isWordChar {c : Char} (hc : Text.isWordChar c) : c ∉ landmarks :=
  fun hmem => Text.not_mem_wordBreaks hc ((by decide : landmarks ⊆ Text.wordBreaks) hmem)

lemma not_mem_landmarks_of_isNumberPart {c : Char} (hc : Lexeme.isNumberPart c) :
    c ∉ landmarks := by
  have hnone : ∀ d ∈ landmarks, Lexeme.isNumberPart d = false := by decide
  intro hmem
  rw [hnone c hmem] at hc
  cases hc

lemma atomicFrom_of_not_mem {depth : Int} {cs rest : List Char} (hcs : ∀ c ∈ cs, c ∉ landmarks) :
    atomicFrom depth none (cs ++ rest) ↔ atomicFrom depth none rest := by
  rw [atomicFrom_append (fun c hc => (isPlain_of_not_mem (hcs c hc)).1)
    fun _ hdot => (isPlain_of_not_mem (hcs _ hdot)).2.2 rfl]
  exact and_iff_right fun _ c hc => (isPlain_of_not_mem (hcs c hc)).2.1

end Rust

namespace Lexeme

variable {host : Host} {c : Char} {taken rest more : List Char} {kind : TokenKind}

/-- A number is a whole part with a fraction behind it, if there is one. -/
lemma numberRest_cases (h : numberRest (taken ++ more) = taken.length) :
    (∀ d ∈ taken, isNumberPart d) ∨ ∃ whole d fraction, taken = whole ++ '.' :: d :: fraction ∧
      (∀ e ∈ whole, isNumberPart e) ∧ ∀ e ∈ d :: fraction, isNumberPart e := by
  have htaken : (taken ++ more).take (numberRest (taken ++ more)) = taken := by
    rw [h, List.take_left]
  rw [← htaken]
  unfold numberRest
  dsimp only
  split
  · rename_i d fraction hdrop
    split
    · rename_i hd
      right
      rw [Nat.add_assoc, List.take_add, take_length_takeWhile, hdrop, Nat.add_comm 2,
        List.take_succ_cons, List.take_succ_cons, take_length_takeWhile]
      refine ⟨_, d, _, rfl, fun e he => List.mem_takeWhile_imp he, ?_⟩
      intro e he
      rcases List.mem_cons.mp he with rfl | he
      · simp [isNumberPart, hd]
      · exact List.mem_takeWhile_imp he
    · left
      rw [take_length_takeWhile]
      exact fun e he => List.mem_takeWhile_imp he
  · left
    rw [take_length_takeWhile]
    exact fun e he => List.mem_takeWhile_imp he

/-- A lifetime is a quote and a word, and no quote stands behind its first letter. -/
lemma of_lifetimeRest?
    (h : lifetimeRest? host (taken ++ more) = some taken.length) :
    (∀ d ∈ taken, Text.isWordChar d) ∧ (taken ++ more).head? ≠ some '\\' ∧
      (taken ++ more)[1]? ≠ some '\'' := by
  unfold lifetimeRest? at h
  split at h
  case isFalse => cases h
  cases taken with
  | nil =>
    cases more with
    | nil => cases h
    | cons c more =>
      dsimp only [List.nil_append] at h
      split at h <;> cases h
  | cons c taken =>
    dsimp only [List.cons_append] at h
    split at h
    case isFalse => cases h
    rename_i hlifetime
    obtain ⟨hstart, hbehind⟩ := Bool.and_eq_true_iff.mp hlifetime
    have hlength := Nat.succ.inj (Option.some.inj h)
    obtain ⟨htaken, -⟩ := of_length_takeWhile hlength
    have hc : Text.isWordChar c := (Bool.and_eq_true_iff.mp hstart).1
    refine ⟨List.forall_mem_cons.mpr ⟨hc, htaken⟩, fun hescape => ?_, fun hchar => ?_⟩
    · rw [Option.some.inj hescape] at hc
      exact Text.not_mem_wordBreaks hc (by decide)
    · cases taken with
      | nil =>
        rw [hlength, List.length_nil, List.drop_zero, List.nil_append] at hbehind
        have hmore : more.head? = some '\'' := by rwa [List.head?_eq_getElem?]
        rw [hmore] at hbehind
        cases hbehind
      | cons d taken =>
        have hd := htaken d List.mem_cons_self
        rw [show d = '\'' from Option.some.inj hchar] at hd
        exact Text.not_mem_wordBreaks hd (by decide)

/-- A text in single quotes is read up to the first one that is not escaped. -/
lemma toQuote?_of_stringRest? {quote : Char} (hquotes : ¬[quote, quote] <+: taken)
    (h : stringRest? host quote (taken ++ more) = some taken.length) :
    toQuote? host.endsStringsAtNewline quote (taken ++ more) = some taken.length := by
  unfold stringRest? at h
  split at h
  · rename_i hbegins
    obtain ⟨n, -, hlength⟩ := Option.map_eq_some_iff.mp h
    have htwo : [quote, quote].length ≤ taken.length := by
      rw [← hlength]
      exact Nat.le_add_left 2 n
    exact absurd (List.prefix_of_prefix_length_le (List.isPrefixOf_iff_prefix.mp hbegins)
      (List.prefix_append taken more) htwo) hquotes
  · exact h

/-- The characters that are operators of their own. -/
def shortOperators : List Char :=
  ['{', '}', '[', ']', '(', ')', ',', ':', '.', '&', '+', '>', '<', '=', '-', '*', '/', '%', '!',
    '^', '|', '~', '@', '?', '$', ';', '#']

lemma mem_shortOperators (h : shortOperator? c = some kind) : c ∈ shortOperators := by
  unfold shortOperator? at h
  split at h
  case h_15 =>
    split at h
    · rename_i hc
      have hothers : ∀ d ∈ ['-', '*', '/', '%', '!', '^', '|', '~', '@', '?', '$', ';', '#'],
          d ∈ shortOperators := by decide
      exact hothers c (by simpa using hc)
    · cases h
  all_goals decide

/-- An operator is one of several characters or, where none of these starts, one of its own. -/
lemma operator?_cases {n : Nat} (h : operator? c rest = some ⟨some kind, n⟩) :
    (∃ spelling, (spelling, kind) ∈ longOperators ∧ spelling <+: c :: rest ∧
        n + 1 = spelling.length) ∨
      (n = 0 ∧ shortOperator? c = some kind ∧ ∀ e ∈ longOperators, ¬e.1 <+: c :: rest) := by
  unfold operator? at h
  split at h
  · rename_i spelling kind' hfind
    obtain ⟨hkind, rfl⟩ := Lexeme.mk.inj (Option.some.inj h)
    obtain rfl := Option.some.inj hkind
    have hmem := List.mem_of_find?_eq_some hfind
    have hbegins := List.find?_some hfind
    have hlength : ∀ e ∈ longOperators, e.1.length - 1 + 1 = e.1.length := by decide
    exact .inl ⟨spelling, hmem, List.isPrefixOf_iff_prefix.mp hbegins, hlength _ hmem⟩
  · rename_i hfind
    obtain ⟨kind', hshort, hlexeme⟩ := Option.map_eq_some_iff.mp h
    obtain ⟨hkind, rfl⟩ := Lexeme.mk.inj hlexeme
    obtain rfl := Option.some.inj hkind
    refine .inr ⟨rfl, hshort, fun e he hbegins => ?_⟩
    exact List.find?_eq_none.mp hfind e he (List.isPrefixOf_iff_prefix.mpr hbegins)

/-- A bracket is one character. -/
lemma bracket_of_read {n : Nat} (h : read host c rest = .ok ⟨some kind, n⟩) :
    (kind.isOpener → n = 0 ∧ c ∈ ['(', '[', '{']) ∧
      (kind.isCloser → n = 0 ∧ c ∈ [')', ']', '}']) := by
  have hother : ∀ kind' ∈ [TokenKind.lifetime, .string, .number],
      kind'.isOpener = false ∧ kind'.isCloser = false := by decide
  have hlong : ∀ e ∈ longOperators, e.2.isOpener = false ∧ e.2.isCloser = false := by decide
  have hshort : ∀ d ∈ shortOperators, ∀ kind' ∈ shortOperator? d,
      (kind'.isOpener → d ∈ ['(', '[', '{']) ∧ (kind'.isCloser → d ∈ [')', ']', '}']) := by decide
  have hnone (hkind : kind.isOpener = false ∧ kind.isCloser = false) :
      (kind.isOpener → n = 0 ∧ c ∈ ['(', '[', '{']) ∧
        (kind.isCloser → n = 0 ∧ c ∈ [')', ']', '}']) := by
    simp [hkind.1, hkind.2]
  rcases read_token_cases h with hkind | ⟨-, hword⟩ | hoperator
  · exact hnone (hother kind hkind)
  · have hword := isWord_of_word hword
    exact hnone (by cases kind <;> first | exact ⟨rfl, rfl⟩ | cases hword)
  · rcases operator?_cases hoperator with ⟨spelling, hmem, -, -⟩ | ⟨rfl, hsingle, -⟩
    · exact hnone (hlong _ hmem)
    · obtain ⟨hopener, hcloser⟩ := hshort c (mem_shortOperators hsingle) kind hsingle
      exact ⟨fun hkind => ⟨rfl, hopener hkind⟩, fun hkind => ⟨rfl, hcloser hkind⟩⟩

end Lexeme

namespace Stretch

/-- Outside of brackets the stretch leaves an operand whole: it is a string, or has no operator, no
separator and no blank in it and is not the mark of a range. -/
def IsOperand (s : Stretch) : Prop :=
  s.kind? = some .string ∨
    ((∀ c ∈ s.chars, Rust.endsOperand c = false) ∧ ¬['.', '.'] <+: s.chars)

/-- The scan passes a stretch that `rest` follows, where that leaves an operand whole. -/
def IsPassed (depth : Int) (rest : List Char) (s : Stretch) : Prop :=
  Rust.atomicFrom depth none (s.chars ++ rest) ↔
    (depth = 0 → s.IsOperand) ∧ Rust.atomicFrom depth none rest

variable {depth : Int} {c : Char} {kind : TokenKind} {kind? : Option TokenKind}
  {cs taken rest : List Char}

lemma isOperand_iff (hkind : kind? ≠ some .string) (hdot : '.' ∉ cs) :
    IsOperand ⟨kind?, cs⟩ ↔ ∀ c ∈ cs, Rust.endsOperand c = false := by
  have hnone : ¬['.', '.'] <+: cs := fun hdots => hdot (hdots.subset List.mem_cons_self)
  exact (or_iff_right hkind).trans (and_iff_left hnone)

lemma isPassed_of_forall (hkind : kind? ≠ some .string) (hcs : ∀ c ∈ cs, Rust.isPlain c)
    (hdot : '.' ∉ cs) : IsPassed depth rest ⟨kind?, cs⟩ := by
  rw [IsPassed, isOperand_iff hkind hdot]
  exact Rust.atomicFrom_append hcs fun _ => hdot

lemma isPassed_of_not_mem (hkind : kind? ≠ some .string) (hcs : ∀ c ∈ cs, c ∉ Rust.landmarks) :
    IsPassed depth rest ⟨kind?, cs⟩ :=
  isPassed_of_forall hkind (fun c hc => (Rust.isPlain_of_not_mem (hcs c hc)).1)
    fun hdot => (Rust.isPlain_of_not_mem (hcs _ hdot)).2.2 rfl

/-- A stretch whose first characters end an operand is passed inside of brackets only. -/
lemma isPassed_of_ends (hkind : kind? ≠ some .string) (hcs : ∀ d ∈ c :: cs, Rust.isPlain d)
    (hends : Rust.endsOperand c ∨ ['.', '.'] <+: c :: cs) :
    IsPassed depth rest ⟨kind?, c :: cs⟩ := by
  unfold IsPassed
  by_cases hdepth : depth = 0
  · have hoperand : ¬IsOperand ⟨kind?, c :: cs⟩ := by
      rintro (hstring | ⟨hnone, hdots⟩)
      · exact hkind hstring
      · rcases hends with hends | hends
        · rw [hnone c List.mem_cons_self] at hends
          cases hends
        · exact hdots hends
    have hscan : ¬Rust.atomicFrom depth none (c :: (cs ++ rest)) := by
      rw [Rust.atomicFrom_cons (hcs c List.mem_cons_self)]
      rintro ⟨hfirst, -⟩
      obtain ⟨hnone, hdots⟩ := hfirst hdepth
      rcases hends with hends | hends
      · rw [hnone] at hends
        cases hends
      · exact hdots (hends.trans (List.prefix_append (c :: cs) rest))
    exact iff_of_false hscan fun h => hoperand (h.1 hdepth)
  · have hscan : Rust.atomicFrom depth none (c :: cs ++ rest) ↔ _ :=
      Rust.atomicFrom_append hcs fun h => absurd h hdepth
    simpa [hdepth] using hscan

lemma isPassed_number (hc : c.isDigit) (h : Lexeme.numberRest (taken ++ rest) = taken.length) :
    IsPassed depth rest ⟨some .number, c :: taken⟩ := by
  have hfirst : c ∉ Rust.landmarks :=
    Rust.not_mem_landmarks_of_isNumberPart (by simp [Lexeme.isNumberPart, hc])
  rcases Lexeme.numberRest_cases h with hparts | ⟨whole, d, fraction, rfl, hwhole, hfraction⟩
  · refine isPassed_of_not_mem (by decide) (List.forall_mem_cons.mpr ⟨hfirst, fun e he => ?_⟩)
    exact Rust.not_mem_landmarks_of_isNumberPart (hparts e he)
  have hwhole : ∀ e ∈ c :: whole, e ∉ Rust.landmarks :=
    List.forall_mem_cons.mpr
      ⟨hfirst, fun e he => Rust.not_mem_landmarks_of_isNumberPart (hwhole e he)⟩
  have hfraction : ∀ e ∈ d :: fraction, e ∉ Rust.landmarks :=
    fun e he => Rust.not_mem_landmarks_of_isNumberPart (hfraction e he)
  have hoperand : IsOperand ⟨some .number, c :: (whole ++ '.' :: d :: fraction)⟩ := by
    refine .inr ⟨fun e he => ?_, fun hdots => ?_⟩
    · rcases List.mem_append.mp (List.cons_append ▸ he) with he | he
      · exact (Rust.isPlain_of_not_mem (hwhole e he)).2.1
      rcases List.mem_cons.mp he with rfl | he
      · decide
      · exact (Rust.isPlain_of_not_mem (hfraction e he)).2.1
    · exact (Rust.isPlain_of_not_mem hfirst).2.2 (List.cons_prefix_cons.mp hdots).1.symm
  have hd : (d :: fraction ++ rest).head? ≠ some '.' := fun hdot =>
    (Rust.isPlain_of_not_mem (hfraction d List.mem_cons_self)).2.2 (Option.some.inj hdot)
  have hchars : c :: (whole ++ '.' :: d :: fraction) ++ rest =
      (c :: whole) ++ '.' :: (d :: fraction ++ rest) := by simp
  have hscan : Rust.atomicFrom depth none (c :: (whole ++ '.' :: d :: fraction) ++ rest) ↔
      Rust.atomicFrom depth none rest := by
    rw [hchars, Rust.atomicFrom_of_not_mem hwhole, Rust.atomicFrom_dot hd,
      Rust.atomicFrom_of_not_mem hfraction]
  exact hscan.trans (and_iff_right fun _ => hoperand).symm

/-- The quote of a lifetime is passed: no quote stands behind its first letter. -/
lemma isPassed_lifetime
    (h : Lexeme.lifetimeRest? (.dialect .rust) (taken ++ rest) = some taken.length) :
    IsPassed depth rest ⟨some .lifetime, '\'' :: taken⟩ := by
  obtain ⟨hword, hescape, hchar⟩ := Lexeme.of_lifetimeRest? h
  have hinert : ∀ d ∈ taken, d ∉ Rust.landmarks :=
    fun d hd => Rust.not_mem_landmarks_of_isWordChar (hword d hd)
  have hoperand : IsOperand ⟨some .lifetime, '\'' :: taken⟩ := by
    refine .inr ⟨List.forall_mem_cons.mpr ⟨by decide, fun d hd => ?_⟩, ?_⟩
    · exact (Rust.isPlain_of_not_mem (hinert d hd)).2.1
    · simp [List.cons_prefix_cons]
  have hscan : Rust.atomicFrom depth none ('\'' :: (taken ++ rest)) ↔
      Rust.atomicFrom depth none rest := by
    rw [Rust.atomicFrom_tick hchar hescape, Rust.atomicFrom_of_not_mem hinert]
  exact hscan.trans (and_iff_right fun _ => hoperand).symm

lemma isPassed_operator (h : Lexeme.operator? c (taken ++ rest) = some ⟨some kind, taken.length⟩)
    (hopener : kind.isOpener = false) (hcloser : kind.isCloser = false) :
    IsPassed depth rest ⟨some kind, c :: taken⟩ := by
  rcases Lexeme.operator?_cases h with ⟨spelling, hmem, hbegins, hlength⟩ | ⟨hzero, hshort, hnone⟩
  · have hspelling : spelling = c :: taken := by
      have htaken : c :: taken <+: c :: (taken ++ rest) := List.prefix_append (c :: taken) rest
      exact (List.prefix_of_prefix_length_le hbegins htaken (by simp [← hlength])).eq_of_length
        (by simp [← hlength])
    subst hspelling
    have hplain : ∀ e ∈ Lexeme.longOperators, some e.2 ≠ some .string ∧
        (∀ d ∈ e.1, Rust.isPlain d) ∧ ('.' ∈ e.1 → ['.', '.'] <+: e.1) := by decide
    obtain ⟨hstring, hcs, hdots⟩ := hplain _ hmem
    by_cases hdot : '.' ∈ c :: taken
    · exact isPassed_of_ends hstring hcs (.inr (hdots hdot))
    · exact isPassed_of_forall hstring hcs hdot
  · obtain rfl := List.length_eq_zero_iff.mp hzero
    have hplain : ∀ d ∈ Lexeme.shortOperators, ∀ kind' ∈ Lexeme.shortOperator? d,
        kind'.isOpener = false → kind'.isCloser = false →
          some kind' ≠ some .string ∧ Rust.isPlain d := by decide
    obtain ⟨hstring, hc⟩ :=
      hplain c (Lexeme.mem_shortOperators hshort) kind hshort hopener hcloser
    by_cases hdot : c = '.'
    · subst hdot
      have hrest : rest.head? ≠ some '.' := by
        intro hrest
        obtain ⟨more, rfl⟩ := List.head?_eq_some_iff.mp hrest
        exact hnone (['.', '.'], .dotDot) (by decide) ⟨more, rfl⟩
      have hoperand : IsOperand ⟨some kind, ['.']⟩ :=
        .inr ⟨List.forall_mem_singleton.mpr (by decide), by simp [List.cons_prefix_cons]⟩
      exact (Rust.atomicFrom_dot hrest).trans (and_iff_right fun _ => hoperand).symm
    · exact isPassed_of_forall hstring (by simpa using hc) (by simpa using Ne.symm hdot)

/-- What the scan reads in the same way as the lexer when `more` follows it: blanks, a comment that
stands outside of brackets or has no brackets and quotes in it, and any token but a string. Of the
strings these are a text in double quotes, which has no double quote in it where they are tripled
unless a backslash escapes it, a quoted character, which may be an escape, and a word in single
quotes. An escaped quote and a word must not stand two characters before another quote. -/
inductive IsPassedAlike (isOutside : Prop) (more : List Char) : Stretch → Prop
  | gap {cs : List Char} (hcs : ∀ c ∈ cs, Rust.isPlain c) : IsPassedAlike isOutside more ⟨none, cs⟩
  | comment {cs : List Char} (h : isOutside) : IsPassedAlike isOutside more ⟨none, '/' :: '/' :: cs⟩
  | token {kind : TokenKind} {cs : List Char} (hkind : kind ≠ .string) :
      IsPassedAlike isOutside more ⟨some kind, cs⟩
  | text {cs : List Char} (hcs : ¬['"', '"'] <+: cs) :
      IsPassedAlike isOutside more ⟨some .string, '"' :: cs⟩
  | tripled {cs : List Char}
      (hcs : Lexeme.toQuote? false '"' (cs ++ ['"']) = some (cs.length + 1)) :
      IsPassedAlike isOutside more ⟨some .string, '"' :: '"' :: '"' :: (cs ++ ['"', '"', '"'])⟩
  | char (c : Char) : IsPassedAlike isOutside more ⟨some .string, ['\'', c, '\'']⟩
  | escape {c : Char} {cs : List Char} (hc : c ≠ '\'') :
      IsPassedAlike isOutside more ⟨some .string, '\'' :: '\\' :: c :: cs⟩
  | escapedQuote (hmore : more[1]? ≠ some '\'') :
      IsPassedAlike isOutside more ⟨some .string, ['\'', '\\', '\'', '\'']⟩
  | word {c d : Char} {cs : List Char} (hcs : ∀ e ∈ c :: d :: cs, Text.isWordChar e)
      (hmore : more[1]? ≠ some '\'') :
      IsPassedAlike isOutside more ⟨some .string, '\'' :: c :: d :: (cs ++ ['\''])⟩

variable {isOutside : Prop}

/-- The scan passes a string as a whole, whatever stands in it. -/
lemma isPassed_string (halike : IsPassedAlike isOutside rest ⟨some .string, c :: taken⟩)
    (h : Lexeme.stringRest? (.dialect .rust) c (taken ++ rest) = some taken.length)
    (hescape : rest.head? ≠ some '\\') : IsPassed depth rest ⟨some .string, c :: taken⟩ := by
  have hquoted {quote : Char} (hquotes : ¬[quote, quote] <+: taken)
      (hstring : Lexeme.stringRest? (.dialect .rust) quote (taken ++ rest) = some taken.length) :
      Rust.atomicFrom depth (some quote) (taken ++ rest) = Rust.atomicFrom depth none rest := by
    rw [Rust.atomicFrom_quoted (Lexeme.toQuote?_of_stringRest? hquotes hstring), List.drop_left]
  suffices hscan : Rust.atomicFrom depth none (c :: (taken ++ rest)) ↔
      Rust.atomicFrom depth none rest from hscan.trans (and_iff_right fun _ => .inl rfl).symm
  cases halike with
  | token hkind => exact absurd rfl hkind
  | text hcs => rw [Rust.atomicFrom_none, if_pos rfl, hquoted hcs h]
  | @tripled cs hcs =>
    -- The scan comes upon the closing quotes as a text that ends and an empty one.
    have hread : Lexeme.toQuote? false '"' (cs ++ '"' :: '"' :: '"' :: rest) =
        some (cs.length + 1) := by
      simpa using (Lexeme.toQuote?_append hcs).1
    have hdrop : (cs ++ '"' :: '"' :: '"' :: rest).drop (cs.length + 1) = '"' :: '"' :: rest := by
      simp [List.drop_append]
    have hchars : '"' :: ('"' :: '"' :: (cs ++ ['"', '"', '"']) ++ rest) =
        '"' :: '"' :: '"' :: (cs ++ '"' :: '"' :: '"' :: rest) := by simp
    rw [hchars, Rust.atomicFrom_tripled, Rust.atomicFrom_quoted hread, hdrop, Rust.atomicFrom_empty]
  | char c' =>
    rw [Rust.atomicFrom_char rfl]
    rfl
  | @escape c' cs hc =>
    have hquotes : ¬['\'', '\''] <+: '\\' :: c' :: cs := by simp [List.cons_prefix_cons]
    have hlast := Lexeme.getLast?_take_toQuote (Lexeme.toQuote?_of_stringRest? hquotes h)
    rw [List.take_left] at hlast
    have hcs : cs ≠ [] := by
      rintro rfl
      exact hc (Option.some.inj hlast)
    have hlength : 3 ≤ ('\\' :: c' :: cs ++ rest).length := by
      have hpos := List.length_pos_of_ne_nil hcs
      simp only [List.length_append, List.length_cons]
      omega
    rw [Rust.atomicFrom_none, if_neg (by decide), if_neg (by simpa using hc),
      if_pos (by simpa using hlength), hquoted hquotes h]
  | escapedQuote hmore =>
    have hchar : Rust.atomicFrom depth none ('\'' :: (['\\', '\'', '\''] ++ rest)) =
        Rust.atomicFrom depth none ('\'' :: rest) := Rust.atomicFrom_char rfl
    rw [hchar, Rust.atomicFrom_tick hmore hescape]
  | @word c' d cs hcs hmore =>
    have hinert : ∀ e ∈ c' :: d :: cs, e ∉ Rust.landmarks :=
      fun e he => Rust.not_mem_landmarks_of_isWordChar (hcs e he)
    have hfirst : c' ≠ '\\' := by
      rintro rfl
      exact Text.not_mem_wordBreaks (hcs _ List.mem_cons_self) (by decide)
    have hsecond : d ≠ '\'' := by
      rintro rfl
      exact hinert '\'' (by simp) (by decide)
    have hchars : c' :: d :: (cs ++ ['\'']) ++ rest = (c' :: d :: cs) ++ '\'' :: rest := by simp
    rw [hchars, Rust.atomicFrom_tick (by simpa using hsecond) (by simpa using hfirst),
      Rust.atomicFrom_of_not_mem hinert, Rust.atomicFrom_tick hmore hescape]

/-- Blanks and comments are passed inside of brackets only, but for a carriage return. -/
lemma isPassed_gap (hplain : ∀ d ∈ c :: taken, Rust.isPlain d)
    (h : Lexeme.read (.dialect .rust) c (taken ++ rest) = .ok ⟨none, taken.length⟩) :
    IsPassed depth rest ⟨none, c :: taken⟩ := by
  rcases Lexeme.gap_cases h with ⟨hlayout, hlength⟩ | ⟨hcomment, -⟩
  · obtain rfl := List.length_eq_zero_iff.mp hlength
    have hdot : c ≠ '.' := by
      rintro rfl
      exact absurd hlayout (by decide)
    exact isPassed_of_forall (by decide) hplain (by simpa using hdot.symm)
  · obtain ⟨rfl, -⟩ := List.cons_prefix_cons.mp (List.isPrefixOf_iff_prefix.mp hcomment)
    exact isPassed_of_ends (by decide) hplain (.inl (by decide))

/-- The scan passes every stretch but a bracket where that leaves an operand whole. -/
lemma isPassed_of_read
    (h : Lexeme.read (.dialect .rust) c (taken ++ rest) = .ok ⟨kind?, taken.length⟩)
    (halike : IsPassedAlike isOutside rest ⟨kind?, c :: taken⟩) (houtside : isOutside → depth = 0)
    (hescape : rest.head? ≠ some '\\')
    (hkind : ∀ kind ∈ kind?, kind.isOpener = false ∧ kind.isCloser = false) :
    IsPassed depth rest ⟨kind?, c :: taken⟩ := by
  cases kind? with
  | none =>
    cases halike with
    | gap hplain => exact isPassed_gap hplain h
    | @comment cs hout =>
      have hoperand : ¬IsOperand ⟨none, '/' :: '/' :: cs⟩ := by
        rintro (hstring | ⟨hnone, -⟩)
        · cases hstring
        · exact absurd (hnone '/' List.mem_cons_self) (by decide)
      have hscan : ¬Rust.atomicFrom depth none ('/' :: '/' :: (cs ++ rest)) :=
        fun h => (Rust.atomicFrom_comment.mp h).1 (houtside hout)
      exact iff_of_false hscan fun h => hoperand (h.1 (houtside hout))
  | some kind =>
    rcases Lexeme.read_kind_cases h with ⟨rfl, rfl, hlifetime⟩ | ⟨rfl, -, hstring⟩ |
      ⟨rfl, hdigit, hnumber⟩ | ⟨hstart, hword⟩ | hoperator
    · exact isPassed_lifetime hlifetime
    · exact isPassed_string halike hstring hescape
    · exact isPassed_number hdigit hnumber.symm
    · have hkind : kind.isWord := Lexeme.isWord_of_word hword
      obtain ⟨hw, -, -⟩ := Lexeme.isWord_of_read h hkind
      refine isPassed_of_not_mem ?_ fun d hd =>
        Rust.not_mem_landmarks_of_isWordChar (hw.isWordChar d hd)
      rintro hstring
      rw [Option.some.inj hstring] at hkind
      cases hkind
    · obtain ⟨hopener, hcloser⟩ := hkind kind rfl
      exact isPassed_operator hoperator hopener hcloser

end Stretch

end FieldComposition
