import FieldComposition.Proofs.PaddedText
import Mathlib.Data.Nat.Find
import Mathlib.Order.Bounds.Basic

/-!
# Where strings end

A string literal of the python dialect ends at the first closing delimiter that no backslash escapes
(`Text.StringEndsAt`). The lexer follows that rule for strings in one quote. In a string in three
quotes it takes the first three in a row, also where the first of them is escaped
(`Text.StringReadTo`). `ofText_string` says so of every offset at which a text is tokenized.
-/

namespace FieldComposition

namespace Text

/-- Whether the character behind a text is escaped: a backslash escapes what follows it, unless it
is escaped itself. -/
def escapesNext (cs : List Char) : Bool :=
  cs.foldl (fun escaped c => c == '\\' && !escaped) false

def OccursAt (pattern cs : List Char) (n : ℕ) : Prop :=
  pattern <+: cs.drop n

instance (pattern cs : List Char) (n : ℕ) : Decidable (OccursAt pattern cs n) :=
  inferInstanceAs (Decidable (pattern <+: cs.drop n))

/-- A pattern occurs at an offset, where no backslash escapes it. -/
def OccursUnescapedAt (pattern cs : List Char) (n : ℕ) : Prop :=
  OccursAt pattern cs n ∧ escapesNext (cs.take n) = false

instance (pattern cs : List Char) (n : ℕ) : Decidable (OccursUnescapedAt pattern cs n) :=
  inferInstanceAs (Decidable (_ ∧ _))

/-- A quote closes a string that must end on its line: it is the first one that is not escaped, and
so is no newline before it. -/
structure ClosesOnLine (quote : Char) (cs : List Char) (n : ℕ) : Prop where
  first : IsLeast {m | OccursUnescapedAt [quote] cs m} n
  same_line : ∀ m < n, ¬OccursUnescapedAt ['\n'] cs m

/-- The string whose first quote stands before `rest` ends behind the first `n` characters of that:
three quotes open and close it where three stand together, and one quote otherwise. -/
def StringEndsAt (quote : Char) (rest : List Char) (n : ℕ) : Prop :=
  if [quote, quote] <+: rest then
    ∃ m, n = m + 5 ∧ IsLeast {m | OccursUnescapedAt [quote, quote, quote] (rest.drop 2) m} m
  else ∃ m, n = m + 1 ∧ ClosesOnLine quote rest m

/-- The string whose first quote stands before `rest` is read up to here: as `StringEndsAt` has it,
but three quotes close it also where the first of them is escaped. -/
def StringReadTo (quote : Char) (rest : List Char) (n : ℕ) : Prop :=
  if [quote, quote] <+: rest then
    ∃ m, n = m + 5 ∧ IsLeast {m | OccursAt [quote, quote, quote] (rest.drop 2) m} m
  else ∃ m, n = m + 1 ∧ ClosesOnLine quote rest m

section

variable {pattern cs ds : List Char} {c quote : Char} {n : ℕ}

lemma escapesNext_cons (hc : c ≠ '\\') : escapesNext (c :: cs) = escapesNext cs := by
  unfold escapesNext
  rw [List.foldl_cons, beq_false_of_ne hc]
  rfl

/-- A backslash escapes one character, whatever that is. -/
lemma escapesNext_backslash : escapesNext ('\\' :: c :: cs) = escapesNext cs := by
  unfold escapesNext
  rw [List.foldl_cons, List.foldl_cons]
  simp

lemma occursUnescapedAt_succ (hc : c ≠ '\\') :
    OccursUnescapedAt pattern (c :: cs) (n + 1) ↔ OccursUnescapedAt pattern cs n := by
  unfold OccursUnescapedAt OccursAt
  rw [List.drop_succ_cons, List.take_succ_cons, escapesNext_cons hc]

lemma occursUnescapedAt_backslash :
    OccursUnescapedAt pattern ('\\' :: c :: cs) (n + 2) ↔ OccursUnescapedAt pattern cs n := by
  unfold OccursUnescapedAt OccursAt
  rw [List.drop_succ_cons, List.drop_succ_cons, List.take_succ_cons, List.take_succ_cons,
    escapesNext_backslash]

lemma not_occursUnescapedAt_one : ¬OccursUnescapedAt pattern ('\\' :: cs) 1 := by
  rintro ⟨-, hescaped⟩
  rw [List.take_succ_cons, List.take_zero] at hescaped
  cases hescaped

lemma occursUnescapedAt_zero {d : Char} : OccursUnescapedAt [d] (c :: cs) 0 ↔ d = c := by
  unfold OccursUnescapedAt OccursAt
  simp [escapesNext]

lemma OccursUnescapedAt.lt_length {d : Char} (h : OccursUnescapedAt [d] cs n) :
    n < cs.length := by
  have hle := h.1.length_le
  rw [List.length_singleton, List.length_drop] at hle
  omega

/-- Characters at which nothing ends and no line ends are passed over. -/
lemma closesOnLine_iff_of_shift {k : ℕ}
    (hnone : ∀ d ∈ [quote, '\n'], ∀ m < k, ¬OccursUnescapedAt [d] ds m)
    (hshift : ∀ d m, OccursUnescapedAt [d] ds (m + k) ↔ OccursUnescapedAt [d] cs m) :
    ClosesOnLine quote ds n ↔ ∃ m, n = m + k ∧ ClosesOnLine quote cs m := by
  constructor
  · rintro ⟨⟨hoccurs, hfirst⟩, hline⟩
    have hle : k ≤ n := by
      by_contra hlt
      exact hnone quote (by simp) n (by omega) hoccurs
    obtain ⟨m, rfl⟩ := Nat.exists_eq_add_of_le' hle
    refine ⟨m, rfl, ⟨(hshift quote m).mp hoccurs, ?_⟩, ?_⟩
    · intro i hi
      have hbound := hfirst ((hshift quote i).mpr hi)
      omega
    · intro i hi hnewline
      exact hline (i + k) (by omega) ((hshift '\n' i).mpr hnewline)
  · rintro ⟨m, rfl, ⟨hoccurs, hfirst⟩, hline⟩
    refine ⟨⟨(hshift quote m).mpr hoccurs, ?_⟩, ?_⟩
    · intro i hi
      by_cases hlt : i < k
      · exact absurd hi (hnone quote (by simp) i hlt)
      · obtain ⟨j, rfl⟩ := Nat.exists_eq_add_of_le' (Nat.le_of_not_lt hlt)
        have hbound := hfirst ((hshift quote j).mp hi)
        omega
    · intro i hi hnewline
      by_cases hlt : i < k
      · exact hnone '\n' (by simp) i hlt hnewline
      · obtain ⟨j, rfl⟩ := Nat.exists_eq_add_of_le' (Nat.le_of_not_lt hlt)
        exact hline j (by omega) ((hshift '\n' j).mp hnewline)

lemma closesOnLine_cons (hc : c ≠ '\\') (hquote : c ≠ quote) (hline : c ≠ '\n') :
    ClosesOnLine quote (c :: cs) n ↔ ∃ m, n = m + 1 ∧ ClosesOnLine quote cs m := by
  apply closesOnLine_iff_of_shift
  · intro d hd m hm hoccurs
    obtain rfl : m = 0 := by omega
    obtain rfl := occursUnescapedAt_zero.mp hoccurs
    rcases List.mem_pair.mp hd with hd | hd
    · exact hquote hd
    · exact hline hd
  · intro d m
    exact occursUnescapedAt_succ hc

lemma closesOnLine_backslash (hquote : quote ≠ '\\') :
    ClosesOnLine quote ('\\' :: c :: cs) n ↔ ∃ m, n = m + 2 ∧ ClosesOnLine quote cs m := by
  apply closesOnLine_iff_of_shift
  · intro d hd m hm hoccurs
    obtain rfl | rfl : m = 0 ∨ m = 1 := by omega
    · obtain rfl := occursUnescapedAt_zero.mp hoccurs
      rcases List.mem_pair.mp hd with hd | hd
      · exact hquote hd.symm
      · exact absurd hd (by decide)
    · exact not_occursUnescapedAt_one hoccurs
  · intro d m
    exact occursUnescapedAt_backslash

lemma closesOnLine_quote : ClosesOnLine quote (quote :: cs) n ↔ n = 0 := by
  have hoccurs : OccursUnescapedAt [quote] (quote :: cs) 0 := occursUnescapedAt_zero.mpr rfl
  constructor
  · intro h
    have hle := h.first.2 hoccurs
    omega
  · rintro rfl
    refine ⟨⟨hoccurs, fun m _ => Nat.zero_le m⟩, ?_⟩
    intro m hm
    omega

lemma not_closesOnLine_newline (hquote : quote ≠ '\n') : ¬ClosesOnLine quote ('\n' :: cs) n := by
  intro h
  have hne : n ≠ 0 := by
    rintro rfl
    exact hquote (occursUnescapedAt_zero.mp h.first.1)
  exact h.same_line 0 (by omega) (occursUnescapedAt_zero.mpr rfl)

lemma StringReadTo.le_length (h : StringReadTo quote cs n) : n ≤ cs.length := by
  unfold StringReadTo at h
  split at h
  · obtain ⟨m, rfl, hoccurs, -⟩ := h
    have hle := hoccurs.length_le
    simp only [List.length_cons, List.length_nil, List.length_drop] at hle
    omega
  · obtain ⟨m, rfl, h⟩ := h
    exact h.first.1.lt_length

/-- Strings are read up to their ends unless the first three quotes in a row, which close a string,
are escaped. -/
theorem stringReadTo_iff_stringEndsAt :
    (∀ n, StringReadTo quote cs n ↔ StringEndsAt quote cs n) ↔
      ([quote, quote] <+: cs →
        ∀ m, IsLeast {m | OccursAt [quote, quote, quote] (cs.drop 2) m} m →
          escapesNext ((cs.drop 2).take m) = false) := by
  unfold StringReadTo StringEndsAt
  by_cases hthree : [quote, quote] <+: cs
  case neg =>
    constructor
    · intro _ h
      exact absurd h hthree
    · intro _ n
      rw [if_neg hthree, if_neg hthree]
  simp only [hthree, if_true, true_implies]
  constructor
  · intro h m hfirst
    obtain ⟨k, hk, hleast⟩ := (h (m + 5)).mp ⟨m, rfl, hfirst⟩
    obtain rfl : m = k := by omega
    exact hleast.1.2
  · intro hescape n
    constructor
    · rintro ⟨m, rfl, hfirst⟩
      exact ⟨m, rfl, ⟨hfirst.1, hescape m hfirst⟩, fun k hk => hfirst.2 hk.1⟩
    · rintro ⟨m, rfl, hleast⟩
      -- The first three quotes in a row are no later than those that end the string, and as they
      -- are not escaped, they are these.
      have hsome : ∃ k, OccursAt [quote, quote, quote] (cs.drop 2) k := ⟨m, hleast.1.1⟩
      have hfirst : IsLeast {k | OccursAt [quote, quote, quote] (cs.drop 2) k} (Nat.find hsome) :=
        ⟨Nat.find_spec hsome, fun k hk => Nat.find_min' hsome hk⟩
      have hle : m ≤ Nat.find hsome := hleast.2 ⟨hfirst.1, hescape _ hfirst⟩
      have hge : Nat.find hsome ≤ m := hfirst.2 hleast.1.1
      obtain rfl : Nat.find hsome = m := Nat.le_antisymm hge hle
      exact ⟨_, rfl, hfirst⟩

end

end Text

namespace Lexeme

open Text

variable {quote : Char} {cs rest : List Char} {n : ℕ} (hquote : quote = '"' ∨ quote = '\'')

lemma toTripleQuote?_eq_some_iff :
    toTripleQuote? quote cs = some n ↔
      ∃ m, n = m + 3 ∧ IsLeast {m | OccursAt [quote, quote, quote] cs m} m := by
  induction cs generalizing n with
  | nil =>
    constructor
    · intro h
      cases h
    · rintro ⟨m, -, hoccurs, -⟩
      have hle := hoccurs.length_le
      rw [List.drop_nil] at hle
      cases hle
  | cons c cs ih =>
    unfold toTripleQuote?
    by_cases hbegins : [quote, quote, quote] <+: c :: cs
    · have hfirst : OccursAt [quote, quote, quote] (c :: cs) 0 := hbegins
      rw [if_pos (List.isPrefixOf_iff_prefix.mpr hbegins), Option.some.injEq]
      constructor
      · rintro rfl
        exact ⟨0, rfl, hfirst, fun m _ => Nat.zero_le m⟩
      · rintro ⟨m, rfl, -, hleast⟩
        have hle := hleast hfirst
        omega
    · rw [if_neg (mt List.isPrefixOf_iff_prefix.mp hbegins)]
      simp only [Option.map_eq_some_iff, ih]
      constructor
      · rintro ⟨_, ⟨m, rfl, hoccurs, hleast⟩, rfl⟩
        refine ⟨m + 1, rfl, hoccurs, fun i hi => ?_⟩
        cases i with
        | zero => exact absurd hi hbegins
        | succ i => exact Nat.succ_le_succ (hleast hi)
      · rintro ⟨m, rfl, hoccurs, hleast⟩
        cases m with
        | zero => exact absurd hoccurs hbegins
        | succ m =>
          refine ⟨m + 3, ⟨m, rfl, hoccurs, fun i hi => ?_⟩, rfl⟩
          exact Nat.le_of_succ_le_succ (hleast (a := i + 1) hi)

include hquote

/-- By the recursion of the search, which passes over a backslash and what it escapes at once. -/
lemma toQuote?_eq_some_iff :
    toQuote? true quote cs = some n ↔ ∃ m, n = m + 1 ∧ ClosesOnLine quote cs m := by
  have hslash : quote ≠ '\\' ∧ quote ≠ '\n' := by
    rcases hquote with rfl | rfl <;> decide
  fun_induction toQuote? true quote cs generalizing n with
  | case1 =>
    constructor
    · intro h
      cases h
    · rintro ⟨m, -, h⟩
      exact absurd h.first.1.lt_length (Nat.not_lt_zero m)
  | case2 c rest ih =>
    simp only [Option.map_eq_some_iff, ih, closesOnLine_backslash hslash.1]
    constructor
    · rintro ⟨_, ⟨m, rfl, h⟩, rfl⟩
      exact ⟨m + 2, rfl, m, rfl, h⟩
    · rintro ⟨_, rfl, m, rfl, h⟩
      exact ⟨m + 1, ⟨m, rfl, h⟩, rfl⟩
  | case3 rest hescape =>
    obtain rfl : rest = [] := by
      cases rest with
      | nil => rfl
      | cons d rest => exact absurd rfl (hescape d rest rfl)
    constructor
    · intro h
      cases h
    · rintro ⟨m, -, h⟩
      have hlt := h.first.1.lt_length
      obtain rfl : m = 0 := by simpa using hlt
      exact absurd (occursUnescapedAt_zero.mp h.first.1) hslash.1
  | case4 rest hescape hslash' =>
    simp only [closesOnLine_quote, Option.some.injEq]
    constructor
    · rintro rfl
      exact ⟨0, rfl, rfl⟩
    · rintro ⟨m, rfl, rfl⟩
      rfl
  | case5 c rest hescape hslash' hc hline =>
    obtain rfl : c = '\n' := by simpa using hline
    constructor
    · intro h
      cases h
    · rintro ⟨m, -, h⟩
      exact absurd h (not_closesOnLine_newline hslash.2)
  | case6 c rest hescape hslash' hc hline ih =>
    have hnewline : c ≠ '\n' := by simpa using hline
    simp only [Option.map_eq_some_iff, ih, closesOnLine_cons hslash' hc hnewline]
    constructor
    · rintro ⟨_, ⟨m, rfl, h⟩, rfl⟩
      exact ⟨m + 1, rfl, m, rfl, h⟩
    · rintro ⟨_, rfl, m, rfl, h⟩
      exact ⟨m + 1, ⟨m, rfl, h⟩, rfl⟩

lemma stringRest?_eq_some_iff :
    stringRest? (.dialect .python) quote rest = some n ↔ StringReadTo quote rest n := by
  unfold stringRest? StringReadTo
  by_cases hthree : [quote, quote] <+: rest
  · rw [if_pos (List.isPrefixOf_iff_prefix.mpr hthree), if_pos hthree]
    simp only [Option.map_eq_some_iff, toTripleQuote?_eq_some_iff]
    constructor
    · rintro ⟨_, ⟨m, rfl, h⟩, rfl⟩
      exact ⟨m, rfl, h⟩
    · rintro ⟨m, rfl, h⟩
      exact ⟨m + 3, ⟨m, rfl, h⟩, rfl⟩
  · rw [if_neg (mt List.isPrefixOf_iff_prefix.mp hthree), if_neg hthree]
    exact toQuote?_eq_some_iff hquote

lemma stringRest?_eq_none_iff :
    stringRest? (.dialect .python) quote rest = none ↔ ∀ n, ¬StringReadTo quote rest n := by
  rw [Option.eq_none_iff_forall_ne_some]
  exact forall_congr' fun n => not_congr (stringRest?_eq_some_iff hquote)

/-- What starts at a quote is a string or the fault of one that is not closed. -/
lemma read_quote :
    read (.dialect .python) quote rest =
      match stringRest? (.dialect .python) quote rest with
      | some n => .ok ⟨some .string, n⟩
      | none => .error .unterminatedString := by
  have hother : ¬isLayout quote ∧ quote ≠ '#' ∧ (quote = '"' || quote = '\'') = true := by
    rcases hquote with rfl | rfl <;> decide
  have hread : read (.dialect .python) quote rest = _ := read_python hother.1 hother.2.1
  rw [if_pos hother.2.2] at hread
  exact hread

end Lexeme

namespace Tokens

/-- Errors behind an offset of a text are not at its position. -/
lemma scan_ne_error {host : Host} {text cs before : List Char} {offset : ℕ} {fault : SyntaxFault}
    (htext : text = before ++ cs) (hlt : offset < before.length) :
    scan host before.length (.ofOffset text before.length) cs ≠
      .error (.fault fault (.ofOffset text offset)) := by
  intro herror
  have hposition : Position.start.advance before = .ofOffset text before.length := by
    rw [htext, Position.advance_start_eq_ofOffset]
  have houtcome := outcome_scan host text before cs htext
  rw [hposition, herror] at houtcome
  obtain ⟨ts, j, c, rest, fault', htiled, hdrop, -, heq⟩ := houtcome
  have hj : j < text.length := List.length_lt_of_drop_ne_nil (by simp [hdrop])
  have hle := htiled.le
  exact Position.ofOffset_ne (by omega) hj.le (ReadError.fault.inj heq).2

lemma append_append {front middle : List Token} {behind : Tokens} :
    append front (append middle behind) = append (front ++ middle) behind := by
  unfold append
  rw [List.append_assoc]

section

variable {text before rest : List Char} {quote : Char} {n : ℕ}
  (htext : text = before ++ quote :: rest)

include htext

/-- A string that is read up to some offset is a token, and the text goes on behind it. -/
lemma scan_quote (hquote : quote = '"' ∨ quote = '\'') (hn : Text.StringReadTo quote rest n) :
    scan (.dialect .python) before.length (.ofOffset text before.length) (quote :: rest) =
      (scan (.dialect .python) (before.length + 1 + n)
        (.ofOffset text (before.length + 1 + n)) (rest.drop n)).map
          (append [⟨.string, String.ofList (quote :: rest.take n), before.length,
            before.length + 1 + n, .ofOffset text before.length⟩]) := by
  have htaken : (quote :: rest.take n).length = 1 + n := by
    rw [List.length_cons, List.length_take_of_le hn.le_length, Nat.add_comm]
  have hdrop : text.drop before.length = (quote :: rest.take n) ++ rest.drop n := by
    rw [htext, List.drop_left, List.cons_append, List.take_append_drop]
  have hadvance := Position.ofOffset_add hdrop
  have hread : Lexeme.read (.dialect .python) quote rest = _ := Lexeme.read_quote hquote
  rw [(Lexeme.stringRest?_eq_some_iff hquote).mpr hn] at hread
  rw [htaken, ← Nat.add_assoc] at hadvance
  rw [scan_cons hread]
  dsimp only
  rw [htaken, ← Nat.add_assoc, ← hadvance]
  unfold push append
  dsimp only
  rw [htaken, ← Nat.add_assoc]
  rfl

/-- The text behind a string has no error at the start of it. -/
lemma scan_behind_quote_ne_error (hn : Text.StringReadTo quote rest n) (fault : SyntaxFault) :
    scan (.dialect .python) (before.length + 1 + n) (.ofOffset text (before.length + 1 + n))
      (rest.drop n) ≠ .error (.fault fault (.ofOffset text before.length)) := by
  have hsplit : text = (before ++ quote :: rest.take n) ++ rest.drop n := by
    rw [htext, List.append_assoc, List.cons_append, List.take_append_drop]
  have hlength : (before ++ quote :: rest.take n).length = before.length + 1 + n := by
    rw [List.length_append, List.length_cons, List.length_take_of_le hn.le_length]
    omega
  rw [← hlength]
  apply scan_ne_error hsplit
  omega

end

end Tokens

/-- Where the lexer of python gets to a quote, the string there is a token if it is read up to some
offset, and the text is refused as an unterminated string there exactly if it is not. It is read up
to its end unless it is one in three quotes, and the next three in a row are escaped. -/
theorem ofText_string {text : String} {before rest : List Char} {quote : Char}
    {parts : List Stretch} (htext : text.toList = before ++ quote :: rest)
    (hquote : quote = '"' ∨ quote = '\'')
    (hbefore : Lexes (.dialect .python) (quote :: rest) before parts) :
    (∀ n, Text.StringReadTo quote rest n →
      Tokens.ofText (.dialect .python) text =
        (Tokens.scan (.dialect .python) (before.length + 1 + n)
          (.ofOffset text.toList (before.length + 1 + n)) (rest.drop n)).map
            (.append (Stretch.tokens 0 .start parts ++
              [⟨.string, String.ofList (quote :: rest.take n), before.length,
                before.length + 1 + n, .ofOffset text.toList before.length⟩]))) ∧
    (Tokens.ofText (.dialect .python) text =
        .error (.fault .unterminatedString (.ofOffset text.toList before.length)) ↔
      ∀ n, ¬Text.StringReadTo quote rest n) ∧
    ((∀ n, Text.StringReadTo quote rest n ↔ Text.StringEndsAt quote rest n) ↔
      ([quote, quote] <+: rest →
        ∀ m, IsLeast {m | Text.OccursAt [quote, quote, quote] (rest.drop 2) m} m →
          Text.escapesNext ((rest.drop 2).take m) = false)) := by
  have hposition : Position.start.advance before = .ofOffset text.toList before.length := by
    rw [htext, Position.advance_start_eq_ofOffset]
  have hfront : Tokens.ofText (.dialect .python) text =
      (Tokens.scan (.dialect .python) before.length (.ofOffset text.toList before.length)
        (quote :: rest)).map (Tokens.append (Stretch.tokens 0 .start parts)) := by
    unfold Tokens.ofText
    rw [htext, hbefore.scan_append, Nat.zero_add, hposition, htext]
  refine ⟨?_, ⟨?_, ?_⟩, Text.stringReadTo_iff_stringEndsAt⟩
  · intro n hn
    rw [hfront, Tokens.scan_quote htext hquote hn]
    cases Tokens.scan (.dialect .python) (before.length + 1 + n)
        (.ofOffset text.toList (before.length + 1 + n)) (rest.drop n) with
    | error error => rfl
    | ok behind => exact congrArg Except.ok Tokens.append_append
  · intro herror n hn
    have hbehind := Tokens.scan_behind_quote_ne_error htext hn .unterminatedString
    rw [hfront, Tokens.scan_quote htext hquote hn] at herror
    cases hscan : Tokens.scan (.dialect .python) (before.length + 1 + n)
        (.ofOffset text.toList (before.length + 1 + n)) (rest.drop n) with
    | error error =>
      rw [hscan] at herror
      exact hbehind (hscan.trans (congrArg Except.error (Except.error.inj herror)))
    | ok behind =>
      rw [hscan] at herror
      cases herror
  · intro hnone
    have hread : Lexeme.read (.dialect .python) quote rest = _ := Lexeme.read_quote hquote
    rw [(Lexeme.stringRest?_eq_none_iff hquote).mpr hnone] at hread
    rw [hfront, Tokens.scan, hread]
    rfl

/-- A string in three quotes with two quotes and two backslashes in it. -/
theorem ofText_string_threeQuotes :
    let text := "f'''it''\\\\'''"
    let rest := text.toList.drop 2
    Text.StringReadTo '\'' rest 11 ∧ Text.StringEndsAt '\'' rest 11 ∧
      Tokens.ofText (.dialect .python) text =
        .ok ⟨[⟨.ident, "f", 0, 1, ⟨1, 1⟩⟩, ⟨.string, "'''it''\\\\'''", 1, 13, ⟨1, 2⟩⟩],
          Tokens.endOf text.toList⟩ := by
  intro text rest
  have hbefore : Lexes (.dialect .python) ('\'' :: rest) ['f'] [⟨some .ident, ['f']⟩] := by
    have hname : Lexeme.read (.dialect .python) 'f' ([] ++ ([] ++ '\'' :: rest)) =
        .ok ⟨some .ident, ([] : List Char).length⟩ := by decide +kernel
    exact .cons hname .nil
  have hread : Text.StringReadTo '\'' rest 11 :=
    (Lexeme.stringRest?_eq_some_iff (.inr rfl)).mp (by decide)
  have htext : text.toList = ['f'] ++ '\'' :: rest := by decide
  obtain ⟨htoken, -, hends⟩ := ofText_string htext (.inr rfl) hbefore
  have hescape : ∀ m ∈ List.range 7, Text.escapesNext ((rest.drop 2).take m) = false ∨
      ¬Text.OccursAt ['\'', '\'', '\''] (rest.drop 2) m := by decide
  have hlast : Text.OccursAt ['\'', '\'', '\''] (rest.drop 2) 6 := by decide
  refine ⟨hread, (hends.mpr ?_ 11).mp hread, (htoken 11 hread).trans (by decide +kernel)⟩
  intro _ m hfirst
  have hle : m ≤ 6 := hfirst.2 hlast
  exact (hescape m (List.mem_range.mpr (by omega))).resolve_right (not_not_intro hfirst.1)

/-- In a string that three quotes close, an escaped quote before them is taken for the first of
them, and the last one for the start of another string. -/
theorem not_closed_escapedQuote :
    let text := "'''a\\''''"
    let rest := text.toList.tail
    Text.StringEndsAt '\'' rest 8 ∧ Text.StringReadTo '\'' rest 7 ∧
      Tokens.ofText (.dialect .python) text =
        .error (.fault .unterminatedString ⟨1, 9⟩) := by
  intro text rest
  have hread : Text.StringReadTo '\'' rest 7 :=
    (Lexeme.stringRest?_eq_some_iff (.inr rfl)).mp (by decide)
  have hnone : ∀ m ∈ List.range 3,
      ¬Text.OccursUnescapedAt ['\'', '\'', '\''] (rest.drop 2) m := by decide
  have hthree : ['\'', '\''] <+: rest := by decide
  refine ⟨?_, hread, by decide +kernel⟩
  unfold Text.StringEndsAt
  rw [if_pos hthree]
  refine ⟨3, rfl, by decide, ?_⟩
  intro m hm
  by_contra hlt
  exact hnone m (List.mem_range.mpr (by omega)) hm

end FieldComposition
