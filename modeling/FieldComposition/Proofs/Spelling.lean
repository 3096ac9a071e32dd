import FieldComposition.Proofs.TokenTiling
import FieldComposition.Text.Blank

/-!
# Spelling of tokens

The characters of a token fit its kind (`Lexeme.spells_of_read`): those of a name make an
identifier, and no token ends in a blank.
-/

namespace FieldComposition

namespace Text

def blankChars : List Char :=
  blanks.ranges.flatMap fun range => (List.range' range.1 (range.2 + 1 - range.1)).map Char.ofNat

lemma mem_blankChars {c : Char} (h : isBlank c) : c ∈ blankChars := by
  obtain ⟨range, hrange, hfirst, hlast⟩ := CharSet.exists_of_covers h
  have hcode : c.toNat ∈ List.range' range.1 (range.2 + 1 - range.1) := by
    rw [List.mem_range'_1]
    omega
  exact List.mem_flatMap.mpr ⟨range, hrange, List.mem_map.mpr ⟨_, hcode, Char.ofNat_toNat c⟩⟩

/-- A character of a class that holds no blank is none. -/
lemma isBlank_eq_false {p : Char → Bool} (hp : blankChars.any p = false) {c : Char} (h : p c) :
    isBlank c = false := by
  by_contra hblank
  exact List.any_eq_false.mp hp c (mem_blankChars (by simpa using hblank)) h

/-- A text that is not empty and ends in no blank. -/
def EndsInInk (cs : List Char) : Prop :=
  ∃ c, cs.getLast? = some c ∧ isBlank c = false

/-- The signs that stand in no word. -/
def wordBreaks : List Char :=
  ['\t', '\n', '\r', ' ', '!', '"', '#', '$', '%', '&', '\'', '(', ')', '*', '+', ',', '-', '.',
    '/', ':', ';', '<', '=', '>', '?', '@', '[', '\\', ']', '^', '{', '|', '}', '~']

lemma isWordChar_eq_false {c : Char} (h : c ∈ wordBreaks) : isWordChar c = false := by
  have hnone : wordBreaks.any isWordChar = false := by decide +kernel
  simpa using List.any_eq_false.mp hnone c h

lemma isWordStart_eq_false {c : Char} (h : c ∈ wordBreaks) : isWordStart c = false := by
  rw [isWordStart, isWordChar_eq_false h, Bool.false_and]

lemma not_mem_wordBreaks {c : Char} (h : isWordChar c) : c ∉ wordBreaks := by
  intro hmem
  rw [isWordChar_eq_false hmem] at h
  cases h

lemma isBlank_eq_false_of_isWordChar {c : Char} (h : isWordChar c) : isBlank c = false :=
  isBlank_eq_false (by decide +kernel) h

end Text

namespace Lexeme

/-- The characters of a name make an identifier, and no token ends in a blank. -/
structure Spells (kind : TokenKind) (spelling : List Char) : Prop where
  isIdentifier : kind = .ident ∨ kind.isSoftKeyword → Text.isIdentifier spelling
  last_not_blank : ∀ c ∈ spelling.getLast?, Text.isBlank c = false

lemma Spells.of_forall {kind : TokenKind} {spelling : List Char}
    (hkind : ¬(kind = .ident ∨ kind.isSoftKeyword))
    (h : ∀ c ∈ spelling, Text.isBlank c = false) : Spells kind spelling :=
  ⟨fun hname => absurd hname hkind, fun c hc => h c (List.mem_of_getLast? hc)⟩

lemma Spells.of_any {kind : TokenKind} {spelling : List Char}
    (hkind : ¬(kind = .ident ∨ kind.isSoftKeyword)) (h : spelling.any Text.isBlank = false) :
    Spells kind spelling :=
  .of_forall hkind fun c hc => by simpa using List.any_eq_false.mp h c hc

lemma take_length_takeWhile (p : Char → Bool) (cs : List Char) :
    cs.take (cs.takeWhile p).length = cs.takeWhile p :=
  (List.prefix_iff_eq_take.mp (List.takeWhile_prefix p)).symm

lemma spells_lifetime {host : Host} {rest : List Char} {more : Nat}
    (h : lifetimeRest? host rest = some more) : Spells .lifetime ('\'' :: rest.take more) := by
  refine .of_forall (by decide) fun x hx => ?_
  rcases List.mem_cons.mp hx with rfl | hx
  · decide
  unfold lifetimeRest? at h
  split at h
  case isFalse => exact absurd h (by simp)
  cases rest with
  | nil => exact absurd h (by simp)
  | cons c tail =>
    simp only [Bool.and_eq_true] at h
    split at h
    case isFalse => exact absurd h (by simp)
    rename_i hstart
    obtain rfl := Option.some.inj h
    rw [List.take_succ_cons, take_length_takeWhile] at hx
    apply Text.isBlank_eq_false_of_isWordChar
    rcases List.mem_cons.mp hx with rfl | hx
    · have hword := hstart.1
      rw [Text.isWordStart, Bool.and_eq_true] at hword
      exact hword.1
    · exact List.mem_takeWhile_imp hx

lemma getLast?_cons_of_eq_some {c x : Char} {cs : List Char} (h : cs.getLast? = some x) :
    (c :: cs).getLast? = some x := by
  rw [List.getLast?_cons, h]
  rfl

lemma getLast?_take_toTripleQuote {quote : Char} {cs : List Char} {n : Nat}
    (h : toTripleQuote? quote cs = some n) : (cs.take n).getLast? = some quote := by
  induction cs generalizing n with
  | nil => simp [toTripleQuote?] at h
  | cons c rest ih =>
    rw [toTripleQuote?] at h
    split at h
    · rename_i hquotes
      obtain ⟨tail, htail⟩ := List.isPrefixOf_iff_prefix.mp hquotes
      obtain rfl := Option.some.inj h
      rw [← htail]
      rfl
    · obtain ⟨m, hm, rfl⟩ := Option.map_eq_some_iff.mp h
      exact getLast?_cons_of_eq_some (ih hm)

lemma getLast?_take_toQuote {oneLine : Bool} {quote : Char} {cs : List Char} {n : Nat}
    (h : toQuote? oneLine quote cs = some n) : (cs.take n).getLast? = some quote := by
  fun_induction toQuote? oneLine quote cs generalizing n with
  | case1 => simp at h
  | case2 c rest ih =>
    obtain ⟨m, hm, rfl⟩ := Option.map_eq_some_iff.mp h
    exact getLast?_cons_of_eq_some (getLast?_cons_of_eq_some (ih hm))
  | case3 => simp at h
  | case4 =>
    obtain rfl := Option.some.inj h
    rfl
  | case5 => simp at h
  | case6 c rest _ _ _ _ ih =>
    obtain ⟨m, hm, rfl⟩ := Option.map_eq_some_iff.mp h
    exact getLast?_cons_of_eq_some (ih hm)

/-- A string ends in the quote that it starts with. -/
lemma getLast?_take_stringRest {host : Host} {quote : Char} {rest : List Char} {more : Nat}
    (h : stringRest? host quote rest = some more) : (rest.take more).getLast? = some quote := by
  unfold stringRest? at h
  split at h
  · rename_i hquotes
    obtain ⟨tail, rfl⟩ := List.isPrefixOf_iff_prefix.mp hquotes
    obtain ⟨m, hm, rfl⟩ := Option.map_eq_some_iff.mp h
    exact getLast?_cons_of_eq_some (getLast?_cons_of_eq_some (getLast?_take_toTripleQuote hm))
  · exact getLast?_take_toQuote h

lemma spells_string {host : Host} {quote : Char} {rest : List Char} {more : Nat}
    (hquote : quote = '"' ∨ quote = '\'') (h : stringRest? host quote rest = some more) :
    Spells .string (quote :: rest.take more) := by
  have hlast := getLast?_take_stringRest h
  refine ⟨fun hname => absurd hname (by decide), fun x hx => ?_⟩
  rw [getLast?_cons_of_eq_some hlast, Option.mem_some_iff] at hx
  subst hx
  rcases hquote with rfl | rfl <;> decide

lemma isBlank_eq_false_of_isNumberPart {c : Char} (h : isNumberPart c) : Text.isBlank c = false :=
  Text.isBlank_eq_false (by decide) h

lemma spells_number {c : Char} {rest : List Char} (hc : c.isDigit) :
    Spells .number (c :: rest.take (numberRest rest)) := by
  have hpart (x : Char) (hx : x ∈ rest.takeWhile isNumberPart) : Text.isBlank x = false :=
    isBlank_eq_false_of_isNumberPart (List.mem_takeWhile_imp hx)
  refine .of_forall (by decide) fun x hx => ?_
  rcases List.mem_cons.mp hx with rfl | hx
  · exact isBlank_eq_false_of_isNumberPart (by simp [isNumberPart, hc])
  unfold numberRest at hx
  dsimp only at hx
  split at hx
  · rename_i d fraction hdrop
    split at hx
    · rename_i hd
      rw [Nat.add_assoc, List.take_add, take_length_takeWhile, hdrop, List.mem_append] at hx
      rcases hx with hx | hx
      · exact hpart x hx
      rw [Nat.add_comm 2, List.take_succ_cons, List.take_succ_cons, take_length_takeWhile] at hx
      rcases List.mem_cons.mp hx with rfl | hx
      · decide
      rcases List.mem_cons.mp hx with rfl | hx
      · exact isBlank_eq_false_of_isNumberPart (by simp [isNumberPart, hd])
      · exact isBlank_eq_false_of_isNumberPart (List.mem_takeWhile_imp hx)
    · rw [take_length_takeWhile] at hx
      exact hpart x hx
  · rw [take_length_takeWhile] at hx
    exact hpart x hx

lemma spells_word {c : Char} {rest : List Char} {kind : TokenKind} {more : Nat}
    (hc : Text.isWordStart c) (h : word c rest = .ok ⟨some kind, more⟩) :
    Spells kind (c :: rest.take more) := by
  simp only [word] at h
  split at h
  case isFalse => exact absurd h (by simp)
  rename_i hidentifier
  obtain ⟨-, rfl⟩ := Lexeme.mk.inj (Except.ok.inj h)
  rw [take_length_takeWhile]
  refine ⟨fun _ => hidentifier, fun x hx => Text.isBlank_eq_false_of_isWordChar ?_⟩
  rcases List.mem_cons.mp (List.mem_of_getLast? hx) with rfl | hx
  · rw [Text.isWordStart, Bool.and_eq_true] at hc
    exact hc.1
  · exact List.mem_takeWhile_imp hx

lemma spells_shortOperator {c : Char} {kind : TokenKind} (h : shortOperator? c = some kind) :
    Spells kind [c] := by
  unfold shortOperator? at h
  split at h
  case h_15 =>
    split at h
    case isFalse => exact absurd h (by simp)
    rename_i hc
    obtain rfl := Option.some.inj h
    have hnone : ['-', '*', '/', '%', '!', '^', '|', '~', '@', '?', '$', ';', '#'].any
        Text.isBlank = false := by decide
    exact .of_any (by decide) (by simpa using List.any_eq_false.mp hnone c (by simpa using hc))
  all_goals
    obtain rfl := Option.some.inj h
    exact .of_any (by decide) (by decide)

lemma spells_operator {c : Char} {rest : List Char} {kind : TokenKind} {more : Nat}
    (h : operator? c rest = some ⟨some kind, more⟩) : Spells kind (c :: rest.take more) := by
  unfold operator? at h
  split at h
  · rename_i spelling kind' hfind
    obtain ⟨hkind, rfl⟩ := Lexeme.mk.inj (Option.some.inj h)
    obtain rfl := Option.some.inj hkind
    have htable : ∀ entry ∈ longOperators, ¬(entry.2 = .ident ∨ entry.2.isSoftKeyword) ∧
        entry.1 ≠ [] ∧ entry.1.any Text.isBlank = false := by decide
    obtain ⟨hname, hspelling, hblank⟩ := htable _ (List.mem_of_find?_eq_some hfind)
    have hprefix := List.find?_some hfind
    obtain ⟨tail, htail⟩ := List.isPrefixOf_iff_prefix.mp hprefix
    obtain ⟨d, more, rfl⟩ := List.exists_cons_of_ne_nil hspelling
    obtain ⟨rfl, rfl⟩ : d = c ∧ more ++ tail = rest := by simpa using htail
    have htaken : (more ++ tail).take ((d :: more).length - 1) = more := by simp
    rw [htaken]
    exact .of_any hname hblank
  · obtain ⟨kind', hkind, hlexeme⟩ := Option.map_eq_some_iff.mp h
    obtain ⟨hkind', rfl⟩ := Lexeme.mk.inj hlexeme
    obtain rfl := Option.some.inj hkind'
    exact spells_shortOperator hkind

/-- A token that the lexer reads is spelled as its kind demands. -/
theorem spells_of_read {host : Host} {c : Char} {rest : List Char} {kind : TokenKind} {more : Nat}
    (h : read host c rest = .ok ⟨some kind, more⟩) : Spells kind (c :: rest.take more) := by
  unfold read at h
  split at h
  · exact absurd h (by simp)
  split at h
  · exact absurd h (by simp)
  split at h
  · rename_i hlifetime
    obtain ⟨hkind, rfl⟩ := Lexeme.mk.inj (Except.ok.inj h)
    obtain rfl := Option.some.inj hkind
    split at hlifetime
    · rename_i hc
      subst hc
      exact spells_lifetime hlifetime
    · exact absurd hlifetime (by simp)
  split at h
  · rename_i hquote
    split at h
    · rename_i hstring
      obtain ⟨hkind, rfl⟩ := Lexeme.mk.inj (Except.ok.inj h)
      obtain rfl := Option.some.inj hkind
      exact spells_string (by simpa using hquote) hstring
    · exact absurd h (by simp)
  split at h
  · rename_i hdigit
    obtain ⟨hkind, rfl⟩ := Lexeme.mk.inj (Except.ok.inj h)
    obtain rfl := Option.some.inj hkind
    exact spells_number hdigit
  split at h
  · rename_i hstart
    exact spells_word hstart h
  · split at h
    · rename_i hoperator
      obtain rfl := Except.ok.inj h
      exact spells_operator hoperator
    · exact absurd h (by simp)

end Lexeme

lemma Token.IsReadFrom.spells {host : Host} {text : List Char} {t : Token}
    (h : t.IsReadFrom host text) :
    Lexeme.Spells t.kind ((text.drop t.start).take (t.stop - t.start)) := by
  obtain ⟨c, rest, more, hdrop, hread, hstop⟩ := h
  rw [hdrop, hstop, Nat.add_sub_cancel_left, List.length_cons, List.take_succ_cons]
  have hlength : rest.take (rest.take more).length = rest.take more :=
    (List.prefix_iff_eq_take.mp (List.take_prefix ..)).symm
  rw [hlength]
  exact Lexeme.spells_of_read hread

end FieldComposition
