import FieldComposition.Proofs.PaddedText
import FieldComposition.Text.Quoted

/-!
# Reading words, marks and quoted text

Emitted code puts words, marks and quoted text around the text of the caller. Each of them is read
as a token of its own when the right characters follow it: no word character behind a word
(`Lexeme.read_word`), nothing in particular behind a bracket or a comma (`Lexeme.read_mark`), and no
further quote behind quoted text (`Lexeme.exists_read_quotedChars`).
-/

namespace FieldComposition

/-- A kind of token that neither opens nor closes a bracket nor separates anything. -/
structure TokenKind.IsInert (kind : TokenKind) : Prop where
  isOpener_eq : kind.isOpener = false
  isCloser_eq : kind.isCloser = false
  ne_comma : kind ≠ .comma

/-- The kinds of identifiers and keywords. -/
def TokenKind.isWord : TokenKind → Bool
  | ident | wordIn | wordMut | wordFn | wordFor | wordStruct | wordWhere | wordPub => true
  | _ => false

lemma TokenKind.isWord_of_isSoftKeyword {kind : TokenKind}
    (h : kind = .ident ∨ kind.isSoftKeyword) : kind.isWord := by
  rcases h with rfl | hsoft
  · rfl
  · cases kind <;> first | rfl | cases hsoft

namespace Text

/-- Whether one of the ranges meets the code points from `low` to `high`, as `CharSet.covers` looks
for a single code point. -/
def CharSet.meets : List (Nat × Nat) → Nat → Nat → Bool
  | [], _, _ => false
  | (first, last) :: rest, low, high =>
    Nat.ble first high && (Nat.ble low last || meets rest low high)

lemma CharSet.meets_of_covers {ranges : List (Nat × Nat)} {low high code : Nat} (hlow : low ≤ code)
    (hhigh : code ≤ high) (h : covers ranges code) : meets ranges low high := by
  induction ranges with
  | nil => cases h
  | cons range rest ih =>
    obtain ⟨first, last⟩ := range
    simp only [covers, meets, Bool.and_eq_true, Bool.or_eq_true, decide_eq_true_eq,
      Nat.ble_eq] at h ⊢
    exact ⟨h.1.trans hhigh, h.2.imp hlow.trans ih⟩

lemma exists_first_of_isDecimalDigit {c : Char} (h : isDecimalDigit c) :
    ∃ first ∈ decimalZeros, first ≤ c.toNat ∧ c.toNat ≤ first + 9 := by
  obtain ⟨value, hvalue⟩ := Option.isSome_iff_exists.mp h
  obtain ⟨first, hfind, -⟩ := Option.map_eq_some_iff.mp hvalue
  have hbounds := List.find?_some hfind
  simp only [Bool.and_eq_true, decide_eq_true_eq] at hbounds
  exact ⟨first, List.mem_of_find?_eq_some hfind, hbounds.1, Nat.le_of_lt_succ hbounds.2⟩

/-- A decimal digit does not start an identifier: no run of digits meets a range of characters that
do. -/
lemma isDecimalDigit_eq_false {c : Char} (h : isIdentifierStart c) : isDecimalDigit c = false := by
  have hletters : decimalZeros.all fun first =>
      !CharSet.meets letters.ranges first (first + 9) := by decide +kernel
  have hothers : decimalZeros.all fun first =>
      !CharSet.meets identifierStartersBesideLetters.ranges first (first + 9) := by decide +kernel
  by_contra hdigit
  obtain ⟨first, hfirst, hlow, hhigh⟩ := exists_first_of_isDecimalDigit (by simpa using hdigit)
  have hmisses : ∀ set : CharSet, (decimalZeros.all fun first =>
      !CharSet.meets set.ranges first (first + 9)) → ¬set.contains c := by
    intro set hset hcontains
    have hmeets := CharSet.meets_of_covers hlow hhigh hcontains
    have hnot := List.all_eq_true.mp hset first hfirst
    rw [hmeets] at hnot
    cases hnot
  simp only [isIdentifierStart, Bool.or_eq_true, Bool.and_eq_true, beq_iff_eq] at h
  rcases h with (rfl | ⟨hletter, -⟩) | hother
  · exact hdigit (by decide)
  · exact hmisses letters hletters hletter
  · exact hmisses identifierStartersBesideLetters hothers hother

lemma isDecimalDigit_of_isDigit {c : Char} (h : c.isDigit) : isDecimalDigit c := by
  have hbounds : 0x30 ≤ c.toNat && c.toNat < 0x30 + 10 := by
    rw [Char.isDigit, Bool.and_eq_true, decide_eq_true_eq, decide_eq_true_eq] at h
    rw [Bool.and_eq_true, decide_eq_true_eq, decide_eq_true_eq]
    exact ⟨h.1, Nat.lt_succ_of_le h.2⟩
  rw [isDecimalDigit, digitValue?, Option.isSome_map, List.find?_isSome]
  exact ⟨0x30, by decide, hbounds⟩

/-- An identifier that is made of word characters. -/
structure IsWord (cs : List Char) : Prop where
  isIdentifier : isIdentifier cs
  isWordChar : ∀ c ∈ cs, isWordChar c

instance (cs : List Char) : Decidable (IsWord cs) :=
  decidable_of_iff (Text.isIdentifier cs ∧ ∀ c ∈ cs, Text.isWordChar c)
    ⟨fun h => ⟨h.1, h.2⟩, fun h => ⟨h.1, h.2⟩⟩

variable {c : Char} {cs ds : List Char}

lemma IsWord.isWordStart (h : IsWord (c :: cs)) : isWordStart c := by
  have hstart : isIdentifierStart c := (Bool.and_eq_true_iff.mp h.isIdentifier).1
  rw [Text.isWordStart, h.isWordChar c List.mem_cons_self, isDecimalDigit_eq_false hstart]
  rfl

lemma IsWord.ne_nil (h : IsWord cs) : cs ≠ [] := by
  rintro rfl
  cases h.isIdentifier

lemma IsWord.isBlank_eq_false (h : IsWord cs) : ∀ c ∈ cs, isBlank c = false :=
  fun c hc => isBlank_eq_false_of_isWordChar (h.isWordChar c hc)

lemma IsWord.advance {cs : List Char} (h : IsWord cs) (q : Position) :
    q.advance cs = ⟨q.line, q.column + cs.length⟩ :=
  Position.advance_of_not_mem
    (fun hmem => not_mem_wordBreaks (h.isWordChar _ hmem) (by decide)) q

lemma EndsInInk.of_forall (hne : cs ≠ []) (h : ∀ c ∈ cs, isBlank c = false) : EndsInInk cs :=
  ⟨_, List.getLast?_eq_some_getLast hne, h _ (List.getLast_mem hne)⟩

lemma EndsInInk.append (h : EndsInInk ds) : EndsInInk (cs ++ ds) := by
  obtain ⟨last, hlast, hblank⟩ := h
  refine ⟨last, ?_, hblank⟩
  rw [List.getLast?_append, hlast]
  rfl

end Text

namespace Lexeme

variable {host : Host} {c quote : Char} {cs rest more : List Char}

lemma IsDelimited.forall_head {p : Char → Bool} (h : IsDelimited more)
    (hdelimiter : ∀ c ∈ ['(', ')', ','], p c = false) : ∀ c ∈ more.head?, p c = false :=
  fun c hc => hdelimiter c (h c hc)

lemma IsDelimited.not_isWordChar (h : IsDelimited more) :
    ∀ c ∈ more.head?, Text.isWordChar c = false :=
  fun c hc => Text.isWordChar_eq_false ((by decide : ['(', ')', ','] ⊆ Text.wordBreaks) (h c hc))

/-- The kind of a word. -/
def wordKind (cs : List Char) : TokenKind :=
  (keyword? (String.ofList cs)).getD .ident

/-- A word is read up to its end where no word character follows it. -/
lemma read_word (h : Text.IsWord (c :: cs))
    (hmore : ∀ d ∈ more.head?, Text.isWordChar d = false) :
    read host c (cs ++ more) = .ok ⟨some (wordKind (c :: cs)), cs.length⟩ := by
  have hbreaks : [' ', '\t', '\r', '\n', '#', '/', '"', '\''] ⊆ Text.wordBreaks := by decide
  have hc := Text.not_mem_wordBreaks (h.isWordChar c List.mem_cons_self)
  have hlayout : ¬isLayout c := by
    intro hlayout
    have hmem : c ∈ [' ', '\t', '\r', '\n', '#', '/', '"', '\''] := by
      simp only [isLayout, Bool.or_eq_true, beq_iff_eq] at hlayout
      rcases hlayout with ((rfl | rfl) | rfl) | rfl <;> decide
    exact hc (hbreaks hmem)
  have hne {d : Char} (hd : d ∈ [' ', '\t', '\r', '\n', '#', '/', '"', '\'']) : c ≠ d := by
    rintro rfl
    exact hc (hbreaks hd)
  have hmark : host.commentMark.isPrefixOf (c :: (cs ++ more)) = false :=
    isPrefixOf_commentMark ⟨hne (by decide), hne (by decide)⟩
  have hquote : ¬(c = '"' || c = '\'') = true := by
    simp [hne (d := '"') (by decide), hne (d := '\'') (by decide)]
  have hstart := h.isWordStart
  have hdigit : ¬c.isDigit := by
    intro hdigit
    rw [Text.isWordStart, Text.isDecimalDigit_of_isDigit hdigit, Bool.and_eq_true] at hstart
    cases hstart.2
  have htail : (cs ++ more).takeWhile Text.isWordChar = cs :=
    takeWhile_append_eq (fun d hd => h.isWordChar d (List.mem_cons_of_mem _ hd)) hmore
  rw [read_eq hlayout (by simp [hmark]) fun hc => absurd (by simp [hc]) hquote, if_neg hquote,
    if_neg hdigit, if_pos hstart]
  simp only [word]
  rw [htail, if_pos h.isIdentifier]
  rfl

lemma isInert_wordKind (cs : List Char) : (wordKind cs).IsInert := by
  unfold wordKind keyword?
  split <;> exact ⟨rfl, rfl, by decide⟩

lemma isWord_of_word {kind : TokenKind} {n : Nat} (h : word c rest = .ok ⟨some kind, n⟩) :
    kind.isWord := by
  simp only [word] at h
  split at h
  · obtain rfl := Option.some.inj (Lexeme.mk.inj (Except.ok.inj h)).1
    unfold keyword?
    split <;> rfl
  · cases h

lemma not_word_of_operator? {kind : TokenKind} {n : Nat}
    (h : operator? c rest = some ⟨some kind, n⟩) : kind.isWord = false := by
  have hlong : ∀ entry ∈ longOperators, entry.2.isWord = false := by decide
  unfold operator? at h
  split at h
  · rename_i spelling kind' hfind
    obtain rfl := Option.some.inj (Lexeme.mk.inj (Option.some.inj h)).1
    exact hlong _ (List.mem_of_find?_eq_some hfind)
  · obtain ⟨kind', hkind', hlexeme⟩ := Option.map_eq_some_iff.mp h
    obtain rfl := Option.some.inj (Lexeme.mk.inj hlexeme).1
    unfold shortOperator? at hkind'
    split at hkind'
    case h_15 =>
      split at hkind'
      · obtain rfl := Option.some.inj hkind'
        decide
      · cases hkind'
    all_goals
      obtain rfl := Option.some.inj hkind'
      decide

/-- Each kind of token is read in its own way. -/
lemma read_kind_cases {kind : TokenKind} {n : Nat} (h : read host c rest = .ok ⟨some kind, n⟩) :
    (kind = .lifetime ∧ c = '\'' ∧ lifetimeRest? host rest = some n) ∨
      (kind = .string ∧ (c = '"' ∨ c = '\'') ∧ stringRest? host c rest = some n) ∨
      (kind = .number ∧ c.isDigit ∧ n = numberRest rest) ∨
      (Text.isWordStart c ∧ word c rest = .ok ⟨some kind, n⟩) ∨
      operator? c rest = some ⟨some kind, n⟩ := by
  unfold read at h
  split at h
  · cases h
  split at h
  · cases h
  split at h
  · rename_i hlifetime
    obtain ⟨hkind, rfl⟩ := Lexeme.mk.inj (Except.ok.inj h)
    obtain rfl := Option.some.inj hkind
    split at hlifetime
    · rename_i hc
      exact .inl ⟨rfl, hc, hlifetime⟩
    · cases hlifetime
  split at h
  · rename_i hquote
    split at h
    · rename_i hstring
      obtain ⟨hkind, rfl⟩ := Lexeme.mk.inj (Except.ok.inj h)
      obtain rfl := Option.some.inj hkind
      exact .inr (.inl ⟨rfl, by simpa using hquote, hstring⟩)
    · cases h
  split at h
  · rename_i hdigit
    obtain ⟨hkind, rfl⟩ := Lexeme.mk.inj (Except.ok.inj h)
    obtain rfl := Option.some.inj hkind
    exact .inr (.inr (.inl ⟨rfl, hdigit, rfl⟩))
  split at h
  · rename_i hstart
    exact .inr (.inr (.inr (.inl ⟨hstart, h⟩)))
  · cases hoperator : operator? c rest with
    | none =>
      rw [hoperator] at h
      cases h
    | some lexeme =>
      rw [hoperator] at h
      exact .inr (.inr (.inr (.inr (congrArg some (Except.ok.inj h)))))

/-- A token that is no lifetime, string or number is a word or an operator. -/
lemma read_token_cases {kind : TokenKind} {n : Nat} (h : read host c rest = .ok ⟨some kind, n⟩) :
    kind ∈ [.lifetime, .string, .number] ∨
      (Text.isWordStart c ∧ word c rest = .ok ⟨some kind, n⟩) ∨
      operator? c rest = some ⟨some kind, n⟩ := by
  rcases read_kind_cases h with ⟨rfl, -⟩ | ⟨rfl, -⟩ | ⟨rfl, -⟩ | hbehind
  · exact .inl (by decide)
  · exact .inl (by decide)
  · exact .inl (by decide)
  · exact .inr hbehind

/-- A token that is a word is read from a word with no word character behind it. -/
lemma isWord_of_read {taken : List Char} {kind : TokenKind}
    (h : read host c (taken ++ more) = .ok ⟨some kind, taken.length⟩) (hkind : kind.isWord) :
    Text.IsWord (c :: taken) ∧ kind = wordKind (c :: taken) ∧
      ∀ d ∈ more.head?, Text.isWordChar d = false := by
  have hnone : ∀ kind' ∈ [TokenKind.lifetime, .string, .number], kind'.isWord = false := by decide
  rcases read_token_cases h with hother | ⟨hstart, hword⟩ | hoperator
  · rw [hnone kind hother] at hkind
    cases hkind
  · simp only [word] at hword
    split at hword
    case isFalse => cases hword
    rename_i hidentifier
    obtain ⟨hkeyword, hlength⟩ := Lexeme.mk.inj (Except.ok.inj hword)
    obtain ⟨htaken, hmore⟩ := of_length_takeWhile hlength
    rw [takeWhile_append_eq htaken hmore] at hidentifier hkeyword
    refine ⟨⟨hidentifier, fun d hd => ?_⟩, (Option.some.inj hkeyword).symm, hmore⟩
    rcases List.mem_cons.mp hd with rfl | hd
    · exact (Bool.and_eq_true_iff.mp hstart).1
    · exact htaken d hd
  · rw [not_word_of_operator? hoperator] at hkind
    cases hkind

/-- Characters that are tokens of their own whatever follows them. -/
def marks : List (Char × TokenKind) :=
  [('(', .openParen), (')', .closeParen), (',', .comma)]

lemma read_mark {kind : TokenKind} (h : (c, kind) ∈ marks) :
    read (.dialect .python) c rest = .ok ⟨some kind, 0⟩ := by
  have hmarks : ∀ mark ∈ marks, isLayout mark.1 = false ∧ mark.1 ≠ '#' ∧
      (mark.1 = '"' || mark.1 = '\'') = false ∧ mark.1.isDigit = false ∧
      mark.1 ∈ Text.wordBreaks := by decide
  obtain ⟨hlayout, hmark, hquote, hdigit, hbreak⟩ := hmarks _ h
  dsimp only at hlayout hmark hquote hdigit hbreak
  have hword := Text.isWordStart_eq_false hbreak
  have hoperator : operator? c rest = some ⟨some kind, 0⟩ := by
    simp only [marks, List.mem_cons, Prod.mk.injEq, List.not_mem_nil, or_false] at h
    rcases h with ⟨rfl, rfl⟩ | ⟨rfl, rfl⟩ | ⟨rfl, rfl⟩ <;> rfl
  rw [read_python (by simp [hlayout]) hmark, if_neg (by simp [hquote]), if_neg (by simp [hdigit]),
    if_neg (by simp [hword]), hoperator]

/-- A dot is read alone where no other dot follows it. -/
lemma read_dot (h : ∀ d ∈ rest.head?, d ≠ '.') :
    read (.dialect .python) '.' rest = .ok ⟨some .dot, 0⟩ := by
  have hword : Text.isWordStart '.' = false := Text.isWordStart_eq_false (by decide)
  have hoperator : operator? '.' rest = some ⟨some .dot, 0⟩ := by
    cases rest with
    | nil => rfl
    | cons d rest =>
      have hd := h d rfl
      simp [operator?, longOperators, List.isPrefixOf, hd.symm, shortOperator?]
  rw [read_python (by decide) (by decide), if_neg (by decide), if_neg (by decide),
    if_neg (by simp [hword]), hoperator]

/-- The characters of the operators that may go on with an equals sign that stands before them. -/
def isComparison (c : Char) : Bool :=
  c == '=' || c == '>'

lemma read_comparison_eq (hc : isComparison c) :
    read (.dialect .python) c rest =
      match operator? c rest with
      | some lexeme => .ok lexeme
      | none => .error (.unexpectedCharacter c) := by
  have hword : Text.isWordStart '=' = false ∧ Text.isWordStart '>' = false :=
    ⟨Text.isWordStart_eq_false (by decide), Text.isWordStart_eq_false (by decide)⟩
  simp only [isComparison, Bool.or_eq_true, beq_iff_eq] at hc
  rcases hc with rfl | rfl
  · exact (read_python (by decide) (by decide)).trans
      ((if_neg (by decide)).trans ((if_neg (by decide)).trans (if_neg (by simp [hword.1]))))
  · exact (read_python (by decide) (by decide)).trans
      ((if_neg (by decide)).trans ((if_neg (by decide)).trans (if_neg (by simp [hword.2]))))

lemma read_comparison (hc : isComparison c) {d : Char} (hd : isComparison d) :
    ∃ kind, kind.IsInert ∧ read (.dialect .python) c (d :: rest) = .ok ⟨some kind, 1⟩ := by
  rw [read_comparison_eq hc]
  simp only [isComparison, Bool.or_eq_true, beq_iff_eq] at hc hd
  rcases hc with rfl | rfl <;> rcases hd with rfl | rfl
  all_goals
    refine ⟨_, ?_, rfl⟩
    exact ⟨rfl, rfl, by decide⟩

lemma read_comparison_alone (hc : isComparison c)
    (hrest : ∀ d ∈ rest.head?, isComparison d = false) :
    ∃ kind, kind.IsInert ∧ read (.dialect .python) c rest = .ok ⟨some kind, 0⟩ := by
  rw [read_comparison_eq hc]
  have hoperator : operator? c rest = (shortOperator? c).map fun kind => ⟨some kind, 0⟩ := by
    simp only [isComparison, Bool.or_eq_true, beq_iff_eq] at hc
    cases rest with
    | nil => rcases hc with rfl | rfl <;> rfl
    | cons d rest =>
      have hd := hrest d rfl
      rw [isComparison, Bool.or_eq_false_iff, beq_eq_false_iff_ne, beq_eq_false_iff_ne] at hd
      rcases hc with rfl | rfl <;>
        simp [operator?, longOperators, List.isPrefixOf, hd.1.symm, hd.2.symm]
  rw [hoperator]
  simp only [isComparison, Bool.or_eq_true, beq_iff_eq] at hc
  rcases hc with rfl | rfl
  all_goals
    refine ⟨_, ?_, rfl⟩
    exact ⟨rfl, rfl, by decide⟩

section Quoted

variable {quote : Char} {cs rest : List Char}

/-- Characters that stand for themselves in a quoted text. -/
def isBare (quote c : Char) : Bool :=
  c != quote && c != '\\' && !Text.isLineEnd c

lemma toQuote?_bare (h : ∀ c ∈ cs, isBare quote c) :
    toQuote? true quote (cs ++ rest) = (toQuote? true quote rest).map (· + cs.length) := by
  induction cs with
  | nil => simp
  | cons c cs ih =>
    have hc := h c List.mem_cons_self
    simp only [isBare, Bool.and_eq_true, bne_iff_ne, Bool.not_eq_true'] at hc
    have hnewline : c ≠ '\n' := by
      rintro rfl
      exact absurd hc.2 (by decide)
    rw [List.cons_append, toQuote?_cons hc.1.2, if_neg hc.1.1, if_neg (by simp [hnewline]),
      ih fun d hd => h d (List.mem_cons_of_mem _ hd), Option.map_map]
    congr 1

lemma digitChar_mem (n : Nat) : Nat.digitChar n ∈
    ['0', '1', '2', '3', '4', '5', '6', '7', '8', '9', 'a', 'b', 'c', 'd', 'e', 'f', '*'] := by
  match n with
  | 0 | 1 | 2 | 3 | 4 | 5 | 6 | 7 | 8 | 9 | 10 | 11 | 12 | 13 | 14 | 15 => decide
  | _ + 16 => simp [Nat.digitChar]

lemma exists_digitChar_of_mem_toDigitsCore {base fuel n : Nat} {ds : List Char}
    (hds : ∀ c ∈ ds, ∃ m, c = Nat.digitChar m) :
    ∀ c ∈ Nat.toDigitsCore base fuel n ds, ∃ m, c = Nat.digitChar m := by
  induction fuel generalizing n ds with
  | zero => exact hds
  | succ fuel ih =>
    have hcons : ∀ c ∈ Nat.digitChar (n % base) :: ds, ∃ m, c = Nat.digitChar m := by
      intro c hc
      rcases List.mem_cons.mp hc with rfl | hc
      · exact ⟨_, rfl⟩
      · exact hds c hc
    rw [Nat.toDigitsCore]
    split
    · exact hcons
    · exact ih hcons

variable (hquote : quote = '"' ∨ quote = '\'')

include hquote

lemma isBare_hexDigits {width n : Nat} : ∀ c ∈ Text.hexDigits width n, isBare quote c := by
  have hbare : ∀ c ∈ ['0', '1', '2', '3', '4', '5', '6', '7', '8', '9', 'a', 'b', 'c', 'd', 'e',
      'f', '*'], isBare quote c := by
    rcases hquote with rfl | rfl <;> decide
  intro c hc
  rcases List.mem_append.mp hc with hc | hc
  · rw [List.eq_of_mem_replicate hc]
    exact hbare '0' (by decide)
  · obtain ⟨m, rfl⟩ := exists_digitChar_of_mem_toDigitsCore (by simp) c hc
    exact hbare _ (digitChar_mem m)

/-- A quoted character is passed as a whole: it stands for itself or is an escape. -/
lemma quotedChar_cases (c : Char) :
    (Text.quotedChar quote c = [c] ∧ isBare quote c) ∨
      ∃ d bare, Text.quotedChar quote c = '\\' :: d :: bare ∧ Text.isLineEnd d = false ∧
        ∀ e ∈ bare, isBare quote e := by
  have hlineEnds : ∀ d ∈ ['\n', '\r', '\x0b', '\x0c', '\x1c', '\x1d', '\x1e', '\u0085', '\u2028',
      '\u2029'], Text.isPrintable d = false := by decide +kernel
  have hquoteEnd := isLineEnd_quote hquote
  have hescape (d : Char) (bare : List Char) (hd : Text.isLineEnd d = false)
      (hbare : ∀ e ∈ bare, isBare quote e) : ('\\' :: d :: bare = [c] ∧ isBare quote c) ∨
        ∃ d' bare', '\\' :: d :: bare = '\\' :: d' :: bare' ∧ Text.isLineEnd d' = false ∧
          ∀ e ∈ bare', isBare quote e := .inr ⟨d, bare, rfl, hd, hbare⟩
  unfold Text.quotedChar
  split
  · rename_i hc
    refine hescape c [] ?_ (by simp)
    rcases (Bool.or_eq_true _ _).mp hc with hc | hc
    · rwa [of_decide_eq_true hc]
    · rw [of_decide_eq_true hc]
      decide
  rename_i hc
  split
  · exact hescape 'n' [] (by decide) (by simp)
  split
  · exact hescape 'r' [] (by decide) (by simp)
  split
  · exact hescape 't' [] (by decide) (by simp)
  split
  · rename_i hprintable
    have hend : Text.isLineEnd c = false := by
      by_contra hend
      have hend : Text.isLineEnd c := by simpa using hend
      rw [hlineEnds c (by simpa [Text.isLineEnd, or_assoc] using hend)] at hprintable
      cases hprintable
    refine .inl ⟨rfl, ?_⟩
    simpa [isBare, hend] using hc
  · unfold Text.codeEscape
    dsimp only
    split
    · exact hescape 'x' _ (by decide) (isBare_hexDigits hquote)
    split
    · exact hescape 'u' _ (by decide) (isBare_hexDigits hquote)
    · exact hescape 'U' _ (by decide) (isBare_hexDigits hquote)

lemma isLineEnd_quotedChar (c : Char) :
    ∀ d ∈ Text.quotedChar quote c, Text.isLineEnd d = false := by
  have hbareEnd {e : Char} (h : isBare quote e) : Text.isLineEnd e = false := by
    simpa using (Bool.and_eq_true_iff.mp h).2
  intro d hd
  rcases quotedChar_cases hquote c with ⟨heq, hbare⟩ | ⟨e, bare, heq, he, hbare⟩
  · rw [heq] at hd
    obtain rfl := List.mem_singleton.mp hd
    exact hbareEnd hbare
  · rw [heq] at hd
    rcases List.mem_cons.mp hd with rfl | hd
    · decide
    rcases List.mem_cons.mp hd with rfl | hd
    · exact he
    · exact hbareEnd (hbare d hd)

lemma toQuote?_quotedChar (c : Char) :
    toQuote? true quote (Text.quotedChar quote c ++ rest) =
      (toQuote? true quote rest).map (· + (Text.quotedChar quote c).length) := by
  rcases quotedChar_cases hquote c with ⟨heq, hbare⟩ | ⟨d, bare, heq, -, hbare⟩
  · rw [heq]
    exact toQuote?_bare (by simpa using hbare)
  · rw [heq, List.cons_append, List.cons_append, toQuote?, toQuote?_bare hbare, Option.map_map]
    congr 1

lemma toQuote?_quotedChars :
    toQuote? true quote (cs.flatMap (Text.quotedChar quote) ++ quote :: rest) =
      some ((cs.flatMap (Text.quotedChar quote)).length + 1) := by
  induction cs with
  | nil =>
    have hslash : quote ≠ '\\' := by
      rcases hquote with rfl | rfl <;> decide
    rw [List.flatMap_nil, List.nil_append, toQuote?_cons hslash, if_pos rfl]
    rfl
  | cons c cs ih =>
    rw [List.flatMap_cons, List.append_assoc, toQuote?_quotedChar hquote, ih, List.length_append,
      Option.map_some]
    congr 1
    omega

/-- The quote at the front of a quoted text is not followed by another one, unless the text is
empty. -/
lemma not_quotes_of_quotedChars (hrest : IsDelimited rest) :
    ¬[quote, quote] <+: cs.flatMap (Text.quotedChar quote) ++ quote :: rest := by
  rintro ⟨more, hmore⟩
  cases cs with
  | nil =>
    rw [List.flatMap_nil, List.nil_append] at hmore
    obtain rfl : quote :: more = rest := (List.cons.inj hmore).2
    have hdelimiter := hrest quote rfl
    rcases hquote with rfl | rfl <;> exact absurd hdelimiter (by decide)
  | cons c cs =>
    rw [List.flatMap_cons, List.append_assoc] at hmore
    rcases quotedChar_cases hquote c with ⟨heq, hbare⟩ | ⟨d, bare, heq, -, -⟩
    · rw [heq] at hmore
      obtain rfl : quote = c := (List.cons.inj hmore).1
      simp [isBare] at hbare
    · rw [heq] at hmore
      have hslash : quote = '\\' := (List.cons.inj hmore).1
      rcases hquote with rfl | rfl <;> exact absurd hslash (by decide)

end Quoted

/-- A quoted text is read as one string. -/
lemma exists_read_quotedChars (cs : List Char) {more : List Char} (hmore : IsDelimited more) :
    ∃ quote taken, Text.quotedChars cs = quote :: taken ∧
      read (.dialect .python) quote (taken ++ more) = .ok ⟨some .string, taken.length⟩ := by
  let quote := Text.quoteFor cs
  have hquote : quote = '"' ∨ quote = '\'' := by
    change (if _ then '"' else '\'') = _ ∨ (if _ then '"' else '\'') = _
    split
    · exact .inl rfl
    · exact .inr rfl
  refine ⟨quote, cs.flatMap (Text.quotedChar quote) ++ [quote], rfl, ?_⟩
  have hstring : stringRest? (.dialect .python) quote
      (cs.flatMap (Text.quotedChar quote) ++ quote :: more) =
        some ((cs.flatMap (Text.quotedChar quote)).length + 1) := by
    rw [stringRest?, if_neg (mt List.isPrefixOf_iff_prefix.mp
      (not_quotes_of_quotedChars hquote hmore))]
    exact toQuote?_quotedChars hquote
  have hlayout : ¬isLayout quote ∧ quote ≠ '#' ∧ (quote = '"' || quote = '\'') = true := by
    rcases hquote with hquote | hquote <;> rw [hquote] <;> decide
  rw [List.append_assoc, List.singleton_append, read_python hlayout.1 hlayout.2.1,
    if_pos hlayout.2.2, hstring, List.length_append]
  rfl

end Lexeme

end FieldComposition
