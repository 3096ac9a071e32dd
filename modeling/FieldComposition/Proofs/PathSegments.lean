import FieldComposition.Proofs.ReceiverSearch
import FieldComposition.Proofs.TokenReading

/-!
# Segments of a path

The segments of a path are separated by `::` and `.` outside of all brackets, angle brackets
included, and a turbofish belongs to the segment before it. A method is called on its path without
the last segment, or on the type in front of `as` in a qualified path (`MethodPath.IsReceiver`).
`MethodPath.eq_iff_isFound` says when the search in the text of the path finds that.
-/

namespace FieldComposition

/-! ### Balanced brackets -/

/-- The kind that closes a bracket of this kind, where `<` is a bracket as well. -/
def TokenKind.partner? : TokenKind → Option TokenKind
  | less => some greater
  | kind => kind.closer?

/-- The brackets of a token: two angle brackets in a row are one token. Any other token has its own
kind. -/
def Token.brackets (t : Token) : List TokenKind :=
  if t.value = "<<" then [.less, .less]
  else if t.kind = .doubleGreater then [.greater, .greater]
  else [t.kind]

/-- Every bracket is closed by its own counterpart, and before the one around it. -/
inductive IsBalanced : List TokenKind → Prop
  | nil : IsBalanced []
  | plain {kind : TokenKind} {rest : List TokenKind} (hopens : kind.partner? = none)
      (hcloses : (kind.isCloser || kind == .greater) = false) (hrest : IsBalanced rest) :
      IsBalanced (kind :: rest)
  | bracket {kind closer : TokenKind} {body rest : List TokenKind}
      (hpartner : kind.partner? = some closer) (hbody : IsBalanced body)
      (hrest : IsBalanced rest) : IsBalanced (kind :: (body ++ closer :: rest))

namespace IsBalanced

variable {kinds : List TokenKind} {closers : List TokenKind}

/-- Whether the kinds close the open brackets, of which `closers` has the counterparts, innermost
first, and all that are opened later. -/
def closesAll : (closers kinds : List TokenKind) → Bool
  | closers, [] => closers.isEmpty
  | closers, kind :: rest =>
    match kind.partner? with
    | some closer => closesAll (closer :: closers) rest
    | none =>
      if kind.isCloser || kind == .greater then
        closers.head? == some kind && closesAll closers.tail rest
      else closesAll closers rest

lemma partner?_of_partner? {kind closer : TokenKind} (h : kind.partner? = some closer) :
    closer.partner? = none ∧ (closer.isCloser || closer == .greater) = true := by
  cases kind <;> cases h <;> exact ⟨rfl, rfl⟩

/-- Balanced brackets leave the open ones as they are. -/
lemma closesAll_append (h : IsBalanced kinds) (closers rest : List TokenKind) :
    closesAll closers (kinds ++ rest) = closesAll closers rest := by
  induction h generalizing closers rest with
  | nil => rfl
  | plain hopens hcloses _ ih =>
    rw [List.cons_append, closesAll, hopens]
    dsimp only
    rw [if_neg (by simp [hcloses]), ih]
  | bracket hpartner _ _ ihbody ihrest =>
    obtain ⟨hnone, hcloses⟩ := partner?_of_partner? hpartner
    rw [List.cons_append, List.append_assoc, List.cons_append, closesAll, hpartner]
    dsimp only
    rw [ihbody, closesAll, hnone]
    dsimp only
    rw [if_pos hcloses, List.head?_cons, List.tail_cons, ihrest, beq_self_eq_true, Bool.true_and]

/-- What closes an open bracket is balanced up to that place. By induction on the length. -/
lemma of_closesAll (h : closesAll closers kinds) :
    match closers with
    | [] => IsBalanced kinds
    | closer :: outer =>
      ∃ body rest, kinds = body ++ closer :: rest ∧ IsBalanced body ∧ closesAll outer rest := by
  induction hn : kinds.length using Nat.strong_induction_on generalizing closers kinds with
  | _ n ih =>
    cases kinds with
    | nil =>
      obtain rfl := List.isEmpty_iff.mp h
      exact .nil
    | cons kind rest =>
      rw [List.length_cons] at hn
      rw [closesAll] at h
      cases hpartner : kind.partner? with
      | some closer =>
        rw [hpartner] at h
        obtain ⟨body, behind, rfl, hbody, hbehind⟩ := ih rest.length (by omega) h rfl
        rw [List.length_append, List.length_cons] at hn
        have hclosers := ih behind.length (by omega) hbehind rfl
        cases closers with
        | nil => exact .bracket hpartner hbody hclosers
        | cons closer' outer =>
          obtain ⟨body', rest', rfl, hbody', hrest'⟩ := hclosers
          refine ⟨kind :: (body ++ closer :: body'), rest', ?_, .bracket hpartner hbody hbody',
            hrest'⟩
          rw [List.cons_append, List.append_assoc, List.cons_append]
      | none =>
        rw [hpartner] at h
        dsimp only at h
        split at h
        · obtain ⟨hhead, hrest⟩ := Bool.and_eq_true_iff.mp h
          obtain ⟨outer, rfl⟩ := List.head?_eq_some_iff.mp (eq_of_beq hhead)
          exact ⟨[], rest, rfl, .nil, hrest⟩
        · rename_i hcloses
          have hcloses := eq_false_of_ne_true hcloses
          have hclosers := ih rest.length (by omega) h rfl
          cases closers with
          | nil => exact .plain hpartner hcloses hclosers
          | cons closer outer =>
            obtain ⟨body, rest', rfl, hbody, hrest'⟩ := hclosers
            exact ⟨kind :: body, rest', rfl, .plain hpartner hcloses hbody, hrest'⟩

lemma iff_closesAll : IsBalanced kinds ↔ closesAll [] kinds := by
  constructor
  · intro h
    have hclosed := h.closesAll_append [] []
    rw [List.append_nil] at hclosed
    rw [hclosed]
    rfl
  · exact of_closesAll

instance (kinds : List TokenKind) : Decidable (IsBalanced kinds) :=
  decidable_of_iff (closesAll [] kinds) iff_closesAll.symm

end IsBalanced

/-! ### The segments -/

namespace MethodPath

open Text (OccursAt IsLastSeparator IsSearchResult asWord strip)

/-- At an index of the tokens stands a `::` or a dot outside of all brackets, with a segment in
front of it. The `::` of a turbofish does not separate segments. -/
def IsSeparatorAt (ts : List Token) (k : ℕ) : Prop :=
  k ≠ 0 ∧ IsBalanced ((ts.take k).flatMap Token.brackets) ∧
    (ts[k]?.map Token.kind = some .dot ∨
      ts[k]?.map Token.kind = some .pathSep ∧ ts[k + 1]?.bind (·.brackets.head?) ≠ some .less)

/-- At an index of the tokens stands the word `as`, inside of a `<` in front of all other tokens and
of no other bracket. -/
def IsWordAt (ts : List Token) (k : ℕ) : Prop :=
  ts[k]?.map Token.lexeme = some (.ident, "as") ∧
    ((ts.take k).flatMap Token.brackets).head? = some .less ∧
    IsBalanced ((ts.take k).flatMap Token.brackets).tail

/-- The tokens are in one pair of angle brackets. -/
def IsEnclosed (ts : List Token) : Prop :=
  (ts.flatMap Token.brackets).head? = some .less ∧
    (ts.flatMap Token.brackets).getLast? = some .greater ∧
    IsBalanced (ts.flatMap Token.brackets).tail.dropLast

instance (ts : List Token) (k : ℕ) : Decidable (IsSeparatorAt ts k) :=
  inferInstanceAs (Decidable (_ ∧ _ ∧ (_ ∨ _ ∧ _)))

instance (ts : List Token) (k : ℕ) : Decidable (IsWordAt ts k) :=
  inferInstanceAs (Decidable (_ ∧ _ ∧ _))

instance (ts : List Token) : Decidable (IsEnclosed ts) :=
  inferInstanceAs (Decidable (_ ∧ _ ∧ _))

/-- A path is cut in front of the separator that its last segment has before it. -/
abbrev IsLastSeparatorAt (ts : List Token) (k : ℕ) : Prop :=
  IsGreatest {k | IsSeparatorAt ts k} k

/-- A type is qualified by a trait, which stands behind the first `as`. -/
structure IsQualifiedAt (ts : List Token) (k : ℕ) : Prop where
  isEnclosed : IsEnclosed ts
  isFirst : IsLeast {k | IsWordAt ts k} k

/-- The type that a method path is called on: what is in front of the last separator, or what is in
front of `as` where that is a qualified type. -/
inductive IsReceiver (path : List Char) (ts : List Token) : List Char → Prop
  | owner {k : ℕ} {sep : Token} (hlast : IsLastSeparatorAt ts k) (hsep : ts[k]? = some sep)
      (hself : ∀ j, ¬IsQualifiedAt (ts.take k) j) : IsReceiver path ts (path.take sep.start)
  | self {j k : ℕ} {word : Token} (hlast : IsLastSeparatorAt ts k)
      (hself : IsQualifiedAt (ts.take k) j) (hword : (ts.take k)[j]? = some word) :
      IsReceiver path ts (strip ((path.take word.start).drop 1))

/-- The search in the text of a path comes upon the separator in front of the last segment, or upon
the word `as` of a qualified type. -/
inductive IsFound (path : List Char) (ts : List Token) : Prop
  | owner {k : ℕ} {sep : Token} (hlast : IsLastSeparatorAt ts k) (hsep : ts[k]? = some sep)
      (hself : ∀ j, ¬IsQualifiedAt (ts.take k) j)
      (hnone : path.head? = some '<' → ∀ n, ¬OccursAt asWord path n)
      (hfound : IsLastSeparator path sep.start) : IsFound path ts
  | self {j k : ℕ} {word : Token} (hlast : IsLastSeparatorAt ts k)
      (hself : IsQualifiedAt (ts.take k) j) (hword : (ts.take k)[j]? = some word)
      (hfound : IsLeast {n | OccursAt asWord path n} (word.start - 1)) : IsFound path ts

section Tokens

variable {ts : List Token} {j j' k k' : ℕ}

lemma IsSeparatorAt.lt_length (h : IsSeparatorAt ts k) : k < ts.length := by
  by_contra hle
  have hnone : ts[k]? = none := List.getElem?_eq_none (by omega)
  have hkind := h.2.2
  rw [hnone] at hkind
  rcases hkind with hkind | ⟨hkind, -⟩ <;> cases hkind

/-- The last separator is found among the tokens. -/
lemma isLastSeparatorAt_iff : IsLastSeparatorAt ts k ↔
    IsSeparatorAt ts k ∧ ∀ k' < ts.length, IsSeparatorAt ts k' → k' ≤ k := by
  constructor
  · exact fun h => ⟨h.1, fun k' _ hk' => h.2 hk'⟩
  · exact fun h => ⟨h.1, fun k' hk' => h.2 k' (IsSeparatorAt.lt_length hk') hk'⟩

lemma IsQualifiedAt.unique (h : IsQualifiedAt ts j) (h' : IsQualifiedAt ts j') : j = j' :=
  h.isFirst.unique h'.isFirst

/-- A path is called on one type at most. -/
lemma IsReceiver.unique {path r r' : List Char} (h : IsReceiver path ts r)
    (h' : IsReceiver path ts r') : r = r' := by
  cases h with
  | owner hlast hsep hself =>
    cases h' with
    | owner hlast' hsep' hself' =>
      obtain rfl := hlast.unique hlast'
      rw [Option.some.inj (hsep.symm.trans hsep')]
    | self hlast' hself' hword' =>
      obtain rfl := hlast.unique hlast'
      exact absurd hself' (hself _)
  | self hlast hself hword =>
    cases h' with
    | owner hlast' hsep' hself' =>
      obtain rfl := hlast.unique hlast'
      exact absurd hself (hself' _)
    | self hlast' hself' hword' =>
      obtain rfl := hlast.unique hlast'
      obtain rfl := hself.unique hself'
      rw [Option.some.inj (hword.symm.trans hword')]

end Tokens

/-! ### The text of a path -/

section Texts

variable {path tail r found : List Char} {c : Char} {m n : ℕ}

lemma drop_one_take (tail : List Char) (n : ℕ) : (('<' :: tail).take n).drop 1 =
    tail.take (n - 1) := by
  cases n <;> rfl

/-- What is in front of a separator is not what is found behind a `<`. -/
lemma take_ne_strip {rest : List Char} (hhead : path.head? = some '<')
    (hdrop : path.drop n = c :: rest) (hc : c = ':' ∨ c = '.') (m : ℕ) :
    path.take n ≠ strip ((path.take m).drop 1) := by
  intro heq
  obtain ⟨tail, rfl⟩ := List.head?_eq_some_iff.mp hhead
  rw [drop_one_take] at heq
  obtain ⟨before, after, hbefore, hblank⟩ := Text.exists_eq_append_strip (tail.take (m - 1))
  rw [← heq] at hbefore
  have htail : before ++ ('<' :: tail).take n ++ after ++ tail.drop (m - 1) = tail := by
    rw [← hbefore, List.take_append_drop]
  have hpath : ('<' :: before) ++ ('<' :: tail).take n ++ (after ++ tail.drop (m - 1)) =
      ('<' :: tail).take n ++ c :: rest := by
    rw [← hdrop, List.take_append_drop, List.cons_append, List.cons_append, ← List.append_assoc,
      htail]
  rcases List.mem_cons.mp (Text.mem_of_append_eq_append_cons (List.cons_ne_nil _ _) hpath) with
    rfl | hmem
  · revert hc
    decide
  · have hink : Text.isBlank ':' = false ∧ Text.isBlank '.' = false := by decide +kernel
    have hcblank := hblank c hmem
    rcases hc with rfl | rfl
    · rw [hink.1] at hcblank
      cases hcblank
    · rw [hink.2] at hcblank
      cases hcblank

lemma strip_take_ne (hlt : m < n) (hink : 'a' ∈ (tail.drop m).take (n - m)) :
    strip (tail.take m) ≠ strip (tail.take n) := by
  intro heq
  have hink : ∃ c ∈ (tail.drop m).take (n - m), Text.isBlank c = false :=
    ⟨'a', hink, by decide +kernel⟩
  have hlength : (strip (tail.take m)).length <
      (strip (tail.take m ++ (tail.drop m).take (n - m))).length := Text.length_strip_lt hink
  rw [← List.take_add, Nat.add_sub_cancel' hlt.le, ← heq] at hlength
  exact lt_irrefl _ hlength

/-- Up to the word `as`, and up to a blank with this word behind it, stands the same text exactly if
the word is the same one. -/
lemma strip_take_eq_iff {rest rest' : List Char} (hm : tail.drop m = ' ' :: 'a' :: rest)
    (hn : tail.drop n = 'a' :: rest') : strip (tail.take m) = strip (tail.take n) ↔ n = m + 1 := by
  constructor
  · intro heq
    rcases lt_trichotomy n m with hlt | rfl | hlt
    · refine absurd heq.symm (strip_take_ne hlt ?_)
      obtain ⟨k, hk⟩ := Nat.exists_eq_add_of_le' (Nat.sub_pos_of_lt hlt)
      rw [hn, hk]
      exact List.mem_cons_self
    · rw [hm] at hn
      cases hn
    · by_contra hne
      refine strip_take_ne hlt ?_ heq
      obtain ⟨k, hk⟩ := Nat.exists_eq_add_of_le' (show 2 ≤ n - m by omega)
      rw [hm, hk]
      exact List.mem_cons_of_mem _ List.mem_cons_self
  · rintro rfl
    rw [List.take_add_one, ← List.head?_drop, hm]
    exact (Text.strip_append_blank (by decide +kernel)).symm

lemma exists_drop_of_occursAt (hhead : path.head? = some '<') (h : OccursAt asWord path n) :
    ∃ tail m rest, path = '<' :: tail ∧ n = m + 1 ∧ tail.drop m = ' ' :: 'a' :: rest := by
  obtain ⟨tail, rfl⟩ := List.head?_eq_some_iff.mp hhead
  obtain ⟨rest, hrest⟩ := h
  cases n with
  | zero => cases hrest
  | succ m => exact ⟨tail, m, _, rfl, rfl, hrest.symm⟩

lemma exists_drop_of_isLastSeparator (h : IsLastSeparator path n) :
    ∃ c rest, path.drop n = c :: rest ∧ (c = ':' ∨ c = '.') := by
  rcases h with ⟨⟨rest, hrest⟩, -⟩ | ⟨-, ⟨rest, hrest⟩, -⟩
  · exact ⟨':', _, hrest.symm, .inl rfl⟩
  · exact ⟨'.', _, hrest.symm, .inr rfl⟩

lemma lt_length_of_drop {rest : List Char} (h : path.drop n = c :: rest) : n < path.length := by
  have hlength := congrArg List.length h
  rw [List.length_drop, List.length_cons] at hlength
  omega

lemma isLastSeparator_unique (h : IsLastSeparator path m) (h' : IsLastSeparator path n) :
    m = n := by
  rcases h with h | ⟨hnone, h⟩ <;> rcases h' with h' | ⟨hnone', h'⟩
  · exact h.unique h'
  · exact absurd h.1 (hnone' m)
  · exact absurd h'.1 (hnone n)
  · exact h.unique h'

/-- The search finds what is in front of a separator exactly if it cuts the text there. -/
lemma eq_take_iff {rest : List Char} (hfound : IsSearchResult path found)
    (hdrop : path.drop n = c :: rest) (hc : c = ':' ∨ c = '.') :
    found = path.take n ↔
      (path.head? = some '<' → ∀ m, ¬OccursAt asWord path m) ∧ IsLastSeparator path n := by
  have hlt := lt_length_of_drop hdrop
  cases hfound with
  | @self m hhead hfirst =>
    refine iff_of_false (take_ne_strip hhead hdrop hc m).symm ?_
    rintro ⟨hword, -⟩
    exact hword hhead m hfirst.1
  | @owner m hself hlast =>
    constructor
    · intro heq
      obtain ⟨d, rest', hdrop', -⟩ := exists_drop_of_isLastSeparator hlast
      have hlt' := lt_length_of_drop hdrop'
      have hlength := congrArg List.length heq
      rw [List.length_take, List.length_take] at hlength
      obtain rfl : m = n := by omega
      exact ⟨hself, hlast⟩
    · rintro ⟨-, hlast'⟩
      rw [isLastSeparator_unique hlast hlast']
  | whole hself hpath hdot =>
    refine iff_of_false ?_ ?_
    · intro heq
      have hlength := congrArg List.length heq
      rw [List.length_take] at hlength
      omega
    · rintro ⟨-, hlast | ⟨-, hlast⟩⟩
      · exact hpath n hlast.1
      · exact hdot n hlast.1

/-- The search finds what is in front of the word `as` behind a `<` exactly if this is the first one
with a blank on either side. -/
lemma eq_strip_iff {rest : List Char} (hfound : IsSearchResult path found)
    (hhead : path.head? = some '<') (hdrop : path.drop n = 'a' :: rest) :
    found = strip ((path.take n).drop 1) ↔ IsLeast {m | OccursAt asWord path m} (n - 1) := by
  cases hfound with
  | @self m _ hfirst =>
    obtain ⟨tail, m, rest', rfl, rfl, hword⟩ := exists_drop_of_occursAt hhead hfirst.1
    cases n with
    | zero => cases hdrop
    | succ n =>
      rw [drop_one_take, drop_one_take, Nat.add_sub_cancel, Nat.add_sub_cancel,
        strip_take_eq_iff hword hdrop]
      constructor
      · rintro rfl
        exact hfirst
      · exact fun hfirst' => hfirst'.unique hfirst
  | @owner m hself hlast =>
    obtain ⟨d, rest', hdrop', hd⟩ := exists_drop_of_isLastSeparator hlast
    exact iff_of_false (take_ne_strip hhead hdrop' hd n) fun hfirst => hself hhead _ hfirst.1
  | whole hself hpath hdot =>
    refine iff_of_false (fun heq => ?_) fun hfirst => hself hhead _ hfirst.1
    obtain ⟨tail, rfl⟩ := List.head?_eq_some_iff.mp hhead
    rw [drop_one_take] at heq
    have hlength := congrArg List.length heq
    have hle := Text.length_strip_le (tail.take (n - 1))
    have hle' := (List.take_prefix (n - 1) tail).length_le
    rw [List.length_cons] at hlength
    omega

end Texts

/-! ### The tokens of a path -/

section Tokens

variable {host : Host} {path : String} {tokens : Tokens} {sep word : Token} {found r : List Char}
  {j k : ℕ}

/-- The first characters of operators that paths are made of. -/
lemma mem_of_read {kind : TokenKind} {d : Char} {rest : List Char} {n : ℕ}
    (hkind : kind ∈ [TokenKind.pathSep, .dot, .less])
    (h : Lexeme.read host d rest = .ok ⟨some kind, n⟩) :
    (d, kind) ∈ [(':', TokenKind.pathSep), ('.', .dot), ('<', .less)] := by
  have hkinds : ∀ kind ∈ [TokenKind.pathSep, .dot, .less],
      kind ∉ [TokenKind.lifetime, .string, .number] ∧ kind.isWord = false ∧
      ∀ e ∈ Lexeme.longOperators, e.2 = kind → e.1.head? = some ':' ∧ kind = .pathSep := by
    decide
  obtain ⟨hother, hword, hlong⟩ := hkinds kind hkind
  rcases Lexeme.read_token_cases h with hmem | ⟨-, hread⟩ | hoperator
  · exact absurd hmem hother
  · rw [Lexeme.isWord_of_word hread] at hword
    cases hword
  · unfold Lexeme.operator? at hoperator
    split at hoperator
    · rename_i spelling kind' hfind
      obtain rfl := Option.some.inj (Lexeme.mk.inj (Option.some.inj hoperator)).1
      obtain ⟨hhead, hpathSep⟩ := hlong _ (List.mem_of_find?_eq_some hfind) rfl
      have hbegins := List.find?_some hfind
      obtain ⟨more, hmore⟩ := List.head?_eq_some_iff.mp hhead
      dsimp only at hmore hbegins
      rw [hmore, List.isPrefixOf_iff_prefix] at hbegins
      obtain ⟨rfl, -⟩ := List.cons_prefix_cons.mp hbegins
      rw [hpathSep]
      exact List.mem_cons_self
    · obtain ⟨kind', hshort, hlexeme⟩ := Option.map_eq_some_iff.mp hoperator
      obtain ⟨hkind', rfl⟩ := Lexeme.mk.inj hlexeme
      obtain rfl := Option.some.inj hkind'
      unfold Lexeme.shortOperator? at hshort
      split at hshort
      case h_15 =>
        split at hshort
        · obtain rfl := Option.some.inj hshort
          simp at hkind
        · cases hshort
      all_goals
        obtain rfl := Option.some.inj hshort
        revert hkind
        decide

section

variable (htokens : Tokens.ofText host path = .ok tokens)

include htokens

lemma exists_drop_value {t : Token} (ht : t ∈ tokens.body) :
    ∃ rest, path.toList.drop t.start = t.value.toList ++ rest := by
  obtain ⟨-, -, hspans, -⟩ := (Tokens.tiled_of_ofText htokens).forall_mem t ht
  refine ⟨(path.toList.drop t.start).drop (t.stop - t.start), ?_⟩
  rw [hspans.value_eq, String.toList_ofList, List.take_append_drop]

lemma exists_drop_of_kind {t : Token} (ht : t ∈ tokens.body)
    (hkind : t.kind ∈ [TokenKind.pathSep, .dot, .less]) :
    ∃ c rest, path.toList.drop t.start = c :: rest ∧
      (c, t.kind) ∈ [(':', TokenKind.pathSep), ('.', .dot), ('<', .less)] := by
  obtain ⟨-, -, -, c, rest, n, hdrop, hread, -⟩ :=
    (Tokens.tiled_of_ofText htokens).forall_mem t ht
  exact ⟨c, rest, hdrop, mem_of_read hkind hread⟩

lemma IsSeparatorAt.exists_drop (h : IsSeparatorAt tokens.body k)
    (hsep : tokens.body[k]? = some sep) :
    ∃ c rest, path.toList.drop sep.start = c :: rest ∧ (c = ':' ∨ c = '.') := by
  have hkind : sep.kind = .pathSep ∨ sep.kind = .dot := by
    have hkind := h.2.2
    rw [hsep, Option.map_some, Option.some.injEq, Option.some.injEq] at hkind
    exact hkind.symm.imp_left And.left
  obtain ⟨c, rest, hdrop, hc⟩ := exists_drop_of_kind htokens (List.mem_of_getElem? hsep)
    (by rcases hkind with hkind | hkind <;> rw [hkind] <;> decide)
  refine ⟨c, rest, hdrop, ?_⟩
  simp only [List.mem_cons, Prod.mk.injEq, List.not_mem_nil, or_false] at hc
  rcases hc with ⟨hc, -⟩ | ⟨hc, -⟩ | ⟨-, hless⟩
  · exact .inl hc
  · exact .inr hc
  · rw [hless] at hkind
    rcases hkind with hkind | hkind <;> cases hkind

lemma IsWordAt.exists_drop (h : IsWordAt (tokens.body.take k) j)
    (hword : (tokens.body.take k)[j]? = some word) :
    ∃ rest, path.toList.drop word.start = 'a' :: rest := by
  have hvalue := h.1
  rw [hword] at hvalue
  have hvalue : word.value = "as" := congrArg Prod.snd (Option.some.inj hvalue)
  obtain ⟨rest, hdrop⟩ :=
    exists_drop_value htokens (List.mem_of_mem_take (List.mem_of_getElem? hword))
  rw [hvalue] at hdrop
  exact ⟨_, hdrop⟩

lemma IsWordAt.head?_eq (hstart : ∀ t ∈ tokens.body.head?, t.start = 0)
    (h : IsWordAt (tokens.body.take k) j) : path.toList.head? = some '<' := by
  have hless := h.2.1
  rw [List.take_take] at hless
  cases hbody : tokens.body with
  | nil =>
    rw [hbody, List.take_nil] at hless
    cases hless
  | cons t ts =>
    rw [hbody] at hless hstart
    have hmem : t ∈ tokens.body := hbody ▸ List.mem_cons_self
    have hdrop : path.toList.drop t.start = path.toList := by rw [hstart t rfl, List.drop_zero]
    obtain ⟨m, hm⟩ : ∃ m, min j k = m + 1 := by
      cases hmin : min j k with
      | zero =>
        rw [hmin] at hless
        cases hless
      | succ m => exact ⟨m, rfl⟩
    rw [hm, List.take_succ_cons, List.flatMap_cons, Token.brackets] at hless
    split at hless
    · rename_i hvalue
      obtain ⟨rest, hrest⟩ := exists_drop_value htokens hmem
      rw [← hdrop, hrest, hvalue]
      rfl
    · split at hless
      · cases hless
      · have hkind : t.kind = .less := Option.some.inj hless
        obtain ⟨c, rest, hrest, hc⟩ := exists_drop_of_kind htokens hmem (by simp [hkind])
        rw [hkind] at hc
        obtain rfl : c = '<' := by simpa using hc
        rw [← hdrop, hrest]
        rfl

/-- The search in the text of a path finds the type that the path is called on exactly if it comes
upon the place where this type ends. -/
theorem eq_iff_isFound (hstart : ∀ t ∈ tokens.body.head?, t.start = 0)
    (hresult : IsSearchResult path.toList found) (hr : IsReceiver path.toList tokens.body r) :
    found = r ↔ IsFound path.toList tokens.body := by
  cases hr with
  | owner hlast hsep hself =>
    obtain ⟨c, rest, hdrop, hc⟩ := IsSeparatorAt.exists_drop htokens hlast.1 hsep
    rw [eq_take_iff hresult hdrop hc]
    constructor
    · rintro ⟨hnone, hfound⟩
      exact .owner hlast hsep hself hnone hfound
    · intro h
      cases h with
      | owner hlast' hsep' _ hnone hfound =>
        obtain rfl := hlast.unique hlast'
        obtain rfl := Option.some.inj (hsep.symm.trans hsep')
        exact ⟨hnone, hfound⟩
      | self hlast' hself' =>
        obtain rfl := hlast.unique hlast'
        exact absurd hself' (hself _)
  | self hlast hself hword =>
    have hhead := IsWordAt.head?_eq htokens hstart hself.isFirst.1
    obtain ⟨rest, hdrop⟩ := IsWordAt.exists_drop htokens hself.isFirst.1 hword
    rw [eq_strip_iff hresult hhead hdrop]
    constructor
    · exact fun hfound => .self hlast hself hword hfound
    · intro h
      cases h with
      | owner hlast' _ hself' =>
        obtain rfl := hlast.unique hlast'
        exact absurd hself (hself' _)
      | self hlast' hself' hword' hfound =>
        obtain rfl := hlast.unique hlast'
        obtain rfl := hself.unique hself'
        obtain rfl := Option.some.inj (hword.symm.trans hword')
        exact hfound

end

end Tokens

end MethodPath

end FieldComposition
