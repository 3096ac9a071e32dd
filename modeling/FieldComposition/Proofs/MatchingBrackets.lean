import FieldComposition.Proofs.ArgumentTypes

/-!
# Matching brackets

The end of a bracket is found by counting the brackets that are open, whatever their kinds
(`Token.matchingClose?_eq_some_iff`). Where brackets are properly nested (`Balanced`) the count ends
at the counterpart of the bracket, but it also ends at a bracket of another kind, as in `(]`. The
tokens that are counted are properly nested exactly if the count from each bracket among them ends
at the counterpart of that bracket (`Token.balanced_iff`). The visibility of a holder is kept by
such a count (`Token.matchingClose?_spec`).
-/

namespace FieldComposition

/-- Kinds of tokens with properly nested brackets: each bracket is closed by its own counterpart,
and before the bracket around it. -/
inductive Balanced : List TokenKind → Prop
  | nil : Balanced []
  | plain {kind : TokenKind} {rest : List TokenKind} (hopener : kind.isOpener = false)
      (hcloser : kind.isCloser = false) (hrest : Balanced rest) : Balanced (kind :: rest)
  | bracket {kind closer : TokenKind} {body rest : List TokenKind}
      (hcloser : kind.closer? = some closer) (hbody : Balanced body) (hrest : Balanced rest) :
      Balanced (kind :: (body ++ closer :: rest))

lemma TokenKind.isCloser_of_closer? {kind closer : TokenKind} (h : kind.closer? = some closer) :
    closer.isCloser := by
  cases kind <;> cases h <;> rfl

lemma TokenKind.isOpener_of_closer? {kind closer : TokenKind} (h : kind.closer? = some closer) :
    kind.isOpener :=
  Option.isSome_iff_exists.mpr ⟨closer, h⟩

lemma Balanced.enclosed {kinds : List TokenKind} (h : Balanced kinds) : Enclosed true 0 kinds := by
  induction h with
  | nil => exact .nil
  | plain hopener hcloser _ ih => exact .plain hopener hcloser (fun _ _ => rfl) ih
  | bracket hcloser _ _ ihbody ihrest =>
    refine .opener (TokenKind.isOpener_of_closer? hcloser) ?_
    have hbehind := ihbody.inside (.closer (TokenKind.isCloser_of_closer? hcloser) ihrest)
    rwa [Nat.zero_add, Nat.zero_add] at hbehind

/-- Kinds that close more than `depth` brackets are cut at the one that closes the next bracket. -/
lemma Enclosed.exists_cut {kinds : List TokenKind} (depth outer : Nat)
    (h : Enclosed true (depth + 1 + outer) kinds) : ∃ body closer rest,
      kinds = body ++ closer :: rest ∧ Enclosed true depth body ∧ closer.isCloser ∧
        Enclosed true outer rest := by
  generalize hsum : depth + 1 + outer = sum at h
  induction h generalizing depth with
  | nil => omega
  | @opener _ kind kinds hkind _ ih =>
    obtain ⟨body, closer, rest, rfl, hbody, hcloser, hrest⟩ :=
      ih (depth + 1) (by omega)
    exact ⟨kind :: body, closer, rest, rfl, .opener hkind hbody, hcloser, hrest⟩
  | @closer sum kind kinds hkind hkinds ih =>
    cases depth with
    | zero =>
      obtain rfl : outer = sum := by omega
      exact ⟨[], kind, kinds, rfl, .nil, hkind, hkinds⟩
    | succ depth =>
      obtain ⟨body, closer, rest, rfl, hbody, hcloser, hrest⟩ := ih depth (by omega)
      exact ⟨kind :: body, closer, rest, rfl, .closer hkind hbody, hcloser, hrest⟩
  | @plain _ kind kinds hopener hcloser' _ _ ih =>
    obtain ⟨body, closer, rest, rfl, hbody, hcloser, hrest⟩ := ih depth hsum
    exact ⟨kind :: body, closer, rest, rfl, .plain hopener hcloser' (fun _ _ => rfl) hbody,
      hcloser, hrest⟩

/-- What follows enclosed kinds closes the brackets that are open in front of them. -/
lemma Enclosed.append_iff {body more : List TokenKind} {depth : Nat}
    (h : Enclosed true depth body) (outer : Nat) :
    Enclosed true (depth + outer) (body ++ more) ↔ Enclosed true outer more := by
  induction h with
  | nil => rw [List.nil_append, Nat.zero_add]
  | opener hkind _ ih =>
    rw [List.cons_append, Enclosed.opener_iff hkind, Nat.add_right_comm, ih]
  | closer hkind _ ih =>
    rw [List.cons_append, Nat.add_right_comm, Enclosed.closer_iff hkind, ih]
  | plain hopener hcloser _ _ ih => rw [List.cons_append, Enclosed.plain_iff hopener hcloser, ih]

/-- Enclosed kinds end at one place at most. -/
lemma Enclosed.eq_of_append_eq {body body' rest rest' : List TokenKind} {closer closer' : TokenKind}
    (h : Enclosed true 0 body) (h' : Enclosed true 0 body') (hcloser : closer.isCloser)
    (hcloser' : closer'.isCloser) (heq : body ++ closer :: rest = body' ++ closer' :: rest') :
    body = body' := by
  -- What the longer one has more starts with a bracket that closes nothing.
  have hlonger {short long more : List TokenKind} {kind : TokenKind}
      (hshort : Enclosed true 0 short) (hlong : Enclosed true 0 long) (hkind : kind.isCloser) :
      long ≠ short ++ kind :: more := by
    rintro rfl
    exact Enclosed.not_closer hkind ((hshort.append_iff 0).mp hlong)
  rcases List.append_eq_append_iff.mp heq with ⟨more, hbody', hrest⟩ | ⟨more, hbody, hrest⟩
  · cases more with
    | nil => rw [hbody', List.append_nil]
    | cons kind more =>
      obtain ⟨rfl, -⟩ := List.cons.inj hrest
      exact absurd hbody' (hlonger h h' hcloser)
  · cases more with
    | nil => rw [hbody, List.append_nil]
    | cons kind more =>
      obtain ⟨rfl, -⟩ := List.cons.inj hrest
      exact absurd hbody (hlonger h' h hcloser')

lemma balanced_plain_iff {kind : TokenKind} {kinds : List TokenKind}
    (hopener : kind.isOpener = false) (hcloser : kind.isCloser = false) :
    Balanced (kind :: kinds) ↔ Balanced kinds := by
  refine ⟨fun h => ?_, .plain hopener hcloser⟩
  cases h with
  | plain _ _ hrest => exact hrest
  | bracket hkind =>
    rw [TokenKind.isOpener_of_closer? hkind] at hopener
    cases hopener

/-- A bracket with enclosed kinds in it is properly nested exactly if it is closed by its own
counterpart and what stands in it and behind it is properly nested. -/
lemma balanced_bracket_iff {kind closer : TokenKind} {body rest : List TokenKind}
    (hkind : kind.isOpener) (hcloser : closer.isCloser) (hbody : Enclosed true 0 body) :
    Balanced (kind :: (body ++ closer :: rest)) ↔
      kind.closer? = some closer ∧ Balanced body ∧ Balanced rest := by
  refine ⟨fun h => ?_, fun ⟨hown, hbody, hrest⟩ => .bracket hown hbody hrest⟩
  generalize hkinds : body ++ closer :: rest = kinds at h
  cases h with
  | plain hopener _ _ =>
    rw [hkind] at hopener
    cases hopener
  | bracket hown hbody' hrest' =>
    obtain rfl := Enclosed.eq_of_append_eq hbody hbody'.enclosed hcloser
      (TokenKind.isCloser_of_closer? hown) hkinds
    obtain ⟨rfl, rfl⟩ := List.cons.inj (List.append_cancel_left hkinds)
    exact ⟨hown, hbody', hrest'⟩

namespace Token

variable {opener closer : Token} {part rest tokens : List Token} {depth n j : Nat}

/-- The bracket at the front of some tokens is closed at an index by its own counterpart, and the
tokens between the two are properly nested. -/
def IsClosedAt (tokens : List Token) (j : Nat) : Prop :=
  ∃ opener body closer rest, tokens = opener :: (body ++ closer :: rest) ∧ body.length + 1 = j ∧
    opener.kind.closer? = some closer.kind ∧ Balanced (body.map kind)

/-- The same when brackets of different kinds are not told apart: the token at the index closes
some bracket, and the tokens before it close as many brackets as they open. -/
def IsCountedTo (tokens : List Token) (j : Nat) : Prop :=
  ∃ opener body closer rest, tokens = opener :: (body ++ closer :: rest) ∧ body.length + 1 = j ∧
    closer.kind.isCloser ∧ Enclosed true 0 (body.map kind)

/-- The count from the bracket at the front of some tokens ends at its own counterpart. -/
def FindsCounterpart (tokens : List Token) : Prop :=
  ∃ opener j closer, tokens.head? = some opener ∧ matchingClose? tokens = some j ∧
    tokens[j]? = some closer ∧ opener.kind.closer? = some closer.kind

/-- The count from each bracket among the tokens before an index ends at its own counterpart. -/
def FindsCounterparts (tokens : List Token) (stop : Nat) : Prop :=
  ∀ i < stop, ∀ t ∈ tokens[i]?, t.kind.isOpener → FindsCounterpart (tokens.drop i)

lemma exists_of_toClose? (h : toClose? depth tokens = some n) : ∃ body closer rest,
    tokens = body ++ closer :: rest ∧ body.length = n ∧ closer.kind.isCloser ∧
      Enclosed true depth (body.map kind) := by
  induction tokens generalizing depth n with
  | nil => cases h
  | cons t tokens ih =>
    rw [toClose?_cons] at h
    split_ifs at h with hopener hcloser
    · obtain ⟨m, hm, rfl⟩ := Option.map_eq_some_iff.mp h
      obtain ⟨body, closer, rest, rfl, rfl, hcloser, hbody⟩ := ih hm
      exact ⟨t :: body, closer, rest, rfl, rfl, hcloser, .opener hopener hbody⟩
    · cases depth with
      | zero =>
        obtain rfl := Option.some.inj h
        exact ⟨[], t, tokens, rfl, rfl, hcloser, .nil⟩
      | succ outer =>
        obtain ⟨m, hm, rfl⟩ := Option.map_eq_some_iff.mp h
        obtain ⟨body, closer, rest, rfl, rfl, hend, hbody⟩ := ih hm
        exact ⟨t :: body, closer, rest, rfl, rfl, hend, .closer hcloser hbody⟩
    · obtain ⟨m, hm, rfl⟩ := Option.map_eq_some_iff.mp h
      obtain ⟨body, closer, rest, rfl, rfl, hend, hbody⟩ := ih hm
      exact ⟨t :: body, closer, rest, rfl, rfl, hend,
        .plain (by simpa using hopener) (by simpa using hcloser) (fun _ _ => rfl) hbody⟩

/-- The count ends at the first token that closes one bracket more than those before it open. -/
lemma matchingClose?_eq_some_iff : matchingClose? tokens = some j ↔ IsCountedTo tokens j := by
  constructor
  · intro h
    cases tokens with
    | nil => cases h
    | cons opener tokens =>
      obtain ⟨n, hn, rfl⟩ := Option.map_eq_some_iff.mp h
      obtain ⟨body, closer, rest, rfl, rfl, hcloser, hbody⟩ := exists_of_toClose? hn
      exact ⟨opener, body, closer, rest, rfl, rfl, hcloser, hbody⟩
  · rintro ⟨opener, body, closer, rest, rfl, rfl, hcloser, hbody⟩
    exact matchingClose?_enclosed hcloser hbody

lemma IsClosedAt.isCountedTo (h : IsClosedAt tokens j) : IsCountedTo tokens j := by
  obtain ⟨opener, body, closer, rest, htokens, hj, hcloser, hbody⟩ := h
  exact ⟨opener, body, closer, rest, htokens, hj, TokenKind.isCloser_of_closer? hcloser,
    hbody.enclosed⟩

/-- At the front of tokens that are enclosed in a bracket the count ends at the bracket behind
them, so the two are told apart by their kinds. -/
lemma findsCounterpart_iff (hcloser : closer.kind.isCloser)
    (hpart : Enclosed true 0 (part.map kind)) :
    FindsCounterpart (opener :: (part ++ closer :: rest)) ↔
      opener.kind.closer? = some closer.kind := by
  have hcount : matchingClose? (opener :: (part ++ closer :: rest)) = some (part.length + 1) :=
    matchingClose?_enclosed hcloser hpart
  have hindex : (opener :: (part ++ closer :: rest))[part.length + 1]? = some closer := by simp
  constructor
  · rintro ⟨opener', j, closer', hopener, hj, hclosed, hkind⟩
    obtain rfl := Option.some.inj hopener
    obtain rfl := Option.some.inj (hcount.symm.trans hj)
    obtain rfl := Option.some.inj (hindex.symm.trans hclosed)
    exact hkind
  · exact fun hkind => ⟨opener, part.length + 1, closer, rfl, hcount, hindex, hkind⟩

lemma findsCounterparts_nil : FindsCounterparts rest 0 :=
  nofun

lemma findsCounterparts_cons {t : Token} : FindsCounterparts (t :: tokens) (n + 1) ↔
    (t.kind.isOpener → FindsCounterpart (t :: tokens)) ∧ FindsCounterparts tokens n := by
  constructor
  · intro h
    exact ⟨h 0 n.succ_pos t rfl, fun i hi => h (i + 1) (Nat.succ_lt_succ hi)⟩
  · rintro ⟨hfirst, hrest⟩ i hi u hu
    cases i with
    | zero =>
      obtain rfl : t = u := by simpa using hu
      exact hfirst
    | succ i => exact hrest i (Nat.lt_of_succ_lt_succ hi) u hu

lemma findsCounterparts_append : FindsCounterparts (part ++ rest) (part.length + n) ↔
    FindsCounterparts (part ++ rest) part.length ∧ FindsCounterparts rest n := by
  induction part with
  | nil => simp [findsCounterparts_nil]
  | cons t part ih =>
    rw [List.length_cons, Nat.add_right_comm, List.cons_append, findsCounterparts_cons,
      findsCounterparts_cons, ih, and_assoc]

/-- Tokens that close as many brackets as they open are properly nested exactly if the count from
each bracket among them ends at its own counterpart. By induction on the tokens: a bracket is cut
off with what stands in it. -/
lemma balanced_iff (h : Enclosed true 0 (part.map kind)) (rest : List Token) :
    Balanced (part.map kind) ↔ FindsCounterparts (part ++ rest) part.length := by
  induction hn : part.length using Nat.strong_induction_on generalizing part rest with
  | _ n ih =>
    subst hn
    cases part with
    | nil => exact iff_of_true .nil findsCounterparts_nil
    | cons t part =>
      rw [List.map_cons] at h ⊢
      rw [List.cons_append, List.length_cons, findsCounterparts_cons]
      by_cases hopener : t.kind.isOpener
      · obtain ⟨_, _, _, hkinds, hbody, hcloser, hafter⟩ :=
          Enclosed.exists_cut 0 0 ((Enclosed.opener_iff hopener).mp h)
        obtain ⟨body, behind, rfl, rfl, hbehind⟩ := List.map_eq_append_iff.mp hkinds
        obtain ⟨closer, after, rfl, rfl, rfl⟩ := List.map_eq_cons_iff.mp hbehind
        have hplain := TokenKind.isOpener_eq_false_of_isCloser hcloser
        have hlength : (body ++ closer :: after).length = body.length + (after.length + 1) := by
          simp
        have hfront : body.length < (t :: (body ++ closer :: after)).length := by
          rw [List.length_cons, hlength]
          omega
        have hback : after.length < (t :: (body ++ closer :: after)).length := by
          rw [List.length_cons, hlength]
          omega
        rw [List.map_append, List.map_cons, balanced_bracket_iff hopener hcloser hbody,
          List.append_assoc, List.cons_append, findsCounterpart_iff hcloser hbody, hlength,
          findsCounterparts_append, findsCounterparts_cons, hplain,
          ih body.length hfront hbody (closer :: (after ++ rest)) rfl,
          ih after.length hback hafter rest rfl]
        simp [hopener]
      · by_cases hcloser : t.kind.isCloser
        · exact absurd h (Enclosed.not_closer hcloser)
        · rw [balanced_plain_iff (by simpa using hopener) (by simpa using hcloser),
            ih part.length (by simp) ((Enclosed.plain_iff (by simpa using hopener)
              (by simpa using hcloser)).mp h) rest rfl]
          simp [hopener]

/-- The token that the count ends at closes the bracket in the proper way exactly if the count from
each bracket up to there ends at its own counterpart. -/
lemma isClosedAt_iff (hopener : opener.kind.isOpener) : IsClosedAt (opener :: tokens) j ↔
    matchingClose? (opener :: tokens) = some j ∧ FindsCounterparts (opener :: tokens) j := by
  constructor
  · intro h
    refine ⟨matchingClose?_eq_some_iff.mpr h.isCountedTo, ?_⟩
    obtain ⟨opener, body, closer, rest, htokens, rfl, hown, hbody⟩ := h
    have hcounted := hbody.enclosed
    rw [htokens, findsCounterparts_cons,
      findsCounterpart_iff (TokenKind.isCloser_of_closer? hown) hcounted]
    exact ⟨fun _ => hown, (balanced_iff hcounted _).mp hbody⟩
  · rintro ⟨hcount, hfinds⟩
    obtain ⟨opener', body, closer, rest, htokens, rfl, hcloser, hbody⟩ :=
      matchingClose?_eq_some_iff.mp hcount
    obtain ⟨rfl, rfl⟩ := List.cons.inj htokens
    rw [findsCounterparts_cons, findsCounterpart_iff hcloser hbody] at hfinds
    exact ⟨opener, body, closer, rest, rfl, rfl, hfinds.1 hopener,
      (balanced_iff hbody _).mpr hfinds.2⟩

end Token

/-- The kinds of the tokens of a visibility: a word, and brackets behind it that close as many
brackets as they open. -/
inductive IsVisibility : List TokenKind → Prop
  | word : IsVisibility [.wordPub]
  | bracket {inner : List TokenKind} {closer : TokenKind} (hcloser : closer.isCloser)
      (hinner : Enclosed true 0 inner) :
      IsVisibility (.wordPub :: .openParen :: (inner ++ [closer]))

lemma IsVisibility.enclosed {kinds : List TokenKind} (h : IsVisibility kinds) :
    Enclosed true 0 kinds := by
  cases h with
  | word => exact .plain rfl rfl (fun _ _ => rfl) .nil
  | bracket hcloser hinner =>
    have hend : Enclosed true (0 + 1) [_] := .closer hcloser .nil
    have hbehind := hinner.inside hend
    rw [Nat.zero_add, Nat.zero_add] at hbehind
    exact .plain rfl rfl (fun _ _ => rfl) (.opener rfl hbehind)

namespace Parser

variable {src : Source} {ts rest : List Token} {first : Token} {fault : SyntaxFault} {v : String}

/-- A bracketed part ends at the token that the bracket is counted to. -/
lemma exists_of_run_bracketed (h : (bracketed first fault).run src ts = .ok (v, rest)) :
    ∃ opener body closer, ts = opener :: (body ++ closer :: rest) ∧
      v = Text.slice src.text first.start closer.stop ∧ closer.kind.isCloser ∧
      Enclosed true 0 (body.map Token.kind) := by
  rw [bracketed, run_bind, run_remaining] at h
  dsimp only at h
  cases hcount : Token.matchingClose? ts with
  | none =>
    rw [hcount] at h
    cases h
  | some index =>
    rw [hcount] at h
    obtain ⟨opener, body, closer, behind, rfl, rfl, hcloser, hbody⟩ :=
      Token.matchingClose?_eq_some_iff.mp hcount
    have hdrop : (opener :: (body ++ closer :: behind)).drop (body.length + 1) =
        closer :: behind := by simp
    dsimp only at h
    rw [run_bind, run_skip, hdrop] at h
    dsimp only at h
    rw [run_bind, run_advance] at h
    dsimp only at h
    rw [run_textBetween, List.drop_one, List.tail_cons, List.headD_cons] at h
    obtain ⟨rfl, rfl⟩ := Prod.mk.inj (Except.ok.inj h)
    exact ⟨opener, body, closer, rfl, rfl, hcloser, hbody⟩

/-- The text of a visibility is that of a word and of the brackets behind it, if there are any. -/
lemma exists_front_of_run_visibility (heof : src.eof.kind = .eof)
    (h : visibility.run src ts = .ok (some v, rest)) :
    ∃ front, ts = front ++ rest ∧ v = Token.textOf src.text front ∧
      IsVisibility (front.map Token.kind) := by
  obtain ⟨pub?, mid, haccept, hrest⟩ := exists_of_run_bind h
  clear h
  obtain ⟨rfl, hkind⟩ := eq_append_of_run_accept? (by rw [heof]; decide) haccept
  cases pub? with
  | none => cases hrest
  | some pub =>
    have hpub : pub.kind = .wordPub := hkind pub rfl
    dsimp only at hrest
    rw [run_bind, run_current] at hrest
    dsimp only at hrest
    split at hrest
    · rename_i hparen
      obtain ⟨text, ts', hbracketed, hreturn⟩ := exists_of_run_bind hrest
      obtain ⟨hv, rfl⟩ := eq_of_run_pure hreturn
      obtain rfl := Option.some.inj hv
      obtain ⟨opener, body, closer, rfl, rfl, hcloser, hbody⟩ := exists_of_run_bracketed hbracketed
      refine ⟨pub :: opener :: (body ++ [closer]), by simp, ?_, ?_⟩
      · refine (Token.textOf_eq rfl ?_).symm
        rw [← List.cons_append, ← List.cons_append, List.getLast?_concat]
      · rw [List.map_cons, List.map_cons, List.map_append, hpub]
        rw [List.headD_cons] at hparen
        rw [hparen]
        exact .bracket hcloser hbody
    · obtain ⟨text, ts', htext, hreturn⟩ := exists_of_run_bind hrest
      obtain ⟨hv, rfl⟩ := eq_of_run_pure hreturn
      obtain rfl := Option.some.inj hv
      rw [run_textBetween] at htext
      obtain ⟨rfl, rfl⟩ := Prod.mk.inj (Except.ok.inj htext)
      refine ⟨[pub], rfl, (Token.textOf_eq rfl rfl).symm, ?_⟩
      rw [List.map_cons, hpub]
      exact .word

end Parser

/-- The text of a visibility by itself is read as the tokens that the count has kept. -/
lemma Invocation.exists_tokens_of_visibility {host : Host} {text v : String} {h : Holder}
    (hread : Invocation.ofText .fnStruct host text = .ok (.holder h))
    (hvisibility : h.visibility = some v) :
    ∃ own, Tokens.ofText host v = .ok own ∧ IsVisibility (own.body.map Token.kind) := by
  obtain ⟨tokens, htokens, -⟩ := Parser.Leaves.exists_of_onText
    (fun _ => Parser.Leaves.holder_isCaptured) hread
  obtain ⟨out, hrun⟩ := (Invocation.ofText_fnStruct_iff htokens).mp hread
  obtain ⟨rest, hrun⟩ := Parser.exists_run_visibility hrun
  rw [hvisibility] at hrun
  obtain ⟨front, hbody, rfl, hkinds⟩ :=
    Parser.exists_front_of_run_visibility (Tokens.kind_eof_of_ofText htokens) hrun
  have hne : front ≠ [] := by
    rintro rfl
    cases hkinds
  have hfront : tokens.body = [] ++ (front ++ rest) := hbody
  obtain ⟨own, hown, hlexemes⟩ := Tokens.exists_ofText_textOf htokens hfront hne
  exact ⟨own, hown, by rwa [Token.map_kind_eq_of_lexemes hlexemes]⟩

/-- From an opening bracket, the count gives the index of the first token that closes one bracket
more than those before it open. If the bracket is properly closed anywhere, it is there, and so it
is exactly if the count from each bracket up to there ends at its own counterpart. The visibility of
a holder is kept by such a count, so it is properly nested exactly on the same condition. -/
theorem Token.matchingClose?_spec (opener : Token) (tokens : List Token)
    (hopener : opener.kind.isOpener) :
    (∀ j, matchingClose? (opener :: tokens) = some j ↔ IsCountedTo (opener :: tokens) j) ∧
    (matchingClose? (opener :: tokens) = none ↔ ∀ j, ¬IsCountedTo (opener :: tokens) j) ∧
    (∀ j, IsClosedAt (opener :: tokens) j ↔
      matchingClose? (opener :: tokens) = some j ∧ FindsCounterparts (opener :: tokens) j) ∧
    ∀ (host : Host) (text v : String) (h : Holder),
      Invocation.ofText .fnStruct host text = .ok (.holder h) → h.visibility = some v →
        ∃ own, Tokens.ofText host v = .ok own ∧ IsVisibility (own.body.map kind) ∧
          (Balanced (own.body.map kind) ↔ FindsCounterparts own.body own.body.length) := by
  refine ⟨fun j => matchingClose?_eq_some_iff, ?_, fun j => isClosedAt_iff hopener,
    fun host text v h hread hvisibility => ?_⟩
  · rw [Option.eq_none_iff_forall_ne_some]
    exact forall_congr' fun j => not_congr matchingClose?_eq_some_iff
  · obtain ⟨own, hown, hkinds⟩ := Invocation.exists_tokens_of_visibility hread hvisibility
    have hbalanced := balanced_iff hkinds.enclosed []
    rw [List.append_nil] at hbalanced
    exact ⟨own, hown, hkinds, hbalanced⟩

/-- A visibility with brackets in brackets is counted to its end, and properly nested. -/
theorem Token.matchingClose?_spec_nested :
    ∃ (h : Holder) (own : Tokens) (pub opener : Token) (tokens : List Token),
      opener.kind.isOpener ∧
      Invocation.ofText .fnStruct (.dialect .rust) "pub(in a[0]) struct F for fn f()" =
        .ok (.holder h) ∧
      h.visibility = some "pub(in a[0])" ∧
      Tokens.ofText (.dialect .rust) "pub(in a[0])" = .ok own ∧
      own.body = pub :: opener :: tokens ∧ matchingClose? (opener :: tokens) = some 6 ∧
      IsClosedAt (opener :: tokens) 6 ∧ FindsCounterparts own.body own.body.length := by
  let h : Holder := { name := "F", path := "f", visibility := some "pub(in a[0])" }
  let pub : Token := ⟨.wordPub, "pub", 0, 3, ⟨1, 1⟩⟩
  let opener : Token := ⟨.openParen, "(", 3, 4, ⟨1, 4⟩⟩
  let inner : List Token := Token.onFirstLine
    [(.wordIn, "in", 4), (.ident, "a", 7), (.openBracket, "[", 8), (.number, "0", 9),
     (.closeBracket, "]", 10)]
  let closer : Token := ⟨.closeParen, ")", 11, 12, ⟨1, 12⟩⟩
  have hread : Invocation.ofText .fnStruct (.dialect .rust) "pub(in a[0]) struct F for fn f()" =
      .ok (.holder h) := by decide +kernel
  have hown : Tokens.ofText (.dialect .rust) "pub(in a[0])" =
      .ok ⟨pub :: opener :: (inner ++ [closer]), Tokens.endOf "pub(in a[0])".toList⟩ := by
    decide +kernel
  have hindex : Balanced (.openBracket :: ([.number] ++ .closeBracket :: [])) :=
    .bracket rfl (.plain rfl rfl .nil) .nil
  have hinner : Balanced (inner.map kind) := .plain rfl rfl (.plain rfl rfl hindex)
  have hclosed : IsClosedAt (opener :: (inner ++ [closer])) 6 :=
    ⟨opener, inner, closer, [], rfl, rfl, rfl, hinner⟩
  obtain ⟨-, -, hcount, hvisibility⟩ := matchingClose?_spec opener (inner ++ [closer]) rfl
  have hmatching := ((hcount 6).mp hclosed).1
  obtain ⟨own, hown', -, hbalanced⟩ := hvisibility (.dialect .rust) _ _ h hread rfl
  obtain rfl := Except.ok.inj (hown.symm.trans hown')
  exact ⟨h, _, pub, opener, inner ++ [closer], rfl, hread, rfl, hown, rfl, hmatching, hclosed,
    hbalanced.mp (.plain rfl rfl (.bracket rfl hinner .nil))⟩

/-- A square bracket ends the count from a round one, and the visibility is kept. -/
theorem Token.not_isClosedAt_crossed :
    ∃ (h : Holder) (own : Tokens) (pub opener closer : Token),
      Invocation.ofText .fnStruct (.dialect .rust) "pub(] struct F for fn f()" = .ok (.holder h) ∧
      h.visibility = some "pub(]" ∧ Tokens.ofText (.dialect .rust) "pub(]" = .ok own ∧
      own.body = [pub, opener, closer] ∧ matchingClose? [opener, closer] = some 1 ∧
      (∀ j, ¬IsClosedAt [opener, closer] j) ∧ ¬Balanced (own.body.map kind) := by
  let h : Holder := { name := "F", path := "f", visibility := some "pub(]" }
  let pub : Token := ⟨.wordPub, "pub", 0, 3, ⟨1, 1⟩⟩
  let opener : Token := ⟨.openParen, "(", 3, 4, ⟨1, 4⟩⟩
  let closer : Token := ⟨.closeBracket, "]", 4, 5, ⟨1, 5⟩⟩
  have hread : Invocation.ofText .fnStruct (.dialect .rust) "pub(] struct F for fn f()" =
      .ok (.holder h) := by decide +kernel
  have hown : Tokens.ofText (.dialect .rust) "pub(]" =
      .ok ⟨[pub, opener, closer], Tokens.endOf "pub(]".toList⟩ := by decide +kernel
  have hcount : matchingClose? [opener, closer] = some 1 := by decide +kernel
  refine ⟨h, _, pub, opener, closer, hread, rfl, hown, rfl, hcount, fun j hj => ?_,
    fun hkinds => ?_⟩
  · obtain ⟨hcount', hfinds⟩ := (isClosedAt_iff rfl).mp hj
    obtain rfl := Option.some.inj (hcount.symm.trans hcount')
    have hfirst : FindsCounterpart (opener :: ([] ++ closer :: [])) :=
      (findsCounterparts_cons.mp hfinds).1 rfl
    cases (findsCounterpart_iff rfl .nil).mp hfirst
  · have hbracket : Balanced (opener.kind :: ([] ++ closer.kind :: [])) :=
      (balanced_plain_iff rfl rfl).mp hkinds
    cases ((balanced_bracket_iff rfl rfl .nil).mp hbracket).1

end FieldComposition
