import FieldComposition.Proofs.ReplacedTokens
import FieldComposition.Parser.Invocation

/-!
# Parsers on tokens of another text

The tokens of a region of a text stand for tokens of another text (`Relocation`). A parser that
reads tokens of the region, and does not come to their end, reads on the other text what they stand
for, and what it returns is the same but for the places (`Parser.Relocates`). There is one rule for
every step that parsers are made of.
-/

namespace FieldComposition

def Argument.mapPositions (σ : Position → Position) (a : Argument) : Argument :=
  { a with default := a.default.map (Expression.mapPositions σ), position := σ a.position }

def Holder.mapPositions (σ : Position → Position) (h : Holder) : Holder :=
  { h with args := h.args.map (Argument.mapPositions σ) }

/-- Tokens of `left` in a region, and the tokens of `right` that they stand for. Behind them are
`tail` and `tail'`, which need not fit each other; with no tail the region goes on to the end. -/
structure Relocation where
  left : Source
  right : Source
  region : Token → Prop
  move : Token → Token
  place : Position → Position
  tail : List Token
  tail' : List Token
  host_eq : right.host = left.host
  kind_eq : ∀ t, (move t).kind = t.kind
  value_eq : ∀ t, (move t).value = t.value
  position_eq : ∀ t, region t → (move t).position = place t.position
  slice_eq : ∀ t u, region t → region u →
    Text.slice right.text (move t).start (move u).stop = Text.slice left.text t.start u.stop
  halves : ∀ t, region t → t.kind = .doubleGreater →
    (region t.halves.1 ∧ move t.halves.1 = (move t).halves.1) ∧
      region t.halves.2 ∧ move t.halves.2 = (move t).halves.2
  ends : tail = [] → tail' = [] ∧ region left.eof ∧ right.eof = move left.eof

namespace Relocation

variable (C : Relocation) {ts out mid : List Token}

/-- Reading has not come to the end of the region. -/
def Stays (out : List Token) : Prop :=
  C.tail = [] ∨ C.tail.length < out.length

variable {C}

lemma Stays.of_le (h : C.Stays out) (hlength : out.length ≤ mid.length) : C.Stays mid :=
  h.imp_right fun hlt => hlt.trans_le hlength

lemma Stays.ne_nil (h : C.Stays (ts ++ C.tail)) : C.tail = [] ∨ ts ≠ [] := by
  refine h.imp_right ?_
  rintro hlt rfl
  exact absurd hlt (lt_irrefl _)

/-- The next token stands for the next token. -/
lemma headD_eq (hts : ∀ t ∈ ts, C.region t) (h : C.Stays (ts ++ C.tail)) :
    C.region ((ts ++ C.tail).headD C.left.eof) ∧
      (ts.map C.move ++ C.tail').headD C.right.eof = C.move ((ts ++ C.tail).headD C.left.eof) := by
  cases ts with
  | nil =>
    have htail := h.ne_nil.resolve_right (absurd rfl)
    obtain ⟨htail', hregion, heof⟩ := C.ends htail
    rw [htail, htail']
    exact ⟨hregion, heof⟩
  | cons t ts => exact ⟨hts t List.mem_cons_self, rfl⟩

end Relocation

namespace Parser

variable {α β γ δ σ : Type}

/-- A parser that stays in the region reads what its tokens stand for. -/
def Relocates (C : Relocation) (p : Parser α) (q : Parser β) (f : α → β) (P : α → Prop) : Prop :=
  ∀ ts a out, (∀ t ∈ ts, C.region t) → p.run C.left (ts ++ C.tail) = .ok (a, out) → C.Stays out →
    P a ∧ ∃ rest, (∀ t ∈ rest, C.region t) ∧ out = rest ++ C.tail ∧
      q.run C.right (ts.map C.move ++ C.tail') = .ok (f a, rest.map C.move ++ C.tail')

namespace Relocates

variable {C : Relocation} {p p' : Parser α} {q q' : Parser β} {f : α → β} {P : α → Prop}

lemma pure {a : α} {b : β} (hb : b = f a) (ha : P a) :
    Relocates C (pure a) (pure b) f P := by
  intro ts a' out hts hrun _
  obtain ⟨rfl, rfl⟩ := Prod.mk.inj (Except.ok.inj hrun)
  exact ⟨ha, ts, hts, rfl, by rw [run_pure, hb]⟩

lemma bind {k : α → Parser γ} {l : β → Parser δ} {g : γ → δ} {Q : γ → Prop}
    (hp : Relocates C p q f P) (hk : ∀ a, P a → Relocates C (k a) (l (f a)) g Q) :
    Relocates C (p >>= k) (q >>= l) g Q := by
  intro ts c out hts hrun hout
  obtain ⟨a, mid, hfirst, hrest⟩ := exists_of_run_bind hrun
  have hmid := hout.of_le (length_le_of_run hrest)
  obtain ⟨ha, more, hmore, rfl, hfirst'⟩ := hp ts a mid hts hfirst hmid
  obtain ⟨hc, rest, hrest', rfl, hsecond⟩ := hk a ha more c out hmore hrest hout
  refine ⟨hc, rest, hrest', rfl, ?_⟩
  rw [run_bind, hfirst']
  exact hsecond

lemma ite {c c' : Prop} [Decidable c] [Decidable c'] (hc : c ↔ c')
    (hp : c → Relocates C p q f P) (hq : ¬c → Relocates C p' q' f P) :
    Relocates C (if c then p else p') (if c' then q else q') f P := by
  by_cases h : c
  · rw [if_pos h, if_pos (hc.mp h)]
    exact hp h
  · rw [if_neg h, if_neg (mt hc.mpr h)]
    exact hq h

lemma of_error (h : ∀ ts, ∃ e, p.run C.left ts = .error e) : Relocates C p q f P := by
  intro ts a out _ hrun
  obtain ⟨e, herror⟩ := h (ts ++ C.tail)
  rw [herror] at hrun
  cases hrun

lemma failAt {fault : SyntaxFault} {position : Position} :
    Relocates C (failAt fault position) q f P :=
  of_error fun _ => ⟨_, rfl⟩

lemma failAt_bind {fault : SyntaxFault} {position : Position} {k : γ → Parser α} :
    Relocates C (Parser.failAt fault position >>= k) q f P :=
  of_error fun _ => ⟨_, rfl⟩

lemma current : Relocates C current current C.move C.region := by
  intro ts t out hts hrun hout
  obtain ⟨rfl, rfl⟩ := Prod.mk.inj (Except.ok.inj hrun)
  obtain ⟨hregion, hhead⟩ := Relocation.headD_eq hts hout
  exact ⟨hregion, ts, hts, rfl, by rw [run_current, hhead]⟩

lemma skip {n : Nat} : Relocates C (skip n) (skip n) id fun _ => True := by
  intro ts _ out hts hrun hout
  obtain ⟨rfl, rfl⟩ := Prod.mk.inj (Except.ok.inj hrun)
  have hdrop : (ts ++ C.tail).drop n = ts.drop n ++ C.tail ∧
      (ts.map C.move ++ C.tail').drop n = (ts.drop n).map C.move ++ C.tail' := by
    by_cases htail : C.tail = []
    · obtain ⟨htail', -⟩ := C.ends htail
      rw [htail, htail']
      simp
    · have hlt := hout.resolve_left htail
      rw [List.length_drop, List.length_append] at hlt
      have hle : n ≤ ts.length := by omega
      exact ⟨List.drop_append_of_le_length hle, by
        rw [List.drop_append_of_le_length (by rwa [List.length_map]), List.map_drop]⟩
  refine ⟨trivial, ts.drop n, fun t ht => hts t (List.mem_of_mem_drop ht), hdrop.1, ?_⟩
  rw [run_skip, hdrop.2, id]

lemma advance : Relocates C advance advance C.move C.region :=
  current.bind fun _ ht => skip.bind fun _ _ => pure rfl ht

lemma expect {kind : TokenKind} {sought : Sought} :
    Relocates C (expect kind sought) (expect kind sought) C.move C.region :=
  current.bind fun t _ => ite (by rw [C.kind_eq]) (fun _ => advance) fun _ => failAt

lemma accept? {kind : TokenKind} :
    Relocates C (accept? kind) (accept? kind) (Option.map C.move) fun t? =>
      ∀ t ∈ t?, C.region t := by
  refine current.bind fun t ht => ite (by rw [C.kind_eq]) (fun _ => ?_) fun _ => pure rfl nofun
  exact skip.bind fun _ _ => pure rfl (by rintro u ⟨⟩; exact ht)

lemma accepts {kind : TokenKind} :
    Relocates C (accepts kind) (accepts kind) id fun _ => True :=
  accept?.bind fun t? _ => pure (by cases t? <;> rfl) trivial

lemma isName {t : Token} : Relocates C (isName t) (isName (C.move t)) id fun _ => True := by
  intro ts b out hts hrun _
  obtain ⟨rfl, rfl⟩ := Prod.mk.inj (Except.ok.inj hrun)
  exact ⟨trivial, ts, hts, rfl, by rw [run_isName, C.kind_eq, C.host_eq]; rfl⟩

lemma textBetween {first last : Token} (hfirst : C.region first) (hlast : C.region last) :
    Relocates C (textBetween first last) (textBetween (C.move first) (C.move last)) id
      fun _ => True := by
  intro ts s out hts hrun _
  obtain ⟨rfl, rfl⟩ := Prod.mk.inj (Except.ok.inj hrun)
  refine ⟨trivial, ts, hts, rfl, ?_⟩
  exact congrArg (fun s => Except.ok (s, ts.map C.move ++ C.tail'))
    (C.slice_eq first last hfirst hlast)

lemma expectEnd : Relocates C expectEnd expectEnd id fun _ => True :=
  current.bind fun _ _ => ite (by rw [C.kind_eq]) (fun _ => pure rfl trivial) fun _ => failAt

/-- Host text is read in step, by induction on the tokens. -/
lemma captureFrom {rule : CaptureRule} {first last : Token} {closers : List TokenKind}
    {last? : Option Token} {ts out : List Token} (hts : ∀ t ∈ ts, C.region t)
    (hlast : ∀ t ∈ last?, C.region t)
    (h : captureFrom rule first closers last? (ts ++ C.tail) = .ok (some last, out))
    (hout : C.Stays out) :
    C.region last ∧ ∃ rest, (∀ t ∈ rest, C.region t) ∧ out = rest ++ C.tail ∧
      Parser.captureFrom rule (C.move first) closers (last?.map C.move) (ts.map C.move ++ C.tail') =
        .ok (some (C.move last), rest.map C.move ++ C.tail') := by
  induction ts generalizing closers last? with
  | nil =>
    have htail := (hout.of_le (captureFrom_length_le h)).ne_nil.resolve_right (absurd rfl)
    obtain ⟨htail', -⟩ := C.ends htail
    rw [htail, List.append_nil, Parser.captureFrom] at h
    split at h
    · rename_i hclosers
      obtain ⟨rfl, rfl⟩ := Prod.mk.inj (Except.ok.inj h)
      refine ⟨hlast last rfl, [], List.forall_mem_nil _, by rw [htail]; rfl, ?_⟩
      rw [htail', List.map_nil, List.nil_append, Parser.captureFrom, if_pos hclosers]
      rfl
    · cases h
  | cons t ts ih =>
    have ht := hts t List.mem_cons_self
    have hrest : ∀ u ∈ ts, C.region u := fun u hu => hts u (List.mem_cons_of_mem t hu)
    have hsome : ∀ u ∈ some t, C.region u := by
      rintro u ⟨⟩
      exact ht
    have hkinds : (last?.map C.move).map Token.kind = last?.map Token.kind := by
      rw [Option.map_map]
      exact congrArg (last?.map ·) (funext C.kind_eq)
    rw [List.cons_append] at h
    rw [List.map_cons, List.cons_append]
    unfold Parser.captureFrom at h ⊢
    rw [C.kind_eq, hkinds]
    split at h
    · rename_i hstop
      obtain ⟨rfl, rfl⟩ := Prod.mk.inj (Except.ok.inj h)
      exact ⟨hlast last rfl, t :: ts, hts, rfl, by rw [if_pos hstop]; rfl⟩
    rename_i hstop
    rw [if_neg hstop]
    split at h
    · exact ih hrest hsome h
    split at h
    · rename_i hcloser
      rw [if_pos hcloser]
      cases closers with
      | nil => cases h
      | cons closer outer =>
        dsimp only at h ⊢
        split at h
        · rename_i hmatches
          rw [if_pos hmatches]
          exact ih hrest hsome h
        · cases h
    rename_i hcloser
    rw [if_neg hcloser]
    split at h
    · rename_i hless
      rw [if_pos hless]
      exact ih hrest hsome h
    rename_i hless
    rw [if_neg hless]
    split at h
    · exact ih hrest hsome h
    · exact ih hrest hsome h
    · rename_i hkind
      obtain ⟨⟨hhalf, hmove⟩, hhalf', hmove'⟩ := C.halves t ht hkind
      split at h
      · rename_i hstop
        obtain ⟨hlast, rfl⟩ := Prod.mk.inj (Except.ok.inj h)
        obtain rfl := Option.some.inj hlast
        refine ⟨hhalf, t.halves.2 :: ts, ?_, rfl, ?_⟩
        · rintro u hu
          rcases List.mem_cons.mp hu with rfl | hu
          · exact hhalf'
          · exact hrest u hu
        · rw [if_pos hstop, hmove, List.map_cons, hmove']
          rfl
      · rename_i hstop
        have hlast : ∀ u ∈ some t.halves.2, C.region u := by
          rintro u ⟨⟩
          exact hhalf'
        rw [if_neg hstop, ← hmove']
        exact ih hrest hlast h
    · exact ih hrest hsome h

/-- An expression keeps its text. -/
lemma capture {rule : CaptureRule} :
    Relocates C (capture rule) (capture rule) (Expression.mapPositions C.place) fun _ => True := by
  intro ts e out hts hrun hout
  rw [run_capture] at hrun
  rcases hresult : Parser.captureFrom rule ((ts ++ C.tail).headD C.left.eof) [] none
      (ts ++ C.tail) with error | ⟨_ | last, behind⟩
  · rw [hresult] at hrun
    cases hrun
  · rw [hresult] at hrun
    cases hrun
  rw [hresult] at hrun
  obtain ⟨rfl, rfl⟩ := Prod.mk.inj (Except.ok.inj hrun)
  obtain ⟨hfirst, hhead⟩ :=
    Relocation.headD_eq hts (hout.of_le (captureFrom_length_le hresult))
  obtain ⟨hlast, rest, hrest, rfl, hresult'⟩ := captureFrom hts (by simp) hresult hout
  refine ⟨trivial, rest, hrest, rfl, ?_⟩
  rw [run_capture, hhead]
  rw [Option.map_none] at hresult'
  rw [hresult']
  dsimp only
  rw [C.slice_eq _ _ hfirst hlast, C.position_eq _ hfirst, Expression.mapPositions]

/-- What closes a bracket in the region depends on the kinds in the region. -/
lemma toClose? {ts : List Token} {depth n : Nat}
    (h : Token.toClose? depth (ts ++ C.tail) = some n) (hn : C.tail = [] ∨ n < ts.length) :
    Token.toClose? depth (ts.map C.move ++ C.tail') = some n := by
  induction ts generalizing depth n with
  | nil =>
    have htail := hn.resolve_right (Nat.not_lt_zero n)
    obtain ⟨htail', -⟩ := C.ends htail
    rw [htail] at h
    rwa [htail']
  | cons t ts ih =>
    have hmap {depth : Nat} (h : (Token.toClose? depth (ts ++ C.tail)).map (· + 1) = some n) :
        (Token.toClose? depth (ts.map C.move ++ C.tail')).map (· + 1) = some n := by
      obtain ⟨m, hm, rfl⟩ := Option.map_eq_some_iff.mp h
      rw [ih hm (hn.imp_right Nat.lt_of_succ_lt_succ)]
      rfl
    rw [List.cons_append, Token.toClose?_cons] at h
    rw [List.map_cons, List.cons_append, Token.toClose?_cons, C.kind_eq]
    split at h
    · rename_i hopener
      rw [if_pos hopener]
      exact hmap h
    rename_i hopener
    rw [if_neg hopener]
    split at h
    · rename_i hcloser
      rw [if_pos hcloser]
      cases depth with
      | zero => exact h
      | succ depth => exact hmap h
    · rename_i hcloser
      rw [if_neg hcloser]
      exact hmap h

lemma bracketed {first : Token} {fault : SyntaxFault} (hfirst : C.region first) :
    Relocates C (bracketed first fault) (bracketed (C.move first) fault) id fun _ => True := by
  intro ts s out hts hrun hout
  rw [Parser.bracketed, run_bind, run_remaining] at hrun ⊢
  dsimp only at hrun ⊢
  cases hclose : Token.matchingClose? (ts ++ C.tail) with
  | none =>
    rw [hclose] at hrun
    cases hrun
  | some index =>
    rw [hclose] at hrun
    dsimp only at hrun
    have hread : Relocates C
        (Parser.skip index >>= fun _ => Parser.advance >>= Parser.textBetween first)
        (Parser.skip index >>= fun _ => Parser.advance >>= Parser.textBetween (C.move first)) id
        fun _ => True :=
      skip.bind fun _ _ => advance.bind fun last hlast => textBetween hfirst hlast
    have hclose' : Token.matchingClose? (ts.map C.move ++ C.tail') = some index := by
      rw [run_bind, run_skip] at hrun
      dsimp only at hrun
      rw [run_bind, run_advance] at hrun
      obtain ⟨-, hdrop⟩ := Prod.mk.inj (Except.ok.inj hrun)
      cases ts with
      | nil =>
        rw [List.nil_append] at hclose hdrop
        rcases hout with htail | hlt
        · rw [htail] at hclose
          cases hclose
        · rw [← hdrop, List.length_drop, List.length_drop] at hlt
          omega
      | cons t ts =>
        obtain ⟨n, hn, rfl⟩ := Option.map_eq_some_iff.mp hclose
        have hlt : C.tail = [] ∨ n < ts.length := by
          refine hout.imp_right fun hlt => ?_
          rw [← hdrop, List.length_drop, List.length_drop, List.cons_append, List.length_cons,
            List.length_append] at hlt
          omega
        rw [List.map_cons, List.cons_append, Token.matchingClose?, toClose? hn hlt]
        rfl
    rw [hclose']
    exact hread ts s out hts hrun hout

/-- The segments of a path are read in step, by induction on the tokens. -/
lemma pathSegments {last : Token} (hlast : C.region last) :
    Relocates C (pathSegments last) (pathSegments (C.move last)) C.move C.region := by
  intro ts
  induction hn : ts.length using Nat.strong_induction_on generalizing last ts with
  | _ n ih =>
    intro t out hts hrun hout
    have hstays := hout.of_le (length_le_of_run hrun)
    rw [run_pathSegments] at hrun ⊢
    cases ts with
    | nil =>
      have htail := hstays.ne_nil.resolve_right (absurd rfl)
      obtain ⟨htail', -⟩ := C.ends htail
      rw [htail] at hrun
      obtain ⟨rfl, rfl⟩ := Prod.mk.inj (Except.ok.inj hrun)
      exact ⟨hlast, [], List.forall_mem_nil _, by rw [htail]; rfl, by rw [htail']; rfl⟩
    | cons u ts =>
      rw [List.cons_append] at hrun
      rw [List.map_cons, List.cons_append]
      dsimp only at hrun ⊢
      rw [C.kind_eq]
      split at hrun
      · rename_i hsep
        rw [if_pos hsep]
        obtain ⟨name, mid, hname, hsegments⟩ := exists_of_run_bind hrun
        have hmore : ∀ v ∈ ts, C.region v := fun v hv => hts v (List.mem_cons_of_mem u hv)
        obtain ⟨hregion, rest, hrest, rfl, hname'⟩ :=
          expect ts name mid hmore hname (hout.of_le (length_le_of_run hsegments))
        have hshort : rest.length < n := by
          have hle := length_le_of_run hname
          rw [List.length_append, List.length_append] at hle
          rw [← hn, List.length_cons]
          omega
        rw [run_bind, hname']
        exact ih rest.length hshort hregion rest rfl t out hrest hsegments hout
      · rename_i hsep
        rw [if_neg hsep]
        obtain ⟨rfl, rfl⟩ := Prod.mk.inj (Except.ok.inj hrun)
        exact ⟨hlast, u :: ts, hts, rfl, rfl⟩

/-- Repeated items are read in step when each of them is, by induction on the tokens. -/
lemma separated {f : σ → δ} {P : σ → Prop} {close : TokenKind} {stops : TokenKind → Bool}
    {sought : Sought} {item : σ → Parser σ} {item' : δ → Parser δ}
    (hitem : ∀ s, P s → Relocates C (item s) (item' (f s)) f P) {s : σ} (hs : P s) :
    Relocates C (separated close stops sought item s) (separated close stops sought item' (f s))
      f P := by
  intro ts
  induction hn : ts.length using Nat.strong_induction_on generalizing s ts with
  | _ n ih =>
    intro s' out hts hrun hout
    have hstays := hout.of_le (length_le_of_run hrun)
    obtain ⟨-, hhead⟩ := Relocation.headD_eq hts hstays
    rw [run_separated] at hrun ⊢
    rw [hhead, C.kind_eq]
    split at hrun
    · rename_i hend
      rw [if_pos hend]
      obtain ⟨rfl, rfl⟩ := Prod.mk.inj (Except.ok.inj hrun)
      exact ⟨hs, ts, hts, rfl, rfl⟩
    rename_i hend
    rw [if_neg hend]
    rcases hresult : (item s).run C.left (ts ++ C.tail) with error | ⟨s'', mid⟩
    · rw [hresult] at hrun
      cases hrun
    rw [hresult] at hrun
    dsimp only at hrun
    have hmid : out.length ≤ mid.length := by
      split at hrun
      · obtain ⟨-, rfl⟩ := Prod.mk.inj (Except.ok.inj hrun)
        exact le_rfl
      cases mid with
      | nil => cases hrun
      | cons v more =>
        dsimp only at hrun
        split at hrun
        · exact (length_le_of_run hrun).trans (Nat.le_succ _)
        · cases hrun
    obtain ⟨hs'', rest, hrest, rfl, hresult'⟩ :=
      hitem s hs ts s'' mid hts hresult (hout.of_le hmid)
    obtain ⟨-, hhead'⟩ := Relocation.headD_eq hrest (hout.of_le hmid)
    rw [hresult']
    dsimp only
    rw [hhead', C.kind_eq]
    split at hrun
    · rename_i hclose
      rw [if_pos hclose]
      obtain ⟨rfl, rfl⟩ := Prod.mk.inj (Except.ok.inj hrun)
      exact ⟨hs'', rest, hrest, rfl, rfl⟩
    rename_i hclose
    rw [if_neg hclose]
    cases rest with
    | nil =>
      have htail := (hout.of_le hmid).ne_nil.resolve_right (absurd rfl)
      rw [htail] at hrun
      cases hrun
    | cons v more =>
      rw [List.cons_append] at hrun
      rw [List.map_cons, List.cons_append]
      dsimp only at hrun ⊢
      rw [C.kind_eq]
      split at hrun
      · rename_i hcomma
        have hlength := length_le_of_run hresult
        rw [List.length_append, List.length_append, List.length_cons] at hlength
        rw [if_pos hcomma]
        exact ih more.length (by omega) hs'' more rfl s' out
          (fun u hu => hrest u (List.mem_cons_of_mem v hu)) hrun hout
      · cases hrun

lemma nameAfter {m : Modifier} :
    Relocates C (nameAfter m) (nameAfter m) C.move C.region := by
  refine current.bind fun t ht => isName.bind fun hasName _ => ?_
  exact ite Iff.rfl (fun _ => advance) fun _ => ite Iff.rfl (fun _ => failAt) fun _ => failAt

lemma customPath : Relocates C customPath customPath id fun _ => True := by
  refine advance.bind fun openBracket _ => current.bind fun first hfirst => ?_
  refine ite (by rw [C.kind_eq]) (fun _ => failAt_bind) fun _ => ?_
  refine accept?.bind fun _ _ => expect.bind fun name hname => ?_
  refine (pathSegments hname).bind fun last hlast => current.bind fun t ht => ?_
  refine ite (by rw [C.kind_eq]) (fun _ => ?_) fun _ => failAt_bind
  exact skip.bind fun _ _ => textBetween hfirst hlast

lemma modifier : Relocates C modifier modifier id fun _ => True := by
  refine current.bind fun t ht => ?_
  rw [C.kind_eq, C.value_eq]
  split
  · exact skip.bind fun _ _ => accepts.bind fun _ _ => pure rfl trivial
  · exact skip.bind fun _ _ => accepts.bind fun _ _ => pure rfl trivial
  · exact skip.bind fun _ _ => pure rfl trivial
  · refine customPath.bind fun path _ => accepts.bind fun hasAmp _ => ?_
    exact ite Iff.rfl (fun _ => accepts.bind fun _ _ => pure rfl trivial)
      fun _ => pure rfl trivial
  · exact ite Iff.rfl (fun _ => failAt) fun _ => pure rfl trivial

lemma genericParam {params : List GenericParam} :
    Relocates C (genericParam params) (genericParam params) id fun _ => True := by
  refine capture.bind fun decl _ => ?_
  have htext : (decl.mapPositions C.place).text = decl.text := rfl
  rw [htext]
  cases GenericParam.ofDecl? decl.text with
  | some param => exact pure rfl trivial
  | none => exact current.bind fun _ _ => failAt

lemma generics : Relocates C generics generics id fun _ => True := by
  refine accepts.bind fun hasLess _ => ite Iff.rfl (fun _ => ?_) fun _ => pure rfl trivial
  refine (separated (P := fun _ => True) (fun _ _ => genericParam) trivial).bind fun params _ => ?_
  exact skip.bind fun _ _ => pure rfl trivial

lemma visibility : Relocates C visibility visibility id fun _ => True := by
  refine accept?.bind fun pub hpub => ?_
  cases pub with
  | none => exact pure rfl trivial
  | some pub =>
    refine current.bind fun t _ => ite (by rw [C.kind_eq]) (fun _ => ?_) fun _ => ?_
    · exact (bracketed (hpub pub rfl)).bind fun _ _ => pure rfl trivial
    · exact (textBetween (hpub pub rfl) (hpub pub rfl)).bind fun _ _ => pure rfl trivial

lemma typeText {stops : List TokenKind} {sought : Sought} :
    Relocates C (typeText stops sought) (typeText stops sought) id fun _ => True :=
  capture.bind fun _ _ => pure rfl trivial

lemma typeAfter? {mark : TokenKind} {stops : List TokenKind} {sought : Sought} :
    Relocates C (typeAfter? mark stops sought) (typeAfter? mark stops sought) id fun _ => True :=
  accepts.bind fun _ _ => ite Iff.rfl (fun _ => typeText.bind fun _ _ => pure rfl trivial)
    fun _ => pure rfl trivial

lemma argument : Relocates C argument argument (Sum.map (Argument.mapPositions C.place) id)
    fun _ => True := by
  refine current.bind fun first hfirst => modifier.bind fun m _ => nameAfter.bind fun name _ => ?_
  rw [C.value_eq, C.position_eq first hfirst]
  refine ite Iff.rfl (fun _ => ?_) fun _ => ?_
  · exact ite Iff.rfl (fun _ => pure rfl trivial) fun _ => failAt_bind
  refine typeAfter?.bind fun type _ => accepts.bind fun hasDefault _ => ?_
  refine ite Iff.rfl (fun _ => ?_) fun _ => ?_
  · have hdefault : Relocates C
        (some <$> Parser.capture
          { stops := [.comma, .closeParen], sought := .argumentDefault name.value })
        (some <$> Parser.capture
          { stops := [.comma, .closeParen], sought := .argumentDefault name.value })
        (Option.map (Expression.mapPositions C.place)) fun _ => True :=
      capture.bind fun _ _ => pure rfl trivial
    exact hdefault.bind fun _ _ => pure rfl trivial
  · have hnone : Relocates C (Pure.pure none : Parser (Option Expression)) (Pure.pure none)
        (Option.map (Expression.mapPositions C.place)) fun _ => True :=
      pure rfl trivial
    exact hnone.bind fun _ _ => pure rfl trivial

/-- The arguments that have been read keep what they are but for the places. -/
lemma nextArgument {openParen openParen' : Token} {state : Option Modifier × List Argument} :
    Relocates C (nextArgument openParen state)
      (nextArgument openParen' (state.map id (List.map (Argument.mapPositions C.place))))
      (Prod.map id (List.map (Argument.mapPositions C.place))) fun _ => True := by
  refine current.bind fun t _ => ite (by rw [C.kind_eq]) (fun _ => failAt_bind) fun _ => ?_
  refine argument.bind fun read _ => ?_
  cases read with
  | inr receiver =>
    refine ite ?_ (fun _ => pure rfl trivial) fun _ => failAt_bind
    simp
  | inl a => exact pure (by simp) trivial

end Relocates

end Parser

end FieldComposition
