import FieldComposition.Proofs.ClosedGap
import FieldComposition.Proofs.HolderArguments

/-!
# Ends of argument types

Where the type of an argument ends with a word or a closing bracket, what stands between the type
and the `=` of its default may be cut out of the text without a difference, but where the type ends
with a single closing angle bracket (`Invocation.ofText_without_gap_iff`). With the `=` right behind
it, that one is no bracket any more, while two closing angle brackets still are.
-/

namespace FieldComposition

/-- Only one token of a text stands at a position. -/
lemma Tokens.cons_eq_of_position {host : Host} {text : String} {tokens : Tokens} {t u : Token}
    {ts us : List Token} (htokens : ofText host text = .ok tokens) (ht : t :: ts <:+ tokens.body)
    (hu : u :: us <:+ tokens.body) (hposition : u.position = t.position) : u :: us = t :: ts := by
  obtain ⟨body, eof⟩ := tokens
  obtain ⟨before, rfl⟩ := ht
  obtain ⟨front, hfront⟩ := hu
  obtain ⟨hlt, hbefore, hbehind⟩ := bounds_of_ofText htokens
  have hne {v w : Token} (hv : v ∈ before ++ t :: ts) (hw : w ∈ before ++ t :: ts)
      (hstart : v.start < w.start) : v.position ≠ w.position := by
    obtain ⟨-, -, hspans, -⟩ := (tiled_of_ofText htokens).forall_mem v hv
    obtain ⟨-, -, hspans', -⟩ := (tiled_of_ofText htokens).forall_mem w hw
    rw [hspans.position_eq, hspans'.position_eq]
    exact Position.ofOffset_ne hstart (hspans'.start_le_stop.trans hspans'.stop_le_length)
  have hmem : u ∈ before ++ t :: ts := by
    change front ++ u :: us = before ++ t :: ts at hfront
    rw [← hfront]
    simp
  rcases List.append_eq_append_iff.mp hfront with ⟨more, rfl, hrest⟩ | ⟨more, rfl, hrest⟩
  · cases more with
    | nil => exact hrest
    | cons v more =>
      obtain ⟨rfl, -⟩ := List.cons.inj hrest
      exact absurd hposition (hne hmem (by simp) (hbefore u (by simp)).1)
  · cases more with
    | nil => exact hrest.symm
    | cons v more =>
      obtain ⟨rfl, rfl⟩ := List.cons.inj hrest
      have hstart : t.start < u.start := hlt.trans_le (hbehind u (by simp)).1
      exact absurd hposition.symm (hne (by simp) hmem hstart)

/-- The type of an argument ends at the token `last` of a text, and the next token, `assign`, is the
`=` of its default. -/
def Argument.HasGap (a : Argument) (host : Host) (text : String) (last assign : Token) : Prop :=
  assign.kind = .assign ∧ ∃ before type first behind eof,
    Tokens.ofText host text = .ok ⟨before ++ (type ++ last :: assign :: first :: behind), eof⟩ ∧
      a.type = some (Token.textOf text (type ++ [last])) ∧
      a.default.map Expression.position = some first.position

/-! ## The tokens on both sides of a gap -/

section

variable {host : Host} {text : String} {before behind body' : List Token}
  {last next eof eof' t : Token}

/-- The halves of two closing angle brackets move with them. -/
lemma Token.halves_move {k k' : Nat} {σ : Position → Position} (hk : k ≤ t.start)
    (hσ : (σ t.position).step '>' = σ (t.position.step '>')) :
    (t.move k k' σ).halves = (t.halves.1.move k k' σ, t.halves.2.move k k' σ) := by
  have hoffset : k' + (t.start - k) + 1 = k' + (t.start + 1 - k) := by omega
  have hposition : (⟨(σ t.position).line, (σ t.position).column + 1⟩ : Position) =
      σ ⟨t.position.line, t.position.column + 1⟩ := hσ
  rw [halves, halves, move, move, move]
  dsimp only
  rw [hoffset, hposition]

namespace Tokens

/-- The token behind a gap stands at its offset, behind the token in front of the gap. -/
lemma bounds_of_next (htokens : ofText host text = .ok ⟨before ++ last :: next :: behind, eof⟩) :
    last.stop ≤ next.start ∧ next.start ≤ text.toList.length ∧
      next.position = .ofOffset text.toList next.start := by
  obtain ⟨-, -, hbehind⟩ := bounds_of_ofText htokens
  obtain ⟨-, -, hspans, -⟩ := (tiled_of_ofText htokens).forall_mem next (by simp)
  exact ⟨(hbehind next (by simp)).1, hspans.start_le_stop.trans hspans.stop_le_length,
    hspans.position_eq⟩

lemma isBehind_of_mem {tokens : Tokens} (htokens : ofText host text = .ok tokens)
    (ht : t ∈ tokens.body) : t.IsBehind text.toList t.start := by
  obtain ⟨-, -, hspans, hread⟩ := (tiled_of_ofText htokens).forall_mem t ht
  exact ⟨le_rfl, hspans, fun _ => hread.start_lt_stop, hread.kind_spec.2, fun _ => hread.spells⟩

/-- The tokens up to a gap end in front of it. -/
lemma isBefore_of_gap (htokens : ofText host text = .ok ⟨before ++ last :: next :: behind, eof⟩)
    (ht : t ∈ before ++ [last]) :
    t.IsBehind text.toList 0 ∧ t.kind ≠ .eof ∧ t.stop ≤ last.stop := by
  have hmem : t ∈ before ++ last :: next :: behind :=
    List.append_cons before last (next :: behind) ▸ List.mem_append_left _ ht
  refine ⟨(isBehind_of_mem htokens hmem).weaken t.start.zero_le,
    kind_ne_eof_of_ofText htokens t hmem, ?_⟩
  obtain ⟨hlt, hbefore, -⟩ := bounds_of_ofText htokens
  rcases List.mem_append.mp ht with hfront | hlast
  · exact (hbefore t hfront).2.trans hlt.le
  · obtain rfl := List.mem_singleton.mp hlast
    exact le_rfl

/-- The tokens behind the first one behind a gap stand behind the gap. -/
lemma isBehind_of_gap (htokens : ofText host text = .ok ⟨before ++ last :: next :: behind, eof⟩)
    (ht : t ∈ behind) : t.IsBehind text.toList next.start := by
  have hmem : t ∈ before ++ last :: next :: behind := by simp [ht]
  rw [List.append_cons] at htokens
  obtain ⟨hlt, -, hbehind⟩ := bounds_of_ofText htokens
  rw [← List.append_cons] at htokens
  exact (isBehind_of_mem htokens hmem).weaken (hlt.le.trans (hbehind t ht).1)

end Tokens

lemma Token.length_textOf {ts : List Token} {first : Token} (hfirst : ts.head? = some first)
    (hlast : ts.getLast? = some last) (hstop : last.stop ≤ text.toList.length) :
    (textOf text ts).toList.length = last.stop - first.start := by
  rw [textOf_eq hfirst hlast, Text.slice, String.toList_ofList, List.length_take, List.length_drop]
  omega

/-- Tokens up to a closing angle bracket have another text where they go on behind the sign that
the bracket has become. -/
lemma Tokens.textOf_glued_ne {text' : String} {ts more before' us : List Token}
    (htokens : ofText host text = .ok ⟨before ++ last :: behind, eof⟩)
    (htokens' : ofText host text' = .ok ⟨before' ++ last.glued :: us, eof'⟩)
    (hts : ∀ t ∈ ts, t.start ≤ last.stop) (hmore : more ⊆ us) :
    Token.textOf text' (ts ++ last.glued :: more) ≠ Token.textOf text (ts ++ [last]) := by
  obtain ⟨hlt, -, -⟩ := bounds_of_ofText htokens
  obtain ⟨-, -, hbehind⟩ := bounds_of_ofText htokens'
  have hstop : last.stop ≤ text.toList.length :=
    ((tiled_of_ofText htokens).forall_mem last (by simp)).2.1
  obtain ⟨first, first', hfirst, hfirst', hstart, hle⟩ : ∃ first first' : Token,
      (ts ++ [last]).head? = some first ∧ (ts ++ last.glued :: more).head? = some first' ∧
        first'.start = first.start ∧ first.start ≤ last.stop := by
    cases ts with
    | nil => exact ⟨last, last.glued, rfl, rfl, rfl, hlt.le⟩
    | cons t ts => exact ⟨t, t, rfl, rfl, rfl, hts t List.mem_cons_self⟩
  obtain ⟨u, hu⟩ : ∃ u, (ts ++ last.glued :: more).getLast? = some u :=
    ⟨_, List.getLast?_eq_some_getLast (by simp)⟩
  have hmem : u ∈ last.glued :: more := by
    rw [List.getLast?_append_of_ne_nil _ (List.cons_ne_nil _ _)] at hu
    exact List.mem_of_getLast? hu
  have hlater : last.stop + 1 ≤ u.stop := by
    rcases List.mem_cons.mp hmem with rfl | hmem
    · exact le_rfl
    · obtain ⟨hle, hlt⟩ := hbehind u (hmore hmem)
      exact hle.trans hlt.le
  have hstop' : u.stop ≤ text'.toList.length := by
    refine ((tiled_of_ofText htokens').forall_mem u (List.mem_append_right _ ?_)).2.1
    exact List.cons_subset_cons _ hmore hmem
  intro htext
  have hlength := congrArg (fun s : String => s.toList.length) htext
  rw [Token.length_textOf hfirst' hu hstop',
    Token.length_textOf hfirst List.getLast?_concat hstop] at hlength
  omega

namespace Relocation

section

variable (htokens : Tokens.ofText host text = .ok ⟨before ++ last :: next :: behind, eof⟩)

/-- The tokens in front of a gap stay where they are when the gap is closed, whatever is then read
behind them. -/
def beforeGap (eof' : Token) (tail tail' : List Token) (htail : tail ≠ []) : Relocation where
  left := ⟨host, text, eof⟩
  right := ⟨host, Text.without text last.stop next.start, eof'⟩
  region t := t.IsBehind text.toList 0 ∧ t.kind ≠ .eof ∧ t.stop ≤ last.stop
  move := id
  place := last.endPosition.rebase next.position
  tail := tail
  tail' := tail'
  host_eq := rfl
  kind_eq _ := rfl
  value_eq _ := rfl
  position_eq := by
    rintro t ⟨ht, hkind, hstop⟩
    obtain ⟨hle, hlength, hnext⟩ := Tokens.bounds_of_next htokens
    have hlt : t.start < next.start := (ht.start_lt_stop hkind).trans_le (hstop.trans hle)
    have hbehind : t.position.IsBehind next.position := by
      rw [ht.spans.position_eq, hnext]
      exact Position.isBehind_ofOffset hlt hlength
    exact (Position.rebase_of_isBehind hbehind).symm
  slice_eq := by
    rintro t u ⟨-, -, ht⟩ ⟨-, -, hu⟩
    obtain ⟨front, gap, back, hsplits⟩ := Tokens.exists_splits htokens
    have hstops : ∀ v ∈ [t, u], v.stop ≤ last.stop := by simp [ht, hu]
    exact Token.textOf_of_take_eq hsplits.take_without hstops
  halves := by
    rintro t ⟨ht, -, hstop⟩ hkind
    obtain ⟨hfirst, hsecond⟩ := ht.halves hkind
    exact ⟨⟨⟨hfirst, nofun, hsecond.spans.start_le_stop.trans hstop⟩, rfl⟩,
      ⟨hsecond, nofun, hstop⟩, rfl⟩
  ends h := absurd h htail

/-- The tokens behind a gap move up when the gap is closed. -/
def behindGap (htokens' : Tokens.ofText host (Text.without text last.stop next.start) =
    .ok ⟨body', eof'⟩) : Relocation where
  left := ⟨host, text, eof⟩
  right := ⟨host, Text.without text last.stop next.start, eof'⟩
  region t := t.IsBehind text.toList next.start
  move := last.moveUp next
  place := last.endPosition.rebase next.position
  tail := []
  tail' := []
  host_eq := rfl
  kind_eq _ := rfl
  value_eq _ := rfl
  position_eq _ _ := rfl
  slice_eq := by
    intro t u ht hu
    obtain ⟨front, gap, back, hsplits⟩ := Tokens.exists_splits htokens
    have hstarts : ∀ v ∈ [t, u], next.start ≤ v.start ∧ next.start ≤ v.stop := by
      simp [ht.le_start, hu.le_start, ht.le_start.trans ht.spans.start_le_stop,
        hu.le_start.trans hu.spans.start_le_stop]
    exact Token.textOf_move hsplits.drop_without hstarts
  halves := by
    intro t ht hkind
    obtain ⟨hfirst, hsecond⟩ := ht.halves hkind
    obtain ⟨-, -, hnext⟩ := Tokens.bounds_of_next htokens
    have hposition : ¬t.position.IsBehind next.position := by
      rw [ht.spans.position_eq, hnext]
      exact Position.not_isBehind_ofOffset ht.le_start
        (ht.spans.start_le_stop.trans ht.spans.stop_le_length)
    have hstep := (Position.step_rebase (p := last.endPosition) '>' hposition).2
    have hhalves : (last.moveUp next t).halves =
        (last.moveUp next t.halves.1, last.moveUp next t.halves.2) :=
      Token.halves_move ht.le_start hstep
    obtain ⟨hmoved, hmoved'⟩ := Prod.mk.inj hhalves
    exact ⟨⟨hfirst, hmoved.symm⟩, hsecond, hmoved'.symm⟩
  ends _ := by
    obtain ⟨front, gap, back, hsplits⟩ := Tokens.exists_splits htokens
    obtain ⟨-, hlength, -⟩ := Tokens.bounds_of_next htokens
    have heof : eof = Tokens.endOf text.toList := Tokens.eof_eq_endOf htokens
    have heof' : eof' = Tokens.endOf _ := Tokens.eof_eq_endOf htokens'
    rw [heof, heof', hsplits.endOf_without]
    exact ⟨rfl, Token.isBehind_endOf hlength, rfl⟩

end

end Relocation

end

/-! ## The argument in front of a gap -/

section

variable {host : Host} {text : String} {h : Holder} {last assign : Token}

lemma Invocation.ofText_fnStruct_iff {tokens : Tokens} {i : Invocation}
    (htokens : Tokens.ofText host text = .ok tokens) :
    Invocation.ofText .fnStruct host text = .ok i ↔
      ∃ out, Parser.holder.run ⟨host, text, tokens.eof⟩ tokens.body = .ok (i, out) := by
  have hrun : Invocation.ofText .fnStruct host text =
      (Parser.holder.run ⟨host, text, tokens.eof⟩ tokens.body).map (·.1) := by
    rw [Invocation.ofText, Parser.onText, htokens]
    rfl
  rw [hrun]
  cases Parser.holder.run ⟨host, text, tokens.eof⟩ tokens.body with
  | error error => simp [Except.map]
  | ok result =>
    obtain ⟨i', out⟩ := result
    simp [Except.map]

/-- What is read in front of the type of an argument is read alike when a gap behind it is
closed. -/
lemma Parser.ArgumentStart.exists_without {before behind front tail named : List Token}
    {next eof : Token} {m : Modifier}
    (htokens : Tokens.ofText host text = .ok ⟨before ++ last :: next :: behind, eof⟩)
    (tail' : List Token) (eof' : Token)
    (hbody : before ++ last :: next :: behind = front ++ tail) (htail : tail ≠ [])
    (hfront : front ⊆ before ++ [last])
    (p : ArgumentStart ⟨host, text, eof⟩ (before ++ last :: next :: behind) m)
    (hbehind : p.behind = named ++ tail) (hne : named ≠ []) :
    (∀ t ∈ named, t.start < t.stop ∧ t.stop ≤ last.stop) ∧
      ∃ q : ArgumentStart ⟨host, Text.without text last.stop next.start, eof'⟩ (front ++ tail') m,
        q.head = p.head ∧ q.state = (p.state.1,
          p.state.2.map (Argument.mapPositions (last.endPosition.rebase next.position))) ∧
        (q.start.headD eof').position =
          last.endPosition.rebase next.position (p.start.headD eof).position ∧
        q.name.value = p.name.value ∧ q.behind = named ++ tail' := by
  let C := Relocation.beforeGap htokens eof' tail tail' htail
  have hmove : C.move = id := rfl
  have hrelocate := p.relocate (C := C) hbody
    (fun t ht => Tokens.isBefore_of_gap htokens (hfront ht)) hbehind hne
  rw [hmove, List.map_id, List.map_id] at hrelocate
  obtain ⟨hregion, q, hhead, hrest⟩ := hrelocate
  refine ⟨fun t ht => ?_, q, hhead, hrest⟩
  obtain ⟨hbehind, hkind, hstop⟩ := hregion t ht
  exact ⟨hbehind.start_lt_stop hkind, hstop⟩

/-- An argument is read alike when the gap behind its type is closed and the `=` behind the gap
stays a token of its own. -/
lemma Parser.ArgumentPlace.exists_without {before behind : List Token} {eof eof' : Token}
    {a : Argument}
    (htokens : Tokens.ofText host text = .ok ⟨before ++ last :: assign :: behind, eof⟩)
    (htokens' : Tokens.ofText host (Text.without text last.stop assign.start) =
      .ok ⟨(before ++ [last]) ++ (assign :: behind).map (last.moveUp assign), eof'⟩)
    (p : ArgumentPlace ⟨host, text, eof⟩ (before ++ last :: assign :: behind) a)
    (hassign : p.assign = assign) (hdefault : p.default = behind) :
    (∀ t ∈ p.rest, t.IsBehind text.toList assign.start) ∧
      ∃ q : ArgumentPlace ⟨host, Text.without text last.stop assign.start, eof'⟩
          ((before ++ [last]) ++ (assign :: behind).map (last.moveUp assign))
          (a.mapPositions (last.endPosition.rebase assign.position)),
        q.head = p.head ∧ q.state = (p.state.1,
          p.state.2.map (Argument.mapPositions (last.endPosition.rebase assign.position))) ∧
        q.rest = p.rest.map (last.moveUp assign) := by
  have hsplit : p.behind = (p.colon :: p.type) ++ (assign :: behind) := by
    rw [p.behind_eq, hassign, hdefault]
    rfl
  obtain ⟨hstops, q, hhead, hstate, hposition, hname, hbehind⟩ :=
    p.toArgumentStart.exists_without htokens ((assign :: behind).map (last.moveUp assign)) eof'
      (List.append_cons before last (assign :: behind)) (List.cons_ne_nil _ _)
      (List.Subset.refl _) hsplit (List.cons_ne_nil _ _)
  obtain ⟨front, gap, back, hsplits⟩ := Tokens.exists_splits htokens
  have htype : Token.textOf text p.type =
      Token.textOf (Text.without text last.stop assign.start) p.type :=
    (Token.textOf_of_take_eq hsplits.take_without fun t ht =>
      (hstops t (List.mem_cons_of_mem _ ht)).2).symm
  -- The default has moved up.
  let C := Relocation.behindGap htokens htokens'
  have hcapture : (capture (argumentDefaultRule p.name.value)).run C.left (p.default ++ []) =
      .ok (p.value, p.rest) := (congrArg _ (List.append_nil p.default)).trans p.run_default
  obtain ⟨-, rest, hrest, heq, hcapture'⟩ :=
    Relocates.capture (C := C) p.default p.value p.rest
      (fun t ht => Tokens.isBehind_of_gap htokens (hdefault ▸ ht)) hcapture (.inl rfl)
  obtain rfl : p.rest = rest := heq.trans (List.append_nil rest)
  have hmoved : (p.rest.map C.move ++ C.tail') = p.rest.map (last.moveUp assign) :=
    List.append_nil _
  rw [hmoved] at hcapture'
  refine ⟨hrest, { q with
    colon := p.colon
    type := p.type
    assign := last.moveUp assign assign
    default := p.default.map C.move ++ C.tail'
    value := p.value.mapPositions C.place
    rest := p.rest.map (last.moveUp assign)
    behind_eq := ?_
    colon_kind := p.colon_kind
    admits := hname ▸ p.admits
    type_eq := p.type_eq.trans (congrArg some htype)
    assign_kind := (congrArg Token.kind hassign).symm.trans p.assign_kind
    run_default := hname ▸ hcapture'
    default_eq := congrArg (Option.map _) p.default_eq
    name_eq := p.name_eq.trans hname.symm
    position_eq := (congrArg C.place p.position_eq).trans hposition.symm }, hhead, hstate, rfl⟩
  rw [hbehind, hdefault]
  simp [C, Relocation.behindGap]

/-- Where the last token of a type has become a sign that does not stop it, the type goes on. -/
lemma Parser.ArgumentStart.exists_type {src : Source} {body : List Token} {m : Modifier}
    {colon u v : Token} {ts us rest : List Token} {b : Argument} (p : ArgumentStart src body m)
    (hbehind : p.behind = colon :: (ts ++ v :: us)) (hcolon : colon.kind = .colon)
    (hadmits : (argumentTypeRule p.name.value).Admits (ts ++ [u]))
    (hv : v.kind ∉ (argumentTypeRule p.name.value).stops)
    (hargument : argument.run src p.start = .ok (.inl b, rest)) :
    ∃ more, more ⊆ us ∧ b.type = some (Token.textOf src.text (ts ++ v :: more)) := by
  obtain ⟨name, named, typed, after, hmodifier, hname, -, htype, -, -, -⟩ :=
    run_argument_iff.mp hargument
  rw [p.run_modifier] at hmodifier
  obtain ⟨rfl, rfl⟩ := Prod.mk.inj (Except.ok.inj hmodifier)
  rw [p.run_name] at hname
  obtain ⟨rfl, rfl⟩ := Prod.mk.inj (Except.ok.inj hname)
  rw [hbehind] at htype
  obtain ⟨e, htype, hcapture⟩ := (run_typeAfter?_iff hcolon).mp htype
  obtain ⟨more, rfl, rfl⟩ :=
    exists_more_of_run_capture hadmits (by simp [argumentTypeRule]) hv hcapture
  exact ⟨more, List.subset_append_left _ _, htype⟩

/-- An argument with a type and a default is read at one place, where the type ends and the default
starts. -/
lemma Argument.exists_place {body : List Token} {eof : Token} {a : Argument}
    (htokens : Tokens.ofText host text = .ok ⟨body, eof⟩)
    (hread : Invocation.ofText .fnStruct host text = .ok (.holder h)) (ha : a ∈ h.args)
    (htype : a.type.isSome) (hdefault : a.default.isSome) :
    ∃ (p : Parser.ArgumentPlace ⟨host, text, eof⟩ body a) (before type behind out : List Token)
      (last assign first : Token), body = before ++ (type ++ last :: assign :: first :: behind) ∧
        p.type = type ++ [last] ∧ p.assign = assign ∧ p.default = first :: behind ∧
        a.default.map Expression.position = some first.position ∧
        (Parser.behindArgument p.head (p.state.1, p.state.2 ++ [a])).run ⟨host, text, eof⟩ p.rest =
          .ok (.holder h, out) := by
  have heof : eof.kind = .eof := Tokens.kind_eof_of_ofText htokens
  obtain ⟨out, hrun⟩ := (Invocation.ofText_fnStruct_iff htokens).mp hread
  obtain ⟨p, hbehind⟩ := Parser.exists_place_of_run_holder heof hrun ha htype hdefault
  obtain ⟨more, hmore⟩ := (Parser.Leaves.suffix_of_argumentStart htokens p.toArgumentStart).2
  obtain ⟨-, front, hadmits, hfront, hvalue⟩ :=
    Parser.exists_front_of_run_capture (by simp [Parser.argumentDefaultRule]) p.run_default
  obtain ⟨first, rest, rfl⟩ := List.exists_cons_of_ne_nil hadmits.1
  obtain ⟨type, last, htypeEq⟩ : ∃ type last, p.type = type ++ [last] :=
    (List.eq_nil_or_concat' p.type).resolve_left p.admits.1
  refine ⟨p, more ++ [p.colon], type, rest ++ p.rest, out, last, p.assign, first, ?_, htypeEq, rfl,
    hfront, ?_, hbehind⟩
  · rw [p.behind_eq, htypeEq, hfront] at hmore
    simpa using hmore.symm
  · rw [p.default_eq, hvalue]
    rfl

namespace Argument.HasGap

variable {a : Argument}

/-- The argument in front of the gap is read at one place. -/
lemma exists_place (hgap : a.HasGap host text last assign)
    (hread : Invocation.ofText .fnStruct host text = .ok (.holder h)) (ha : a ∈ h.args) :
    ∃ (before behind : List Token) (eof : Token)
      (p : Parser.ArgumentPlace ⟨host, text, eof⟩ (before ++ last :: assign :: behind) a)
      (type out : List Token),
      Tokens.ofText host text = .ok ⟨before ++ last :: assign :: behind, eof⟩ ∧
        p.type = type ++ [last] ∧ p.assign = assign ∧ p.default = behind ∧
        (Parser.behindArgument p.head (p.state.1, p.state.2 ++ [a])).run ⟨host, text, eof⟩ p.rest =
          .ok (.holder h, out) := by
  obtain ⟨-, before, type, first, behind, eof, htokens, htype, hdefault⟩ := hgap
  rw [← List.append_assoc] at htokens
  have hsome := congrArg Option.isSome hdefault
  rw [Option.isSome_map] at hsome
  obtain ⟨p, before', type', behind', out, last', assign', first', hbody, htype', hassign,
    hdefault', hfirst, hbehind⟩ :=
    Argument.exists_place htokens hread ha (by simp [htype]) hsome
  -- The default starts at the one token that has its position.
  have hposition : first'.position = first.position :=
    Option.some.inj (hfirst.symm.trans hdefault)
  have hsame : first' :: behind' = first :: behind :=
    Tokens.cons_eq_of_position htokens ⟨before ++ type ++ [last, assign], by simp⟩
      ⟨before' ++ (type' ++ [last', assign']), by rw [hbody]; simp⟩ hposition
  -- In front of it are its `=` and the last token of the type.
  rw [hsame] at hbody
  have hsplit : (before' ++ type') ++ (last' :: assign' :: first :: behind) =
      (before ++ type) ++ (last :: assign :: first :: behind) := by
    simpa using hbody.symm
  obtain ⟨-, hends⟩ := List.append_inj' hsplit rfl
  obtain ⟨rfl, hassigns⟩ := List.cons.inj hends
  obtain ⟨rfl, -⟩ := List.cons.inj hassigns
  exact ⟨before ++ type, first :: behind, eof, p, type', out, htokens, htype', hassign,
    hdefault'.trans hsame, hbehind⟩

/-- Where the type does not end with a single closing angle bracket, the text without the gap is
read alike. -/
lemma ofText_without (hgap : a.HasGap host text last assign)
    (hread : Invocation.ofText .fnStruct host text = .ok (.holder h)) (ha : a ∈ h.args)
    (hkind : last.kind.closesType) (hgreater : last.kind ≠ .greater) :
    Invocation.ofText .fnStruct host (Text.without text last.stop assign.start) =
      .ok (.holder (h.mapPositions (last.endPosition.rebase assign.position))) := by
  obtain ⟨before, behind, eof, p, type, out, htokens, htype, hassign, hdefault, hbehind⟩ :=
    hgap.exists_place hread ha
  obtain ⟨front, gap, back, hsplits⟩ := Tokens.exists_splits htokens
  have htokens' := hsplits.ofText_without hkind hgreater (hassign ▸ p.assign_kind)
  rw [List.append_cons] at htokens'
  obtain ⟨hregion, q, hhead, hstate, hrest⟩ := p.exists_without htokens htokens' hassign hdefault
  let C := Relocation.behindGap htokens htokens'
  rw [← List.append_nil p.rest] at hbehind
  obtain ⟨-, rest, -, -, hbehind'⟩ :=
    Parser.Relocates.behindArgument (C := C) p.rest _ out hregion hbehind (.inl rfl)
  have hmoved : p.rest.map C.move ++ C.tail' = q.rest := (List.append_nil _).trans hrest.symm
  rw [hmoved, ← hhead] at hbehind'
  refine (Invocation.ofText_fnStruct_iff htokens').mpr ⟨rest.map C.move ++ C.tail', ?_⟩
  rw [q.run_holder (Tokens.kind_eof_of_ofText htokens'), hstate]
  exact hbehind'

/-- Where the type ends with a single closing angle bracket, the text without the gap is not read
alike: the type goes on behind the sign that the bracket has become. -/
lemma not_ofText_without (hgap : a.HasGap host text last assign)
    (hread : Invocation.ofText .fnStruct host text = .ok (.holder h)) (ha : a ∈ h.args)
    (hkind : last.kind = .greater) (σ : Position → Position) :
    Invocation.ofText .fnStruct host (Text.without text last.stop assign.start) ≠
      .ok (.holder (h.mapPositions σ)) := by
  intro hread'
  obtain ⟨before, behind, eof, p, type, out, htokens, htype, hassign, hdefault, hbehind⟩ :=
    hgap.exists_place hread ha
  obtain ⟨front, gap, back, hsplits⟩ := Tokens.exists_splits htokens
  have htokens' := hsplits.ofText_without_greater hkind (hassign ▸ p.assign_kind)
  have hsplit : p.behind = (p.colon :: type) ++ (last :: assign :: behind) := by
    rw [p.behind_eq, htype, hassign, hdefault]
    simp
  obtain ⟨hstops, q, hhead, hstate, -, hname, hglued⟩ :=
    p.toArgumentStart.exists_without htokens (last.glued :: behind.map (last.moveUp assign)) _ rfl
      (List.cons_ne_nil _ _) (List.subset_append_left _ _) hsplit (List.cons_ne_nil _ _)
  obtain ⟨out', hrun⟩ := (Invocation.ofText_fnStruct_iff htokens').mp hread'
  obtain ⟨b, rest, hargument, hbehind'⟩ :=
    q.exists_argument (Tokens.kind_eof_of_ofText htokens') hrun
  have hadmits : (Parser.argumentTypeRule q.name.value).Admits (type ++ [last]) := by
    rw [← htype, hname]
    exact p.admits
  obtain ⟨more, hmore, hb⟩ := q.exists_type hglued p.colon_kind hadmits (by simp [Token.glued,
    Parser.argumentTypeRule]) hargument
  have hsame : b.type = a.type := by
    obtain ⟨args, hargs⟩ := Parser.Leaves.prefix_of_behindArgument htokens p.toArgumentStart
      (p.run_argument (Tokens.kind_eof_of_ofText htokens)) hbehind
    obtain ⟨args', hargs'⟩ :=
      Parser.Leaves.prefix_of_behindArgument htokens' q hargument hbehind'
    rw [Holder.mapPositions, ← hargs, hstate, List.append_assoc, List.append_assoc,
      List.map_append] at hargs'
    obtain ⟨-, hrest⟩ := List.append_inj hargs' (by simp)
    obtain ⟨rfl, -⟩ := List.cons.inj hrest
    rfl
  rw [hb, p.type_eq, htype] at hsame
  refine Tokens.textOf_glued_ne htokens htokens' (fun t ht => ?_) hmore (Option.some.inj hsame)
  obtain ⟨hlt, hle⟩ := hstops t (List.mem_cons_of_mem _ ht)
  exact hlt.le.trans hle

end Argument.HasGap

/-- What stands between the type of an argument and the `=` of its default may be cut out of an
accepted text without a difference but for positions, which stay on their lines if all is on one
line, exactly if the type does not end with a single closing angle bracket. -/
theorem Invocation.ofText_without_gap_iff {a : Argument}
    (hread : Invocation.ofText .fnStruct host text = .ok (.holder h)) (ha : a ∈ h.args)
    (htype : a.type.isSome) (hdefault : a.default.isSome) :
    (∃ last assign, a.HasGap host text last assign) ∧
      ∀ last assign, a.HasGap host text last assign → last.kind.closesType →
        ((∃ σ : Position → Position,
            ('\n' ∉ (Text.slice text last.stop assign.start).toList → ∀ p, (σ p).line = p.line) ∧
              Invocation.ofText .fnStruct host (Text.without text last.stop assign.start) =
                .ok (.holder (h.mapPositions σ))) ↔
          last.kind ≠ .greater) := by
  refine ⟨?_, fun last assign hgap hkind => ⟨?_, fun hgreater => ?_⟩⟩
  · obtain ⟨⟨body, eof⟩, htokens, -⟩ := Parser.Leaves.exists_of_onText
      (fun _ => Parser.Leaves.holder_isCaptured) hread
    obtain ⟨p, before, type, behind, out, last, assign, first, rfl, htypeEq, hassign, -, hfirst,
      -⟩ := Argument.exists_place htokens hread ha htype hdefault
    refine ⟨last, assign, hassign ▸ p.assign_kind, before, type, first, behind, eof, htokens, ?_,
      hfirst⟩
    rw [← htypeEq]
    exact p.type_eq
  · rintro ⟨σ, -, hread'⟩ hgreater
    exact hgap.not_ofText_without hread ha hgreater σ hread'
  · refine ⟨_, fun hline => ?_, hgap.ofText_without hread ha hkind hgreater⟩
    obtain ⟨before, behind, eof, -, -, -, htokens, -⟩ := hgap.exists_place hread ha
    obtain ⟨front, gap, back, hsplits⟩ := Tokens.exists_splits htokens
    exact fun p => Position.line_rebase (hsplits.line_next hline)

end

/-- Two closing angle brackets right in front of the `=` are still brackets. -/
theorem Invocation.ofText_without_gap_nested :
    let text := "F for fn f(a: list<list<int>> = x)"
    let a : Argument :=
      { name := "a", type := some "list<list<int>>", default := some ⟨"x", ⟨1, 33⟩⟩,
        position := ⟨1, 12⟩ }
    let h : Holder := { name := "F", path := "f", args := [a] }
    let last : Token := ⟨.doubleGreater, ">>", 27, 29, ⟨1, 28⟩⟩
    let assign : Token := ⟨.assign, "=", 30, 31, ⟨1, 31⟩⟩
    (Invocation.ofText .fnStruct (.dialect .python) text = .ok (.holder h) ∧ a ∈ h.args ∧
      a.type.isSome ∧ a.default.isSome) ∧
      a.HasGap (.dialect .python) text last assign ∧ last.kind.closesType ∧
      ∃ σ : Position → Position, (∀ p, (σ p).line = p.line) ∧
        Invocation.ofText .fnStruct (.dialect .python) "F for fn f(a: list<list<int>>= x)" =
          .ok (.holder (h.mapPositions σ)) := by
  intro text a h last assign
  have hread : Invocation.ofText .fnStruct (.dialect .python) text = .ok (.holder h) := by
    decide +kernel
  have hgap : a.HasGap (.dialect .python) text last assign := by
    let before : List Token := Token.onFirstLine
      [(.ident, "F", 0), (.wordFor, "for", 2), (.wordFn, "fn", 6), (.ident, "f", 9),
       (.openParen, "(", 10), (.ident, "a", 11), (.colon, ":", 12)]
    let type : List Token := Token.onFirstLine
      [(.ident, "list", 14), (.less, "<", 18), (.ident, "list", 19), (.less, "<", 23),
       (.ident, "int", 24)]
    let behind : List Token := Token.onFirstLine [(.closeParen, ")", 33)]
    exact ⟨rfl, before, type, ⟨.ident, "x", 32, 33, ⟨1, 33⟩⟩, behind, Tokens.endOf text.toList,
      by decide +kernel, by decide +kernel, rfl⟩
  have ha : a ∈ h.args := List.mem_singleton_self a
  obtain ⟨σ, hline, hread'⟩ :=
    ((ofText_without_gap_iff hread ha rfl rfl).2 last assign hgap rfl).mpr (by decide)
  have htext : Text.without text last.stop assign.start = "F for fn f(a: list<list<int>>= x)" := by
    decide +kernel
  rw [htext] at hread'
  exact ⟨⟨hread, ha, rfl, rfl⟩, hgap, rfl, σ, hline (by decide +kernel), hread'⟩

/-- A single closing angle bracket right in front of the `=` does not close the type. -/
theorem not_read_gluedBracket :
    (∀ d : Dialect, Invocation.ofText .fnStruct (.dialect d) "F for fn f(a: list<int> = x)" =
      .ok (.holder { name := "F", path := "f", args :=
        [{ name := "a", type := some "list<int>", default := some ⟨"x", ⟨1, 27⟩⟩,
           position := ⟨1, 12⟩ }] })) ∧
    ∀ d : Dialect, Invocation.ofText .fnStruct (.dialect d) "F for fn f(a: list<int>= x)" =
      .error (.fault (.mismatchedIn ")" (.argumentType "a")) ⟨1, 27⟩) := by
  constructor
  · rintro (_ | _) <;> decide +kernel
  · rintro (_ | _) <;> decide +kernel

end FieldComposition
