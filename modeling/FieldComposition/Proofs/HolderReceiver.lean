import FieldComposition.Proofs.CapturedExpressions
import FieldComposition.Proofs.PathSegments

/-!
# Receivers of argument holders

The path of a holder is captured from the tokens of its text. With a receiver it is accepted exactly
if the search for the receiver's type in the text of the path finds something else than the whole
path; what it finds is the type that the path is called on only where the search comes upon the
right separator (`Invocation.ofText_finds_receiver`). A separator inside of brackets, or that of a
turbofish, is found as well.
-/

namespace FieldComposition

/-- A run of pieces leaves the last of the tokens; the first one may be the second half of one. -/
lemma Piece.Cuts.suffix_or_half {ts rest : List Token} {run : List Piece} (h : Cuts ts run rest) :
    rest <:+ ts ∨
      ∃ t more, t.kind = .doubleGreater ∧ rest = t.halves.2 :: more ∧ t :: more <:+ ts := by
  induction h with
  | nil => exact .inl List.suffix_rfl
  | @whole t ts rest run _ ih =>
    rcases ih with hsuffix | ⟨u, more, hkind, hrest, hsuffix⟩
    · exact .inl (hsuffix.trans (List.suffix_cons t ts))
    · exact .inr ⟨u, more, hkind, hrest, hsuffix.trans (List.suffix_cons t ts)⟩
  | @half t ts rest run hkind _ ih =>
    rcases ih with hsuffix | ⟨u, more, hkind', hrest, hsuffix⟩
    · rcases List.suffix_cons_iff.mp hsuffix with rfl | hsuffix
      · exact .inr ⟨t, ts, hkind, rfl, List.suffix_rfl⟩
      · exact .inl (hsuffix.trans (List.suffix_cons t ts))
    · rcases List.suffix_cons_iff.mp hsuffix with hcons | hsuffix
      · rw [(List.cons.inj hcons).1] at hkind'
        cases hkind'
      · exact .inr ⟨u, more, hkind', hrest, hsuffix.trans (List.suffix_cons t ts)⟩

namespace Parser.Leaves

variable {host : Host} {text : String} {tokens : Tokens}

lemma textBetween {first last : Token} :
    Leaves host text tokens (textBetween first last) fun _ => True :=
  of_run_eq fun _ => rfl

lemma bracketed {first : Token} {fault : SyntaxFault} :
    Leaves host text tokens (bracketed first fault) fun _ => True := by
  refine remaining.bind fun ts _ => ?_
  cases Token.matchingClose? ts with
  | none => exact current.bind fun _ _ => failAt
  | some index => exact skip.bind fun _ _ => advance.bind fun _ _ => textBetween

lemma visibility : Leaves host text tokens visibility fun _ => True := by
  refine accept?.bind fun pub _ => ?_
  cases pub with
  | none => exact pure trivial
  | some pub =>
    refine current.bind fun t _ => ite (fun _ => ?_) fun _ => ?_
    · exact bracketed.bind fun _ _ => pure trivial
    · exact textBetween.bind fun _ _ => pure trivial

/-- A generic parameter leaves the last tokens, or half a token that closes the list. -/
lemma suffix_or_half_of_genericParam {src : Source} {ts rest : List Token}
    {params params' : List GenericParam}
    (h : (genericParam params).run src ts = .ok (params', rest)) :
    rest <:+ ts ∨ (∃ t, rest.head? = some t ∧ t.kind = .greater) ∧ rest.tail <:+ ts := by
  obtain ⟨decl, mid, hdecl, hparam⟩ := exists_of_run_bind h
  obtain ⟨run, first, last, hcuts, -⟩ := ((capture_spec _ src ts).1 decl mid).mp hdecl
  obtain rfl : mid = rest := by
    cases hof : GenericParam.ofDecl? decl.text with
    | some param =>
      rw [hof] at hparam
      exact (Prod.mk.inj (Except.ok.inj hparam)).2
    | none =>
      rw [hof] at hparam
      cases hparam
  rcases hcuts.suffix_or_half with hsuffix | ⟨t, more, -, rfl, hsuffix⟩
  · exact .inl hsuffix
  · exact .inr ⟨⟨_, rfl, rfl⟩, (List.suffix_cons t more).trans hsuffix⟩

/-- Behind the token that closes a list of generic parameters are the last tokens. By induction on
the tokens that are left: the parameter in front of a comma leaves no half of a token. -/
lemma tail_suffix_of_genericParams {params params' : List GenericParam} {ts rest : List Token}
    (hts : ts <:+ tokens.body)
    (h : (Parser.separated .greater (fun _ => false) .genericSeparator genericParam params).run
      ⟨host, text, tokens.eof⟩ ts = .ok (params', rest)) : rest.tail <:+ tokens.body := by
  induction hn : ts.length using Nat.strong_induction_on generalizing params ts with
  | _ n ih =>
    rw [run_separated] at h
    split at h
    · obtain ⟨rfl, rfl⟩ := Prod.mk.inj (Except.ok.inj h)
      exact (List.tail_suffix ts).trans hts
    cases hresult : (genericParam params).run ⟨host, text, tokens.eof⟩ ts with
    | error error =>
      rw [hresult] at h
      cases h
    | ok result =>
      have hlength := length_le_of_run hresult
      obtain ⟨params'', mid⟩ := result
      rw [hresult] at h
      dsimp only at h
      have hmid := suffix_or_half_of_genericParam hresult
      split at h
      · obtain ⟨rfl, rfl⟩ := Prod.mk.inj (Except.ok.inj h)
        rcases hmid with hmid | ⟨-, hmid⟩
        · exact ((List.tail_suffix mid).trans hmid).trans hts
        · exact hmid.trans hts
      rename_i hclose
      cases mid with
      | nil => cases h
      | cons v more =>
        dsimp only at h
        split at h
        · refine ih more.length (by rw [← hn]; exact hlength) ?_ h rfl
          rcases hmid with hmid | ⟨-, hmid⟩
          · exact ((List.suffix_cons v more).trans hmid).trans hts
          · exact hmid.trans hts
        · cases h

lemma generics : Leaves host text tokens generics fun _ => True := by
  refine accepts.bind fun hasLess _ => ite (fun _ => ?_) fun _ => pure trivial
  intro ts hts params rest hrun
  obtain ⟨params', mid, hparams, hrun⟩ := exists_of_run_bind hrun
  obtain ⟨rfl, rfl⟩ := Prod.mk.inj (Except.ok.inj hrun)
  have hdrop : mid.drop 1 <:+ tokens.body := by
    rw [List.drop_one]
    exact tail_suffix_of_genericParams hts hparams
  exact ⟨trivial, hdrop⟩

section

variable (htokens : Tokens.ofText host text = .ok tokens)

include htokens

lemma typeText_isCaptured {stops : List TokenKind} {sought : Sought} (hgreater : .greater ∉ stops) :
    Leaves host text tokens (typeText stops sought) fun type =>
      ∃ position, (⟨type, position⟩ : Expression).IsCaptured host text tokens :=
  (capture_isCaptured htokens hgreater).bind fun e he => pure ⟨e.position, he⟩

lemma typeAfter?_any {mark : TokenKind} {stops : List TokenKind} {sought : Sought}
    (hgreater : .greater ∉ stops) :
    Leaves host text tokens (typeAfter? mark stops sought) fun _ => True :=
  accepts.bind fun _ _ => ite
    (fun _ => (typeText_isCaptured htokens hgreater).bind fun _ _ => pure trivial)
    fun _ => pure trivial

lemma argument_any : Leaves host text tokens argument fun _ => True := by
  refine current.bind fun first _ => (modifier_any htokens).bind fun m _ => ?_
  refine nameAfter_any.bind fun name _ => ite (fun _ => ?_) fun _ => ?_
  · exact ite (fun _ => pure trivial) fun _ => failAt_bind
  · refine (typeAfter?_any htokens (by decide)).bind fun type _ => accepts.bind fun _ _ => ?_
    refine ite (fun _ => ?_) fun _ => (pure (P := fun _ => True) trivial).bind fun _ _ =>
      pure trivial
    refine bind (P := fun _ => True) ?_ fun default _ => pure trivial
    exact (capture_isCaptured htokens (by simp)).bind fun e _ => pure trivial

lemma nextArgument_any {openParen : Token} {state : Option Modifier × List Argument} :
    Leaves host text tokens (nextArgument openParen state) fun _ => True := by
  refine current.bind fun t _ => ite (fun _ => failAt_bind) fun _ => ?_
  refine (argument_any htokens).bind fun read _ => ?_
  cases read with
  | inr receiver => exact ite (fun _ => pure trivial) fun _ => failAt_bind
  | inl a => exact pure trivial

/-- The path of a holder is captured, and with a receiver it is not its own type. -/
lemma holder_isCaptured :
    Leaves host text tokens Parser.holder fun i => ∃ h, i = .holder h ∧
      (∃ position, (⟨h.path, position⟩ : Expression).IsCaptured host text tokens) ∧
      (h.receiver.isSome → h.receiverType ≠ h.path) := by
  refine visibility.bind fun visibility _ => accept?.bind fun _ _ => accepts.bind fun byRef _ => ?_
  refine expect.bind fun name _ => generics.bind fun params _ => ?_
  refine (typeAfter?_any htokens (by decide)).bind fun whereClause _ => expect.bind fun _ _ => ?_
  refine generics.bind fun callGenerics _ => ?_
  refine (typeAfter?_any htokens (by decide)).bind fun callWhere _ => expect.bind fun _ _ => ?_
  refine current.bind fun pathStart _ => ?_
  refine (typeText_isCaptured htokens (by decide)).bind fun path hpath => ?_
  refine expect.bind fun openParen _ => ?_
  refine (separated (P := fun _ => True) (fun _ _ => nextArgument_any htokens) trivial).bind ?_
  rintro ⟨receiver, args⟩ -
  refine skip.bind fun _ _ => (typeAfter?_any htokens (by decide)).bind fun returnType _ => ?_
  refine expectEnd.bind fun _ _ => ite (fun _ => failAt_bind) fun _ => ?_
  refine ite (fun _ => failAt_bind) fun hmethod => pure ⟨_, rfl, hpath, fun hreceiver => ?_⟩
  simpa [hreceiver] using hmethod

end

end Parser.Leaves

/-- By itself, a captured text starts with its first token. -/
lemma Expression.IsCaptured.exists_ofText {host : Host} {text : String} {tokens : Tokens}
    {e : Expression} (h : e.IsCaptured host text tokens)
    (htokens : Tokens.ofText host text = .ok tokens) :
    ∃ own, Tokens.ofText host e.text = .ok own ∧ ∀ t ∈ own.body.head?, t.start = 0 := by
  obtain ⟨parts, hlexes, hstarts⟩ := h.exists_lexes htokens
  obtain ⟨own, hown, hbody⟩ := Tokens.exists_ofText_of_lexes hlexes
  exact ⟨own, hown, hbody ▸ Stretch.start_of_head?_tokens hstarts⟩

/-- The type of a receiver is what the search in the text of the path finds, which is not the whole
path. A path is called on one type at most, and the search finds this type exactly if it comes upon
the separator in front of the last segment, or upon the `as` of a qualified type. -/
theorem Invocation.ofText_finds_receiver {host : Host} {text : String} {h : Holder}
    (hread : Invocation.ofText .fnStruct host text = .ok (.holder h))
    (hreceiver : h.receiver.isSome) :
    ∃ tokens own position, Tokens.ofText host text = .ok tokens ∧
      (⟨h.path, position⟩ : Expression).IsCaptured host text tokens ∧
      Tokens.ofText host h.path = .ok own ∧ h.receiverType ≠ h.path ∧
      Text.IsSearchResult h.path.toList h.receiverType.toList ∧
      (∀ r r', MethodPath.IsReceiver h.path.toList own.body r →
        MethodPath.IsReceiver h.path.toList own.body r' → r = r') ∧
      ∀ r, MethodPath.IsReceiver h.path.toList own.body r →
        (h.receiverType.toList = r ↔ MethodPath.IsFound h.path.toList own.body) := by
  obtain ⟨tokens, htokens, h', hholder, ⟨position, hpath⟩, htype⟩ :=
    Parser.Leaves.exists_of_onText (fun _ => Parser.Leaves.holder_isCaptured) hread
  obtain rfl := Invocation.holder.inj hholder
  obtain ⟨own, hown, hstart⟩ := hpath.exists_ofText htokens
  have hsearch := h.isSearchResult_receiverType
  refine ⟨tokens, own, position, htokens, hpath, hown, htype hreceiver, hsearch, ?_, ?_⟩
  · exact fun r r' hr hr' => hr.unique hr'
  · exact fun r hr => MethodPath.eq_iff_isFound hown hstart hsearch hr

/-- Tokens on the first line of a text, each with the offset that it starts at. -/
def Token.onFirstLine (ts : List (TokenKind × String × ℕ)) : List Token :=
  ts.map fun (kind, value, start) => ⟨kind, value, start, start + value.length, ⟨1, start + 1⟩⟩

/-- The type in front of `as` is found although there is a `::` in its own brackets. -/
theorem Invocation.ofText_finds_receiver_qualified :
    let text := "H for fn <Vec<a::B> as Trait>::push(self)"
    ∃ h own, Invocation.ofText .fnStruct (.dialect .python) text = .ok (.holder h) ∧
      h.receiver.isSome ∧ Tokens.ofText (.dialect .python) h.path = .ok own ∧
      MethodPath.IsReceiver h.path.toList own.body "Vec<a::B>".toList ∧
      h.receiverType = "Vec<a::B>" := by
  intro text
  let path := "<Vec<a::B> as Trait>::push"
  let h : Holder := { name := "H", path, receiver := some .direct }
  have hread : Invocation.ofText .fnStruct (.dialect .python) text = .ok (.holder h) := by
    decide +kernel
  let ts : List Token := Token.onFirstLine
    [(.less, "<", 0), (.ident, "Vec", 1), (.less, "<", 4), (.ident, "a", 5), (.pathSep, "::", 6),
     (.ident, "B", 8), (.greater, ">", 9), (.ident, "as", 11), (.ident, "Trait", 14),
     (.greater, ">", 19), (.pathSep, "::", 20), (.ident, "push", 22)]
  have hown : Tokens.ofText (.dialect .python) path = .ok ⟨ts, Tokens.endOf path.toList⟩ := by
    decide +kernel
  have hlast : MethodPath.IsLastSeparatorAt ts 10 :=
    MethodPath.isLastSeparatorAt_iff.mpr (by decide +kernel)
  have hself : MethodPath.IsQualifiedAt (ts.take 10) 7 := by
    refine ⟨by decide +kernel, by decide +kernel, fun j hj => ?_⟩
    by_contra hlt
    have hnone : ∀ j < 7, ¬MethodPath.IsWordAt (ts.take 10) j := by decide +kernel
    exact hnone j (by omega) hj
  have hfirst : IsLeast {n | Text.OccursAt Text.asWord path.toList n} 10 := by
    refine ⟨by decide +kernel, fun n hn => ?_⟩
    by_contra hlt
    have hnone : ∀ n < 10, ¬Text.OccursAt Text.asWord path.toList n := by decide +kernel
    exact hnone n (by omega) hn
  let word : Token := ⟨.ident, "as", 11, 13, ⟨1, 12⟩⟩
  have hword : (ts.take 10)[7]? = some word := by decide +kernel
  have hr : MethodPath.IsReceiver path.toList ts _ := .self hlast hself hword
  have htype : Text.strip ((path.toList.take word.start).drop 1) = "Vec<a::B>".toList := by
    decide +kernel
  rw [htype] at hr
  obtain ⟨-, own, -, -, -, hown', -, -, -, hfinds⟩ := ofText_finds_receiver hread rfl
  obtain rfl : _ = own := Except.ok.inj (hown.symm.trans hown')
  have hfound : h.receiverType.toList = "Vec<a::B>".toList :=
    (hfinds _ hr).mpr (.self hlast hself hword hfirst)
  exact ⟨h, _, hread, rfl, hown, hr, String.toList_inj.mp hfound⟩

/-- A free function with a turbofish is accepted as a method, and where a `::` stands in a turbofish
the type that is found has a bracket that is not closed. -/
theorem not_receiver_turbofish :
    (∀ d : Dialect, ∃ h own, Invocation.ofText .fnStruct (.dialect d)
        "struct F for fn f::<T>(self)" = .ok (.holder h) ∧
      h.receiver.isSome ∧ Tokens.ofText (.dialect d) h.path = .ok own ∧
      (∀ k, ¬MethodPath.IsSeparatorAt own.body k) ∧ h.receiverType = "f") ∧
    ∀ d : Dialect, ∃ h own, Invocation.ofText .fnStruct (.dialect d)
        "H for fn Foo::new::<a::B>(self)" = .ok (.holder h) ∧
      h.receiver.isSome ∧ Tokens.ofText (.dialect d) h.path = .ok own ∧
      MethodPath.IsReceiver h.path.toList own.body "Foo".toList ∧
      h.receiverType = "Foo::new::<a" := by
  constructor
  · intro d
    let h : Holder := { name := "F", path := "f::<T>", receiver := some .direct }
    let ts : List Token := Token.onFirstLine [(.ident, "f", 0), (.pathSep, "::", 1),
      (.less, "<", 3), (.ident, "T", 4), (.greater, ">", 5)]
    refine ⟨h, ⟨ts, Tokens.endOf h.path.toList⟩, by cases d <;> decide +kernel, rfl,
      by cases d <;> decide +kernel, fun k hk => ?_, by decide +kernel⟩
    have hnone : ∀ k < ts.length, ¬MethodPath.IsSeparatorAt ts k := by decide +kernel
    exact hnone k (MethodPath.IsSeparatorAt.lt_length hk) hk
  · intro d
    let h : Holder := { name := "H", path := "Foo::new::<a::B>", receiver := some .direct }
    let ts : List Token := Token.onFirstLine [(.ident, "Foo", 0), (.pathSep, "::", 3),
      (.ident, "new", 5), (.pathSep, "::", 8), (.less, "<", 10), (.ident, "a", 11),
      (.pathSep, "::", 12), (.ident, "B", 14), (.greater, ">", 15)]
    have hlast : MethodPath.IsLastSeparatorAt ts 1 :=
      MethodPath.isLastSeparatorAt_iff.mpr (by decide +kernel)
    have hself : ∀ j, ¬MethodPath.IsQualifiedAt (ts.take 1) j :=
      fun j hj => absurd hj.isEnclosed (by decide +kernel)
    have hr : MethodPath.IsReceiver h.path.toList ts (h.path.toList.take 3) :=
      .owner hlast rfl hself
    have htype : h.path.toList.take 3 = "Foo".toList := by decide +kernel
    rw [htype] at hr
    exact ⟨h, ⟨ts, Tokens.endOf h.path.toList⟩, by cases d <;> decide +kernel, rfl,
      by cases d <;> decide +kernel, hr, by decide +kernel⟩

end FieldComposition
