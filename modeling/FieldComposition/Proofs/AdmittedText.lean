import FieldComposition.Proofs.CapturedText

/-!
# Text that a capture admits

A capture that goes on to one of its stops reads exactly the tokens that its rule admits
(`Parser.run_capture_iff`). Whether tokens are admitted depends on their kinds
(`Parser.CaptureRule.Admits.of_kinds`).
-/

namespace FieldComposition

/-- A capture reads these tokens to their end. -/
def Parser.CaptureRule.Admits (rule : CaptureRule) (ts : List Token) : Prop :=
  ts ≠ [] ∧ ∃ run, Piece.Cuts ts run [] ∧ Nested rule none false run

/-- The expression that consecutive tokens of a text are. -/
def Expression.ofTokens (text : String) (ts : List Token) : Expression :=
  ⟨Token.textOf text ts, (ts.head?.map Token.position).getD .start⟩

/-- What of a piece decides how it nests. -/
def Piece.shape : Piece → Bool × TokenKind
  | whole t => (false, t.kind)
  | half _ => (true, .greater)

section

variable {rule rule' : Parser.CaptureRule} {around? : Option TokenKind} {behindPath : Bool}
  {run run' : List Piece} {p p' : Piece} {t t' : Token} {ts ts' rest : List Token}

lemma Piece.kind_eq_of_shape (h : p'.shape = p.shape) : p'.token.kind = p.token.kind := by
  cases p <;> cases p' <;> simp_all [shape, token, Token.halves]

lemma Piece.exists_whole_of_shape (h : p'.shape = (whole t).shape) :
    ∃ t', p' = whole t' ∧ t'.kind = t.kind := by
  cases p' with
  | whole t' => exact ⟨t', rfl, (Prod.mk.inj h).2⟩
  | half => cases (Prod.mk.inj h).1

lemma Piece.Closes.of_shape {closer : TokenKind} (h : p.Closes closer)
    (hshape : p'.shape = p.shape) : p'.Closes closer := by
  cases h with
  | whole hkind =>
    obtain ⟨t', rfl, hkind'⟩ := Piece.exists_whole_of_shape hshape
    rw [← hkind'] at hkind ⊢
    exact .whole hkind
  | half =>
    cases p' with
    | whole => cases (Prod.mk.inj hshape).1
    | half t' => exact .half t'

lemma Token.Opens.of_kind {angles : Bool} {closer : TokenKind}
    (h : t.Opens angles behindPath closer) (hkind : t'.kind = t.kind) :
    t'.Opens angles behindPath closer := by
  cases h with
  | bracket hcloser => exact .bracket (hkind ▸ hcloser)
  | angle hless hangle => exact .angle (hkind.trans hless) hangle

lemma Token.IsPlain.of_kind {angles : Bool} (h : t.IsPlain angles around? behindPath)
    (hkind : t'.kind = t.kind) : t'.IsPlain angles around? behindPath :=
  ⟨fun closer hopens => h.not_opens closer (hopens.of_kind hkind.symm), hkind ▸ h.isCloser_eq,
    hkind ▸ h.not_greater⟩

/-- Host text of the same kinds nests in the same way, also where less stops it. -/
lemma Nested.of_shape (h : Nested rule around? behindPath run)
    (hrun : run'.map Piece.shape = run.map Piece.shape) (hangles : rule'.angles = rule.angles)
    (hstops : ∀ p ∈ run, p.token.kind ∈ rule'.stops → p.token.kind ∈ rule.stops) :
    Nested rule' around? behindPath run' := by
  induction h generalizing run' with
  | nil =>
    obtain rfl := List.map_eq_nil_iff.mp hrun
    exact .nil
  | @plain around? _ t rest hstop hplain _ ih =>
    obtain ⟨p', rest', rfl, hp', hrest'⟩ := List.map_eq_cons_iff.mp hrun
    obtain ⟨t', rfl, hkind⟩ := Piece.exists_whole_of_shape hp'
    have hrest := ih hrest' fun p hp => hstops p (List.mem_cons_of_mem _ hp)
    rw [← hangles] at hplain
    rw [← hkind] at hrest
    refine .plain (fun hnone hmem => hstop hnone ?_) (hplain.of_kind hkind) hrest
    rw [hkind] at hmem
    exact hstops _ List.mem_cons_self hmem
  | @bracket around? _ t closer body rest c hstop hopens _ hcloses _ ihbody ihrest =>
    rw [List.map_cons, List.map_append, List.map_cons] at hrun
    obtain ⟨p', after, rfl, hp', hafter⟩ := List.map_eq_cons_iff.mp hrun
    obtain ⟨body', after', rfl, hbody', hafter'⟩ := List.map_eq_append_iff.mp hafter
    obtain ⟨c', rest', rfl, hc', hrest'⟩ := List.map_eq_cons_iff.mp hafter'
    obtain ⟨t', rfl, hkind⟩ := Piece.exists_whole_of_shape hp'
    have hbody := ihbody hbody' fun p hp => hstops p (by simp [hp])
    have hrest := ihrest hrest' fun p hp => hstops p (by simp [hp])
    rw [← hangles] at hopens
    rw [← hkind] at hbody
    rw [← Piece.kind_eq_of_shape hc'] at hrest
    refine .bracket (fun hnone hmem => hstop hnone ?_) (hopens.of_kind hkind) hbody
      (hcloses.of_shape hc') hrest
    rw [hkind] at hmem
    exact hstops _ List.mem_cons_self hmem

namespace Piece.Cuts

/-- Tokens of the same kinds are cut into pieces in the same way. -/
lemma exists_of_kinds (h : Cuts ts run []) (hkinds : ts'.map Token.kind = ts.map Token.kind) :
    ∃ run', Cuts ts' run' [] ∧ run'.map shape = run.map shape := by
  generalize hnil : ([] : List Token) = rest at h
  induction h generalizing ts' with
  | nil ts =>
    subst hnil
    obtain rfl := List.map_eq_nil_iff.mp hkinds
    exact ⟨[], .nil [], rfl⟩
  | @whole t ts rest run _ ih =>
    subst hnil
    obtain ⟨t', ts', rfl, hkind, hkinds⟩ := List.map_eq_cons_iff.mp hkinds
    obtain ⟨run', hcuts, hrun⟩ := ih hkinds rfl
    exact ⟨Piece.whole t' :: run', .whole hcuts, by simp [shape, hkind, hrun]⟩
  | @half t ts rest run hdouble _ ih =>
    subst hnil
    obtain ⟨t', ts', rfl, hkind, hkinds⟩ := List.map_eq_cons_iff.mp hkinds
    have hhalves : (t'.halves.2 :: ts').map Token.kind = (t.halves.2 :: ts).map Token.kind := by
      simp [Token.halves, hkinds]
    obtain ⟨run', hcuts, hrun⟩ := ih hhalves rfl
    exact ⟨Piece.half t' :: run', .half (hkind.trans hdouble) hcuts, by simp [shape, hrun]⟩

lemma append (h : Cuts ts run []) (rest : List Token) : Cuts (ts ++ rest) run rest := by
  generalize hnil : ([] : List Token) = last at h
  induction h with
  | nil ts =>
    subst hnil
    exact .nil rest
  | whole _ ih => exact .whole (ih hnil)
  | half hkind _ ih => exact .half hkind (ih hnil)

/-- A run that does not end before half a token uses up the tokens before the rest. -/
lemma exists_eq_append (h : Cuts ts run rest) (hrest : ∀ t ∈ rest.head?, t.kind ≠ .greater) :
    ∃ front, ts = front ++ rest ∧ Cuts front run [] := by
  induction h with
  | nil => exact ⟨[], rfl, .nil []⟩
  | whole _ ih =>
    obtain ⟨front, rfl, hfront⟩ := ih hrest
    exact ⟨_ :: front, rfl, .whole hfront⟩
  | @half t ts rest run hkind _ ih =>
    obtain ⟨front, heq, hfront⟩ := ih hrest
    cases front with
    | nil =>
      rw [List.nil_append] at heq
      exact absurd rfl (hrest _ (by rw [← heq]; rfl))
    | cons u front =>
      obtain ⟨rfl, rfl⟩ := List.cons.inj heq
      exact ⟨t :: front, rfl, .half hkind hfront⟩

lemma kind_mem (h : Cuts ts run []) (hp : p ∈ run) :
    p.token.kind = .greater ∨ ∃ t ∈ ts, p.token.kind = t.kind := by
  generalize hnil : ([] : List Token) = rest at h
  induction h with
  | nil => cases hp
  | @whole t ts rest run _ ih =>
    rcases List.mem_cons.mp hp with rfl | hp
    · exact .inr ⟨t, List.mem_cons_self, rfl⟩
    · exact (ih hp hnil).imp_right fun ⟨u, hu, hkind⟩ => ⟨u, List.mem_cons_of_mem _ hu, hkind⟩
  | @half t ts rest run _ _ ih =>
    rcases List.mem_cons.mp hp with rfl | hp
    · exact .inl rfl
    · rcases ih hp hnil with hgreater | ⟨u, hu, hkind⟩
      · exact .inl hgreater
      rcases List.mem_cons.mp hu with rfl | hu
      · exact .inl hkind
      · exact .inr ⟨u, List.mem_cons_of_mem _ hu, hkind⟩

end Piece.Cuts

/-- Tokens of the same kinds are admitted as well, also by a capture that less stops. -/
lemma Parser.CaptureRule.Admits.of_kinds (h : rule.Admits ts)
    (hkinds : ts'.map Token.kind = ts.map Token.kind) (hangles : rule'.angles = rule.angles)
    (hgreater : .greater ∉ rule'.stops)
    (hstops : ∀ t ∈ ts, t.kind ∈ rule'.stops → t.kind ∈ rule.stops) : rule'.Admits ts' := by
  obtain ⟨hne, run, hcuts, hnested⟩ := h
  obtain ⟨run', hcuts', hrun'⟩ := hcuts.exists_of_kinds hkinds
  refine ⟨?_, run', hcuts', hnested.of_shape hrun' hangles fun p hp hmem => ?_⟩
  · rintro rfl
    exact hne (List.map_eq_nil_iff.mp hkinds.symm)
  · rcases hcuts.kind_mem hp with hkind | ⟨t, ht, hkind⟩
    · exact absurd (hkind ▸ hmem) hgreater
    · rw [hkind] at hmem ⊢
      exact hstops t ht hmem

end

namespace Parser

variable {rule : CaptureRule} {src : Source} {ts rest : List Token} {e : Expression}

/-- Admitted text closes the brackets that it opens. -/
lemma CaptureRule.Admits.enclosed (h : rule.Admits ts) : Enclosed true 0 (ts.map Token.kind) := by
  obtain ⟨-, run, hcuts, hnested⟩ := h
  obtain ⟨front, heq, hhalves, -, -⟩ := hcuts.exists_front nofun
  rw [List.append_nil] at heq
  subst heq
  exact hhalves.enclosed hnested.enclosed

lemma textOf_eq_of_cuts {text : String} {run : List Piece} {first last : Token}
    (hcuts : Piece.Cuts ts run []) (hfirst : ts.head? = some first)
    (hlast : run.getLast?.map (fun p => p.token.stop) = some last.stop) :
    Token.textOf text ts = Text.slice text first.start last.stop := by
  obtain ⟨front, heq, -, -, hstop⟩ := hcuts.exists_front nofun
  rw [List.append_nil] at heq
  subst heq
  rw [hlast] at hstop
  obtain ⟨u, hu, hustop⟩ := Option.map_eq_some_iff.mp hstop
  rw [Token.textOf_eq hfirst hu, hustop]

/-- A capture reads tokens that it admits, up to one of its stops or to the end. -/
lemma exists_front_of_run_capture (hgreater : .greater ∉ rule.stops)
    (h : (capture rule).run src ts = .ok (e, rest)) : (∀ t ∈ rest.head?, t.kind ∈ rule.stops) ∧
      ∃ front, rule.Admits front ∧ ts = front ++ rest ∧ e = .ofTokens src.text front := by
  rw [run_capture] at h
  rcases hresult : captureFrom rule (ts.headD src.eof) [] none ts with error | ⟨last?, after⟩
  · rw [hresult] at h
    cases h
  rw [hresult] at h
  cases last? with
  | none => cases h
  | some last =>
    obtain ⟨rfl, rfl⟩ := Prod.mk.inj (Except.ok.inj h)
    obtain ⟨run, hcuts, hnested, hrest, hlast⟩ := captureFrom_iff.mp ⟨some last, hresult, rfl⟩
    rw [Option.map_none, Option.or_none] at hlast
    obtain ⟨front, rfl, hfront⟩ := hcuts.exists_eq_append fun t ht hkind =>
      hgreater (hkind ▸ hrest t ht)
    have hne : front ≠ [] := by
      rintro rfl
      cases hfront
      cases hlast
    obtain ⟨t, front, rfl⟩ := List.exists_cons_of_ne_nil hne
    refine ⟨hrest, t :: front, ⟨hne, run, hfront, hnested⟩, rfl, ?_⟩
    rw [Expression.ofTokens, textOf_eq_of_cuts hfront rfl hlast]
    rfl

/-- A capture that goes on to one of its stops reads the tokens that it admits. -/
lemma run_capture_iff (hgreater : .greater ∉ rule.stops)
    (hnext : (rest.headD src.eof).kind ∈ rule.stops) :
    (capture rule).run src ts = .ok (e, rest) ↔
      ∃ front, rule.Admits front ∧ ts = front ++ rest ∧ e = .ofTokens src.text front := by
  refine ⟨fun h => (exists_front_of_run_capture hgreater h).2, ?_⟩
  have hrest : ∀ t ∈ rest.head?, t.kind ∈ rule.stops := by
    intro t ht
    obtain ⟨rest, rfl⟩ := List.head?_eq_some_iff.mp ht
    exact hnext
  rw [run_capture]
  rintro ⟨front, ⟨hne, run, hcuts, hnested⟩, rfl, rfl⟩
  have hrun : run ≠ [] := by
    rintro rfl
    cases hcuts
    exact hne rfl
  obtain ⟨t, front, rfl⟩ := List.exists_cons_of_ne_nil hne
  have hlast := List.getLast?_eq_some_getLast hrun
  have hreaches : Reaches rule [] false none (t :: front ++ rest)
      (some (run.getLast hrun).token.stop) rest :=
    ⟨run, hcuts.append rest, hnested, hrest, by rw [hlast]; rfl⟩
  have hloop : ∃ last?, captureFrom rule t [] none (t :: front ++ rest) = .ok (last?, rest) ∧
      last?.map Token.stop = some (run.getLast hrun).token.stop := captureFrom_iff.mpr hreaches
  obtain ⟨last?, hresult, hstop⟩ := hloop
  obtain ⟨last, rfl, hstop⟩ := Option.map_eq_some_iff.mp hstop
  have htext : Token.textOf src.text (t :: front) = Text.slice src.text t.start last.stop :=
    textOf_eq_of_cuts hcuts rfl (by rw [hlast]; exact hstop.symm)
  have hhead : (t :: front ++ rest).headD src.eof = t := rfl
  rw [hhead, hresult, Expression.ofTokens, htext]
  rfl

/-- A capture does not go on behind tokens that it admits, if the next token stops it. -/
lemma CaptureRule.Admits.not_mem_stops {us : List Token} {u : Token} (h : rule.Admits ts)
    (hmore : rule.Admits (ts ++ u :: us)) (hgreater : .greater ∉ rule.stops) :
    u.kind ∉ rule.stops := by
  intro hstop
  let src : Source := ⟨.dialect .python, "", u⟩
  have hread {front rest : List Token} (hfront : rule.Admits front) :
      (capture rule).run src (front ++ u :: rest) =
        .ok (.ofTokens src.text front, u :: rest) := by
    have hnext : ((u :: rest).headD src.eof).kind ∈ rule.stops := hstop
    exact (run_capture_iff hgreater hnext).mpr ⟨front, hfront, rfl, rfl⟩
  have hlong : (capture rule).run src (ts ++ u :: (us ++ [u])) =
      .ok (.ofTokens src.text (ts ++ u :: us), [u]) := by
    rw [← hread hmore, List.append_assoc, List.cons_append]
  rw [hread h] at hlong
  have hrest := (Prod.mk.inj (Except.ok.inj hlong)).2
  simp at hrest

/-- Where the last of the tokens that are admitted is replaced by one that does not stop it, a
capture goes on behind that one. -/
lemma exists_more_of_run_capture {us : List Token} {last u : Token}
    (h : rule.Admits (ts ++ [last])) (hgreater : .greater ∉ rule.stops) (hu : u.kind ∉ rule.stops)
    (hrun : (capture rule).run src (ts ++ u :: us) = .ok (e, rest)) :
    ∃ more, us = more ++ rest ∧ e = .ofTokens src.text (ts ++ u :: more) := by
  obtain ⟨hrest, front, hfront, heq, rfl⟩ := exists_front_of_run_capture hgreater hrun
  rcases List.append_eq_append_iff.mp heq with ⟨more, rfl, hmore⟩ | ⟨more, rfl, rfl⟩
  · cases more with
    | nil => exact absurd (hrest u (by rw [← List.nil_append rest, ← hmore]; rfl)) hu
    | cons v more =>
      obtain ⟨rfl, rfl⟩ := List.cons.inj hmore
      exact ⟨more, rfl, rfl⟩
  · cases more with
    | nil => exact absurd (hrest u rfl) hu
    | cons v more =>
      rw [List.append_assoc, List.cons_append] at h
      exact absurd (hrest v rfl) (hfront.not_mem_stops h hgreater)

end Parser

end FieldComposition
