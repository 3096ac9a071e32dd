import FieldComposition.Proofs.FollowedText
import FieldComposition.Proofs.NestedText

/-!
# Captured text is separable

A capture reads a run of tokens, of which the text is read alike by itself
(`Tokens.exists_ofText_textOf`). The run closes the brackets that it opens. If a comma stops the
capture, then none stands outside of these brackets, unless a turbofish `::<` opens a list in angle
brackets (`Nested.enclosed_of_stops`).
-/

namespace FieldComposition

/-- The part of a text from the first of some tokens to the last one. -/
def Token.textOf (text : String) (run : List Token) : String :=
  match run.head?, run.getLast? with
  | some first, some last => Text.slice text first.start last.stop
  | _, _ => ""

/-- A `::` with a `<` behind it. -/
def TokenKind.turbofish : List TokenKind :=
  [.pathSep, .less]

namespace Nested

open TokenKind (turbofish)

variable {rule : Parser.CaptureRule} {around? : Option TokenKind} {behindPath : Bool}
  {run : List Piece} {t : Token} {c : Piece} {closer : TokenKind} {commas angles : Bool}

/-- The kinds of the tokens and halves of tokens in a run. -/
abbrev kinds (run : List Piece) : List TokenKind :=
  run.map fun p => p.token.kind

lemma isOpener_eq_of_isPlain (h : t.IsPlain angles around? behindPath) :
    t.kind.isOpener = false := by
  by_contra hopener
  have hopener : t.kind.isOpener := by simpa using hopener
  obtain ⟨closer, hcloser⟩ := Option.isSome_iff_exists.mp hopener
  exact h.not_opens closer (.bracket hcloser)

lemma kind_of_closes (h : c.Closes closer) : c.token.kind = closer := by
  cases h with
  | whole => rfl
  | half => rfl

/-- A bracket with enclosed text in it, before enclosed text. -/
lemma enclosed_bracket {body rest : List TokenKind} (hcloser : t.kind.closer? = some closer)
    (hbody : Enclosed true 0 body) (hrest : Enclosed commas 0 rest) :
    Enclosed commas 0 (t.kind :: (body ++ closer :: rest)) := by
  have hisCloser : closer.isCloser := by
    cases hkind : t.kind <;> rw [hkind] at hcloser <;> cases hcloser <;> rfl
  have hbehind : Enclosed commas (0 + 1) (closer :: rest) := .closer hisCloser hrest
  have hinside := hbody.inside hbehind
  rw [Nat.zero_add] at hinside
  exact .opener (Option.isSome_iff_exists.mpr ⟨closer, hcloser⟩) hinside

/-- Nested text closes the brackets that it opens, whatever angle brackets stand in it. -/
lemma enclosed (h : Nested rule around? behindPath run) : Enclosed true 0 (kinds run) := by
  induction h with
  | nil => exact .nil
  | plain _ hplain _ ih =>
    exact .plain (isOpener_eq_of_isPlain hplain) hplain.isCloser_eq (fun _ _ => rfl) ih
  | @bracket _ _ t _ body rest c _ hopens _ hcloses _ ihbody ihrest =>
    have hkinds : kinds (.whole t :: (body ++ c :: rest)) =
        t.kind :: (kinds body ++ c.token.kind :: kinds rest) := by simp [kinds, Piece.token]
    rw [hkinds, kind_of_closes hcloses]
    cases hopens with
    | bracket hcloser => exact enclosed_bracket hcloser ihbody ihrest
    | angle hless _ =>
      have hbehind : Enclosed true 0 (.greater :: kinds rest) :=
        .inert ⟨rfl, rfl, by decide⟩ ihrest
      rw [hless]
      exact .inert ⟨rfl, rfl, by decide⟩ (ihbody.append hbehind)

/-- The `::` that stands right before a run. -/
abbrev pathBefore (behindPath : Bool) : List TokenKind :=
  if behindPath then [.pathSep] else []

lemma not_turbofish_behind {before rest : List TokenKind} {kind : TokenKind}
    (h : ¬turbofish <:+: before ++ kind :: rest) :
    ¬turbofish <:+: pathBefore (kind == .pathSep) ++ rest := by
  refine fun hpair => h (hpair.trans ?_)
  by_cases hkind : kind = .pathSep
  · rw [hkind]
    exact (List.suffix_append _ _).isInfix
  · rw [pathBefore, if_neg (by simpa using hkind)]
    exact ((List.suffix_cons kind rest).trans (List.suffix_append _ _)).isInfix

/-- Where a comma stops the capture, none is passed outside of all brackets. -/
lemma enclosed_of_stops (h : Nested rule none behindPath run) (hcomma : .comma ∈ rule.stops)
    (hangles : rule.angles = false)
    (hpair : ¬turbofish <:+: pathBefore behindPath ++ kinds run) :
    Enclosed false 0 (kinds run) := by
  generalize hnone : (none : Option TokenKind) = around? at h
  induction h with
  | nil => exact .nil
  | @plain _ _ t rest hstop hplain _ ih =>
    subst hnone
    refine .plain (isOpener_eq_of_isPlain hplain) hplain.isCloser_eq ?_
      (ih (not_turbofish_behind hpair) rfl)
    rintro - hkind
    change t.kind = .comma at hkind
    exact absurd (hkind ▸ hcomma) (hstop rfl)
  | @bracket _ _ t closer body rest c _ hopens hbody hcloses _ _ ihrest =>
    subst hnone
    have hkinds : kinds (.whole t :: (body ++ c :: rest)) =
        t.kind :: (kinds body ++ c.token.kind :: kinds rest) := by simp [kinds, Piece.token]
    rw [hkinds] at hpair ⊢
    have hrest := ihrest (by
      rw [← List.cons_append, ← List.append_assoc] at hpair
      exact not_turbofish_behind hpair) rfl
    cases hopens with
    | bracket hcloser =>
      rw [kind_of_closes hcloses]
      exact enclosed_bracket hcloser hbody.enclosed hrest
    | angle hless hangle =>
      rw [hangles, Bool.false_or] at hangle
      rw [hless, pathBefore, if_pos hangle] at hpair
      exact absurd (List.prefix_append turbofish _).isInfix hpair

end Nested

/-- The kinds of pieces of tokens: two closing angle brackets may be the halves of one token. -/
inductive Halves : List TokenKind → List TokenKind → Prop
  | nil : Halves [] []
  | whole {kinds pieces : List TokenKind} (kind : TokenKind) (hrest : Halves kinds pieces) :
      Halves (kind :: kinds) (kind :: pieces)
  | halves {kinds pieces : List TokenKind} (hrest : Halves kinds pieces) :
      Halves (.doubleGreater :: kinds) (.greater :: .greater :: pieces)

namespace Halves

open TokenKind (turbofish)

variable {kinds pieces : List TokenKind} {commas : Bool} {depth : Nat}

lemma enclosed (h : Halves kinds pieces) (hpieces : Enclosed commas depth pieces) :
    Enclosed commas depth kinds := by
  induction h generalizing depth with
  | nil => exact hpieces
  | whole kind _ ih =>
    cases hpieces with
    | opener hopener hrest => exact .opener hopener (ih hrest)
    | closer hcloser hrest => exact .closer hcloser (ih hrest)
    | plain hopener hcloser hcomma hrest => exact .plain hopener hcloser hcomma (ih hrest)
  | halves _ ih =>
    have hgreater : TokenKind.IsInert .greater := ⟨rfl, rfl, by decide⟩
    exact .inert ⟨rfl, rfl, by decide⟩ (ih ((hpieces.of_inert hgreater).of_inert hgreater))

lemma turbofish_infix (h : Halves kinds pieces) (hpieces : turbofish <:+: pieces) :
    turbofish <:+: kinds := by
  induction h with
  | nil => exact hpieces
  | @whole kinds pieces kind hrest ih =>
    rcases List.infix_cons_iff.mp hpieces with hbegins | hinfix
    · obtain ⟨rfl, hless⟩ := List.cons_prefix_cons.mp hbegins
      obtain ⟨pieces, rfl⟩ := hless
      cases hrest with
      | whole => exact (List.prefix_append turbofish _).isInfix
    · exact (ih hinfix).trans (List.suffix_cons _ _).isInfix
  | @halves kinds pieces _ ih =>
    have hinfix : turbofish <:+: pieces := by
      simpa [List.infix_cons_iff, turbofish] using hpieces
    exact (ih hinfix).trans (List.suffix_cons _ _).isInfix

end Halves

/-- A run that ends before no half of a token is made of whole tokens. -/
lemma Piece.Cuts.exists_front {ts rest : List Token} {run : List Piece} (h : Cuts ts run rest)
    (hrest : ∀ t ∈ rest.head?, t.kind ≠ .greater) :
    ∃ front, ts = front ++ rest ∧ Halves (front.map Token.kind) (Nested.kinds run) ∧
      front.head?.map Token.start = run.head?.map (fun p => p.token.start) ∧
      front.getLast?.map Token.stop = run.getLast?.map (fun p => p.token.stop) := by
  induction h with
  | nil => exact ⟨[], rfl, .nil, rfl, rfl⟩
  | @whole t ts rest run hcuts ih =>
    obtain ⟨front, rfl, hhalves, hstart, hstop⟩ := ih hrest
    refine ⟨t :: front, rfl, .whole t.kind hhalves, rfl, ?_⟩
    rw [List.getLast?_cons, List.getLast?_cons]
    cases hfront : front.getLast? <;> cases hrun : run.getLast? <;> simp_all [Piece.token]
  | @half t ts rest run hkind hcuts ih =>
    obtain ⟨front, hfront, hhalves, hstart, hstop⟩ := ih hrest
    -- The second half stands behind the first one, since the run does not end between them.
    cases front with
    | nil =>
      rw [List.nil_append] at hfront
      exact absurd rfl (hrest _ (by rw [← hfront]; rfl))
    | cons u front =>
      obtain ⟨rfl, rfl⟩ := List.cons.inj hfront
      refine ⟨t :: front, rfl, ?_, rfl, ?_⟩
      · have hpieces : Nested.kinds (.half t :: run) = .greater :: Nested.kinds run := rfl
        rw [hpieces, List.map_cons, hkind]
        generalize Nested.kinds run = pieces at hhalves
        cases hhalves with
        | whole _ hhalves => exact .halves hhalves
      · cases hrun : run.getLast? with
        | none =>
          rw [hrun, List.getLast?_cons] at hstop
          cases hstop
        | some last =>
          rw [hrun, List.getLast?_cons] at hstop
          rw [List.getLast?_cons, List.getLast?_cons, hrun]
          cases hlast : front.getLast? <;> simp_all [Token.halves]

section Runs

variable {text : String} {tokens : Tokens} {before front behind : List Token} {commas : Bool}

lemma Token.textOf_eq {first last : Token} (hfirst : front.head? = some first)
    (hlast : front.getLast? = some last) :
    textOf text front = Text.slice text first.start last.stop := by
  rw [textOf, hfirst, hlast]

lemma exists_ends (hne : front ≠ []) :
    ∃ first last : Token, front.head? = some first ∧ front.getLast? = some last :=
  ⟨_, _, List.head?_eq_some_head hne, List.getLast?_eq_some_getLast hne⟩

/-- The text of consecutive tokens is separable if these are enclosed. -/
lemma Separable.textOf (htokens : Tokens.ofText (.dialect .python) text = .ok tokens)
    (hbody : tokens.body = before ++ (front ++ behind)) (hne : front ≠ [])
    (hfront : Enclosed commas 0 (front.map Token.kind)) :
    Separable commas (Token.textOf text front).toList := by
  obtain ⟨more, parts, hlexes, hsolid, hlexemes, htext⟩ :=
    exists_stretches_of_ofText htokens hbody hne
  have hkinds := Stretch.kinds_of_lexemes hlexemes
  obtain ⟨first, last, hfirst, hlast⟩ := exists_ends hne
  rw [Token.textOf_eq hfirst hlast, htext first hfirst last hlast, String.toList_ofList]
  rw [← hkinds] at hfront
  exact .of_lexes hlexes hsolid hfront

lemma Token.map_kind_eq_of_lexemes {ts us : List Token}
    (h : ts.map Token.lexeme = us.map Token.lexeme) : ts.map Token.kind = us.map Token.kind := by
  have hkinds := congrArg (List.map Prod.fst) h
  rw [List.map_map, List.map_map] at hkinds
  exact hkinds

/-- The text of consecutive tokens has the same tokens by itself, but for their places. -/
lemma Tokens.exists_ofText_textOf {host : Host} (htokens : ofText host text = .ok tokens)
    (hbody : tokens.body = before ++ (front ++ behind)) (hne : front ≠ []) :
    ∃ tokens', ofText host (Token.textOf text front) = .ok tokens' ∧
      tokens'.body.map Token.lexeme = front.map Token.lexeme := by
  obtain ⟨more, parts, hlexes, hsolid, hlexemes, htext⟩ :=
    exists_stretches_of_ofText htokens hbody hne
  obtain ⟨first, last, hfirst, hlast⟩ := exists_ends hne
  rw [Token.textOf_eq hfirst hlast, htext first hfirst last hlast]
  have hend : Lexeme.IsDelimited [] := by simp [Lexeme.IsDelimited]
  have hlexes := hlexes.before_delimiter hsolid.ends hend
  have htoList : (String.ofList (Stretch.text parts)).toList = Stretch.text parts :=
    String.toList_ofList
  rw [← htoList] at hlexes
  obtain ⟨tokens', htokens', hbody'⟩ := exists_ofText_of_lexes hlexes
  exact ⟨tokens', htokens', by rw [hbody', Stretch.map_lexeme_tokens, hlexemes]⟩

end Runs

/-- What a capture reads from the front of the tokens, when it does not stop at half a token. -/
lemma Parser.exists_run_of_capture {rule : CaptureRule} {src : Source} {tokens rest : List Token}
    {e : Expression} (hgreater : .greater ∉ rule.stops)
    (h : (capture rule).run src tokens = .ok (e, rest)) :
    ∃ front, tokens = front ++ rest ∧ front ≠ [] ∧ e.text = Token.textOf src.text front ∧
      Enclosed true 0 (front.map Token.kind) ∧
      (.comma ∈ rule.stops → rule.angles = false →
        ¬TokenKind.turbofish <:+: front.map Token.kind →
          Enclosed false 0 (front.map Token.kind)) := by
  rw [run_capture] at h
  rcases hresult : captureFrom rule (tokens.headD src.eof) [] none tokens with
    error | ⟨last?, after⟩
  · rw [hresult] at h
    cases h
  rw [hresult] at h
  cases last? with
  | none => cases h
  | some last =>
    obtain ⟨rfl, rfl⟩ := Prod.mk.inj (Except.ok.inj h)
    obtain ⟨run, hcuts, hnested, hrest, hlast⟩ := captureFrom_iff.mp ⟨some last, hresult, rfl⟩
    obtain ⟨front, rfl, hhalves, -, hstop⟩ := hcuts.exists_front fun t ht hkind =>
      hgreater (hkind ▸ hrest t ht)
    rw [Option.map_none, Option.or_none, ← hstop] at hlast
    obtain ⟨last', hlast', hstop'⟩ := Option.map_eq_some_iff.mp hlast
    have hne : front ≠ [] := by
      rintro rfl
      cases hlast'
    obtain ⟨first, hfirst⟩ : ∃ first, front.head? = some first :=
      ⟨_, List.head?_eq_some_head hne⟩
    have hhead : (front ++ after).headD src.eof = first := by
      rw [List.headD_eq_head?_getD, List.head?_append, hfirst]
      rfl
    refine ⟨front, rfl, hne, ?_, hhalves.enclosed hnested.enclosed, fun hcomma hangles hpair => ?_⟩
    · rw [Token.textOf_eq hfirst hlast', hstop', hhead]
    · exact hhalves.enclosed (hnested.enclosed_of_stops hcomma hangles
        fun hinfix => hpair (hhalves.turbofish_infix hinfix))

end FieldComposition
