import FieldComposition.Proofs.TokenStream

/-!
# Captured text is properly nested

`Nested` is the grammar of the host text inside an invocation: `(`, `[` and `{` are closed by their
own counterparts, a `<` that opens a list is closed by a `>`, and each bracket is closed before the
one around it. A `>>` in such a list is two closing brackets, so a run of text is made of pieces of
tokens. `capture` reads exactly the runs of the grammar that end before a token that stops it
(`Parser.capture_spec`): its stack of open brackets says how a run goes on (`Unwinds`), and each
step passes one piece of the run (`Passes`).
-/

namespace FieldComposition

/-- A token, or the first one of the two closing brackets of a `>>` that is cut in two. -/
inductive Piece where
  | whole (t : Token)
  | half (t : Token)

namespace Piece

def token : Piece → Token
  | whole t => t
  | half t => t.halves.1

/-- A run of pieces stands at the front of a list of tokens. Behind the first half of a `>>` the
second half is a token of its own. -/
inductive Cuts : List Token → List Piece → List Token → Prop
  | nil (ts : List Token) : Cuts ts [] ts
  | whole {t : Token} {ts rest : List Token} {run : List Piece} (hrest : Cuts ts run rest) :
      Cuts (t :: ts) (.whole t :: run) rest
  | half {t : Token} {ts rest : List Token} {run : List Piece} (hkind : t.kind = .doubleGreater)
      (hrest : Cuts (t.halves.2 :: ts) run rest) : Cuts (t :: ts) (.half t :: run) rest

/-- A piece closes a bracket that the given kind closes. -/
inductive Closes : Piece → TokenKind → Prop
  | whole {t : Token} (hkind : t.kind.isCloser ∨ t.kind = .greater) : Closes (.whole t) t.kind
  | half (t : Token) : Closes (.half t) .greater

end Piece

namespace Token

/-- The token opens a bracket that the given kind closes. A `<` does so everywhere in a type and
elsewhere right behind a `::`. -/
inductive Opens (angles behindPath : Bool) (t : Token) : TokenKind → Prop
  | bracket {closer : TokenKind} (hcloser : t.kind.closer? = some closer) :
      Opens angles behindPath t closer
  | angle (hkind : t.kind = .less) (hangle : angles || behindPath) :
      Opens angles behindPath t .greater

/-- A token that neither opens a bracket nor closes one, where the innermost open bracket is closed
by the kind `around?`. -/
structure IsPlain (angles : Bool) (around? : Option TokenKind) (behindPath : Bool) (t : Token) :
    Prop where
  not_opens : ∀ closer, ¬t.Opens angles behindPath closer
  isCloser_eq : t.kind.isCloser = false
  not_greater : around? = some .greater → t.kind ≠ .greater ∧ t.kind ≠ .doubleGreater

end Token

/-- Host text in which brackets are properly nested. The kind `around?` closes the bracket that it
stands in, if any; outside of all brackets it holds no token that stops the capture. The flag tells
whether the token before it is a `::`. -/
inductive Nested (rule : Parser.CaptureRule) :
    (around? : Option TokenKind) → (behindPath : Bool) → List Piece → Prop
  | nil {around? : Option TokenKind} {behindPath : Bool} : Nested rule around? behindPath []
  | plain {around? : Option TokenKind} {behindPath : Bool} {t : Token} {rest : List Piece}
      (hstop : around? = none → t.kind ∉ rule.stops)
      (hplain : t.IsPlain rule.angles around? behindPath)
      (hrest : Nested rule around? (t.kind == .pathSep) rest) :
      Nested rule around? behindPath (.whole t :: rest)
  | bracket {around? : Option TokenKind} {behindPath : Bool} {t : Token} {closer : TokenKind}
      {body rest : List Piece} {c : Piece} (hstop : around? = none → t.kind ∉ rule.stops)
      (hopens : t.Opens rule.angles behindPath closer)
      (hbody : Nested rule (some closer) (t.kind == .pathSep) body) (hcloses : c.Closes closer)
      (hrest : Nested rule around? (c.token.kind == .pathSep) rest) :
      Nested rule around? behindPath (.whole t :: (body ++ c :: rest))

/-- Host text that closes the open brackets of the given kinds, innermost first. -/
def Unwinds (rule : Parser.CaptureRule) :
    (closers : List TokenKind) → (behindPath : Bool) → List Piece → Prop
  | [], behindPath, run => Nested rule none behindPath run
  | closer :: outer, behindPath, run =>
    ∃ body c rest, run = body ++ c :: rest ∧ Nested rule (some closer) behindPath body ∧
      c.Closes closer ∧ Unwinds rule outer (c.token.kind == .pathSep) rest

/-- Reading one piece changes the open brackets. -/
inductive Passes (rule : Parser.CaptureRule) (closers : List TokenKind) (behindPath : Bool) :
    Piece → List TokenKind → Prop
  | plain {t : Token} (hstop : closers.head? = none → t.kind ∉ rule.stops)
      (hplain : t.IsPlain rule.angles closers.head? behindPath) :
      Passes rule closers behindPath (.whole t) closers
  | opener {t : Token} {closer : TokenKind} (hstop : closers.head? = none → t.kind ∉ rule.stops)
      (hopens : t.Opens rule.angles behindPath closer) :
      Passes rule closers behindPath (.whole t) (closer :: closers)
  | closer {p : Piece} {closer : TokenKind} {outer : List TokenKind}
      (hclosers : closers = closer :: outer) (hcloses : p.Closes closer) :
      Passes rule closers behindPath p outer

variable {rule : Parser.CaptureRule} {closers closers' : List TokenKind} {behindPath : Bool}
  {p : Piece} {run : List Piece} {t : Token} {ts rest : List Token}

/-- The first piece of a run starts where the tokens start. -/
lemma Piece.Cuts.headD_eq (h : Cuts ts (p :: run) rest) (eof : Token) :
    (ts.headD eof).start = p.token.start ∧ (ts.headD eof).position = p.token.position := by
  cases h with
  | whole => exact ⟨rfl, rfl⟩
  | half => exact ⟨rfl, rfl⟩

lemma unwinds_nil_iff : Unwinds rule closers behindPath [] ↔ closers = [] := by
  cases closers with
  | nil => exact iff_of_true .nil rfl
  | cons closer outer =>
    refine iff_of_false ?_ (List.cons_ne_nil _ _)
    rintro ⟨body, c, after, hrun, -⟩
    exact List.append_ne_nil_of_right_ne_nil _ (List.cons_ne_nil _ _) hrun.symm

/-- What follows the first piece of a run closes the brackets that are open behind that piece. -/
lemma Unwinds.exists_passes (h : Unwinds rule closers behindPath (p :: run)) :
    ∃ closers', Passes rule closers behindPath p closers' ∧
      Unwinds rule closers' (p.token.kind == .pathSep) run := by
  cases closers with
  | nil =>
    cases h with
    | plain hstop hplain hrest => exact ⟨[], .plain hstop hplain, hrest⟩
    | bracket hstop hopens hbody hcloses hrest =>
      exact ⟨[_], .opener hstop hopens, _, _, _, rfl, hbody, hcloses, hrest⟩
  | cons closer outer =>
    obtain ⟨body, c, after, hrun, hbody, hcloses, hafter⟩ := h
    cases hbody with
    | nil =>
      obtain ⟨rfl, rfl⟩ := List.cons.inj hrun
      exact ⟨outer, .closer rfl hcloses, hafter⟩
    | plain hstop hplain hrest =>
      obtain ⟨rfl, rfl⟩ := List.cons.inj hrun
      exact ⟨closer :: outer, .plain nofun hplain, _, c, after, rfl, hrest, hcloses, hafter⟩
    | @bracket _ _ _ inner body' rest' c' hstop hopens hinner hcloses' hrest =>
      obtain ⟨rfl, rfl⟩ := List.cons.inj hrun
      refine ⟨inner :: closer :: outer, .opener nofun hopens, body', c', rest' ++ c :: after, ?_,
        hinner, hcloses', rest', c, after, rfl, hrest, hcloses, hafter⟩
      exact List.append_assoc body' (c' :: rest') (c :: after)

/-- A piece can be put before a run that closes the brackets that are open behind the piece. -/
lemma Passes.unwinds (hp : Passes rule closers behindPath p closers')
    (h : Unwinds rule closers' (p.token.kind == .pathSep) run) :
    Unwinds rule closers behindPath (p :: run) := by
  cases hp with
  | plain hstop hplain =>
    cases closers with
    | nil => exact .plain hstop hplain h
    | cons closer outer =>
      obtain ⟨body, c, after, rfl, hbody, hcloses, hafter⟩ := h
      exact ⟨_ :: body, c, after, rfl, .plain nofun hplain hbody, hcloses, hafter⟩
  | opener hstop hopens =>
    obtain ⟨body, c, after, rfl, hbody, hcloses, hafter⟩ := h
    cases closers with
    | nil => exact .bracket hstop hopens hbody hcloses hafter
    | cons closer outer =>
      obtain ⟨body', c', after', rfl, hbody', hcloses', hafter'⟩ := hafter
      refine ⟨_, c', after', ?_, .bracket nofun hopens hbody hcloses hbody', hcloses', hafter'⟩
      rw [List.cons_append, List.append_assoc, List.cons_append]
  | closer hclosers hcloses =>
    subst hclosers
    exact ⟨[], p, run, rfl, .nil, hcloses, h⟩

lemma Piece.Closes.kind_of_whole {closer : TokenKind} (h : (Piece.whole t).Closes closer) :
    t.kind = closer ∧ (t.kind.isCloser ∨ t.kind = .greater) := by
  cases h with
  | whole hkind => exact ⟨rfl, hkind⟩

lemma Piece.Closes.kind_of_half {closer : TokenKind} (h : (Piece.half t).Closes closer) :
    closer = .greater := by
  cases h with
  | half => rfl

lemma Token.Opens.unique {angles : Bool} {closer closer' : TokenKind}
    (h : t.Opens angles behindPath closer) (h' : t.Opens angles behindPath closer') :
    closer = closer' := by
  cases h with
  | bracket hcloser =>
    cases h' with
    | bracket hcloser' => exact Option.some.inj (hcloser.symm.trans hcloser')
    | angle hkind' => simp [hkind', TokenKind.closer?] at hcloser
  | angle hkind =>
    cases h' with
    | bracket hcloser' => simp [hkind, TokenKind.closer?] at hcloser'
    | angle => rfl

/-- A token that opens a bracket closes none. -/
lemma Token.Opens.not_closes {angles : Bool} {closer closer' : TokenKind}
    (h : t.Opens angles behindPath closer) : ¬(Piece.whole t).Closes closer' := by
  intro hcloses
  obtain ⟨-, hkind⟩ := hcloses.kind_of_whole
  cases h with
  | bracket hcloser => cases ht : t.kind <;> simp_all [TokenKind.closer?, TokenKind.isCloser]
  | angle hless => simp [hless, TokenKind.isCloser] at hkind

/-- A plain token does not close the bracket around it. -/
lemma Token.IsPlain.not_closes {angles : Bool} {closer : TokenKind}
    (h : t.IsPlain angles (some closer) behindPath) : ¬(Piece.whole t).Closes closer := by
  intro hcloses
  obtain ⟨rfl, hkind | hkind⟩ := hcloses.kind_of_whole
  · rw [h.isCloser_eq] at hkind
    cases hkind
  · exact (h.not_greater (by rw [hkind])).1 hkind

/-- A piece determines which brackets are open behind it. -/
lemma Passes.unique {closers'' : List TokenKind} (h : Passes rule closers behindPath p closers')
    (h' : Passes rule closers behindPath p closers'') : closers' = closers'' := by
  cases h with
  | plain _ hplain =>
    cases h' with
    | plain => rfl
    | opener _ hopens => exact absurd hopens (hplain.not_opens _)
    | closer hclosers hcloses =>
      subst hclosers
      exact absurd hcloses hplain.not_closes
  | opener _ hopens =>
    cases h' with
    | plain _ hplain => exact absurd hopens (hplain.not_opens _)
    | opener _ hopens' => rw [hopens.unique hopens']
    | closer _ hcloses => exact absurd hcloses hopens.not_closes
  | closer hclosers hcloses =>
    subst hclosers
    cases h' with
    | plain _ hplain => exact absurd hcloses hplain.not_closes
    | opener _ hopens => exact absurd hcloses hopens.not_closes
    | closer hclosers _ => exact (List.cons.inj hclosers).2

/-- A token that stops the capture is not passed outside of all brackets. -/
lemma Passes.not_stops (h : Passes rule [] behindPath p closers') :
    p.token.kind ∉ rule.stops := by
  cases h with
  | plain hstop _ => exact hstop rfl
  | opener hstop _ => exact hstop rfl
  | closer hclosers _ => exact absurd hclosers.symm (List.cons_ne_nil _ _)

/-- The first half of a token is passed where it closes a bracket only. -/
lemma Passes.closers_of_half (h : Passes rule closers behindPath (.half t) closers') :
    closers = .greater :: closers' := by
  generalize hp : Piece.half t = p at h
  cases h with
  | plain | opener => cases hp
  | closer hclosers hcloses =>
    subst hp
    rw [hclosers, hcloses.kind_of_half]

/-- A `>>` that is cut in two cannot be passed as a whole. -/
lemma Passes.not_half {closers'' : List TokenKind} (hkind : t.kind = .doubleGreater)
    (h : Passes rule closers behindPath (.whole t) closers') :
    ¬Passes rule closers behindPath (.half t) closers'' := by
  intro h'
  have hclosers := h'.closers_of_half
  cases h with
  | plain _ hplain => exact (hplain.not_greater (by rw [hclosers, List.head?_cons])).2 hkind
  | opener _ hopens =>
    cases hopens with
    | bracket hcloser => simp [hkind, TokenKind.closer?] at hcloser
    | angle hless => simp [hkind] at hless
  | closer _ hcloses =>
    obtain ⟨-, hcloser⟩ := hcloses.kind_of_whole
    simp [hkind, TokenKind.isCloser] at hcloser

/-- A nested run that closes the open brackets leads from `tokens` to `rest`, where the capture
stops. The token before the run ends at `stop?` and the last token read at `stop?'`. -/
def Reaches (rule : Parser.CaptureRule) (closers : List TokenKind) (behindPath : Bool)
    (stop? : Option Nat) (tokens : List Token) (stop?' : Option Nat) (rest : List Token) : Prop :=
  ∃ run, Piece.Cuts tokens run rest ∧ Unwinds rule closers behindPath run ∧
    (∀ t ∈ rest.head?, t.kind ∈ rule.stops) ∧
    (run.getLast?.map fun p => p.token.stop).or stop? = stop?'

section Runs

variable {stop? stop?' : Option Nat}

lemma reaches_nil_iff :
    Reaches rule closers behindPath stop? [] stop?' rest ↔
      closers = [] ∧ stop? = stop?' ∧ rest = [] := by
  constructor
  · rintro ⟨run, hcuts, hunwinds, -, hstop⟩
    cases hcuts
    exact ⟨unwinds_nil_iff.mp hunwinds, hstop, rfl⟩
  · rintro ⟨rfl, hstop, rfl⟩
    exact ⟨[], .nil [], .nil, by simp, hstop⟩

/-- Where the capture stops it has read everything. -/
lemma reaches_stop_iff (hstop : t.kind ∈ rule.stops) :
    Reaches rule [] behindPath stop? (t :: ts) stop?' rest ↔ stop? = stop?' ∧ rest = t :: ts := by
  constructor
  · rintro ⟨run, hcuts, hunwinds, -, hlast⟩
    cases hcuts with
    | nil => exact ⟨hlast, rfl⟩
    | whole =>
      obtain ⟨closers', hpasses, -⟩ := hunwinds.exists_passes
      exact absurd hstop hpasses.not_stops
    | half =>
      obtain ⟨closers', hpasses, -⟩ := hunwinds.exists_passes
      exact absurd hpasses.closers_of_half.symm (List.cons_ne_nil _ _)
  · rintro ⟨rfl, rfl⟩
    exact ⟨[], .nil _, .nil, by simpa using hstop, rfl⟩

lemma reaches_cons_iff (hstop : closers = [] → t.kind ∉ rule.stops) :
    Reaches rule closers behindPath stop? (t :: ts) stop?' rest ↔
      (∃ closers', Passes rule closers behindPath (.whole t) closers' ∧
        Reaches rule closers' (t.kind == .pathSep) (some t.stop) ts stop?' rest) ∨
      (t.kind = .doubleGreater ∧ ∃ closers', Passes rule closers behindPath (.half t) closers' ∧
        Reaches rule closers' false (some t.halves.1.stop) (t.halves.2 :: ts) stop?' rest) := by
  have hlast (p : Piece) (run : List Piece) :
      ((p :: run).getLast?.map fun p => p.token.stop).or stop? =
        (run.getLast?.map fun p => p.token.stop).or (some p.token.stop) := by
    rw [List.getLast?_cons]
    cases run.getLast? <;> rfl
  constructor
  · rintro ⟨run, hcuts, hunwinds, hrest, hrun⟩
    cases hcuts with
    | nil => exact absurd (hrest t rfl) (hstop (unwinds_nil_iff.mp hunwinds))
    | whole hcuts =>
      obtain ⟨closers', hpasses, hunwinds⟩ := hunwinds.exists_passes
      exact .inl ⟨closers', hpasses, _, hcuts, hunwinds, hrest, (hlast _ _).symm.trans hrun⟩
    | half hkind hcuts =>
      obtain ⟨closers', hpasses, hunwinds⟩ := hunwinds.exists_passes
      exact .inr ⟨hkind, closers', hpasses, _, hcuts, hunwinds, hrest,
        (hlast _ _).symm.trans hrun⟩
  · rintro (⟨closers', hpasses, run, hcuts, hunwinds, hrest, hrun⟩ |
      ⟨hkind, closers', hpasses, run, hcuts, hunwinds, hrest, hrun⟩)
    · exact ⟨_, .whole hcuts, hpasses.unwinds hunwinds, hrest, (hlast _ _).trans hrun⟩
    · exact ⟨_, .half hkind hcuts, hpasses.unwinds hunwinds, hrest, (hlast _ _).trans hrun⟩

/-- A run goes on behind a token that is passed as a whole. -/
lemma Passes.reaches_iff (h : Passes rule closers behindPath (.whole t) closers') :
    Reaches rule closers behindPath stop? (t :: ts) stop?' rest ↔
      Reaches rule closers' (t.kind == .pathSep) (some t.stop) ts stop?' rest := by
  rw [reaches_cons_iff (by rintro rfl; exact h.not_stops)]
  constructor
  · rintro (⟨closers'', h', hreaches⟩ | ⟨hkind, closers'', h', -⟩)
    · rwa [h.unique h']
    · exact absurd h' (h.not_half hkind)
  · exact fun hreaches => .inl ⟨closers', h, hreaches⟩

/-- A run goes on behind the first half of a `>>` in a list. -/
lemma reaches_half_iff {outer : List TokenKind} (hkind : t.kind = .doubleGreater) :
    Reaches rule (.greater :: outer) behindPath stop? (t :: ts) stop?' rest ↔
      Reaches rule outer false (some t.halves.1.stop) (t.halves.2 :: ts) stop?' rest := by
  have h : Passes rule (.greater :: outer) behindPath (.half t) outer := .closer rfl (.half t)
  rw [reaches_cons_iff fun hclosers => absurd hclosers (List.cons_ne_nil _ _)]
  constructor
  · rintro (⟨closers'', h', -⟩ | ⟨-, closers'', h', hreaches⟩)
    · exact absurd h (h'.not_half hkind)
    · rwa [h.unique h']
  · exact fun hreaches => .inr ⟨hkind, outer, h, hreaches⟩

/-- A token that would close another bracket than the innermost one ends no nested run. -/
lemma not_reaches_of_isCloser (hstop : closers = [] → t.kind ∉ rule.stops)
    (hcloser : t.kind.isCloser) (hclosers : closers.head? ≠ some t.kind) :
    ¬Reaches rule closers behindPath stop? (t :: ts) stop?' rest := by
  rw [reaches_cons_iff hstop]
  rintro (⟨closers', hpasses, -⟩ | ⟨hkind, -⟩)
  · cases hpasses with
    | plain _ hplain =>
      rw [hplain.isCloser_eq] at hcloser
      cases hcloser
    | opener _ hopens => exact hopens.not_closes (.whole (.inl hcloser))
    | closer houter hcloses =>
      rw [houter, List.head?_cons, hcloses.kind_of_whole.1] at hclosers
      exact hclosers rfl
  · rw [hkind] at hcloser
    cases hcloser

end Runs

namespace Parser

variable {first : Token} {last? : Option Token} {stop? : Option Nat} {tokens : List Token}

/-- A token is plain where the capture has no other case for it. -/
lemma isPlain_of_kind {around? : Option TokenKind} (hopener : t.kind.closer? = none)
    (hcloser : t.kind.isCloser = false)
    (hless : ¬(t.kind = .less ∧ (rule.angles || behindPath)))
    (hgreater : around? = some .greater → t.kind ≠ .greater ∧ t.kind ≠ .doubleGreater) :
    t.IsPlain rule.angles around? behindPath := by
  refine ⟨fun closer hopens => ?_, hcloser, hgreater⟩
  cases hopens with
  | bracket hkind =>
    rw [hopener] at hkind
    cases hkind
  | angle hkind hangle => exact hless ⟨hkind, hangle⟩

lemma not_mem_stops (h : ¬(closers.isEmpty && rule.stops.contains t.kind) = true) :
    closers.head? = none → t.kind ∉ rule.stops := by
  intro hclosers hstop
  obtain rfl := List.head?_eq_none_iff.mp hclosers
  exact h (List.contains_iff_mem.mpr hstop)

/-- The loop of a capture finds the nested run that closes the open brackets, if there is one, by
induction on the tokens. -/
lemma captureFrom_iff :
    (∃ last?', captureFrom rule first closers last? tokens = .ok (last?', rest) ∧
        last?'.map Token.stop = stop?) ↔
      Reaches rule closers (last?.map Token.kind == some .pathSep) (last?.map Token.stop) tokens
        stop? rest := by
  fun_induction captureFrom rule first closers last? tokens with
  | case1 closers last? hclosers =>
    obtain rfl := List.isEmpty_iff.mp hclosers
    rw [reaches_nil_iff]
    constructor
    · rintro ⟨last?', hresult, hstop⟩
      obtain ⟨rfl, rfl⟩ := Prod.mk.inj (Except.ok.inj hresult)
      exact ⟨rfl, hstop, rfl⟩
    · rintro ⟨-, hstop, rfl⟩
      exact ⟨last?, rfl, hstop⟩
  | case2 closers last? hclosers =>
    rw [reaches_nil_iff]
    refine iff_of_false (by simp) ?_
    rintro ⟨rfl, -⟩
    exact hclosers rfl
  | case3 closers last? t ts hstop =>
    obtain ⟨hclosers, hkind⟩ := Bool.and_eq_true_iff.mp hstop
    obtain rfl := List.isEmpty_iff.mp hclosers
    rw [reaches_stop_iff (List.contains_iff_mem.mp hkind)]
    constructor
    · rintro ⟨last?', hresult, hstop⟩
      obtain ⟨rfl, rfl⟩ := Prod.mk.inj (Except.ok.inj hresult)
      exact ⟨hstop, rfl⟩
    · rintro ⟨hstop, rfl⟩
      exact ⟨last?, rfl, hstop⟩
  | case4 closers last? t ts hstop closer hcloser ih =>
    exact ih.trans (Passes.opener (not_mem_stops hstop) (.bracket hcloser)).reaches_iff.symm
  | case5 last? t ts hcloser _ hstop =>
    refine iff_of_false (by simp) (not_reaches_of_isCloser ?_ hcloser (by simp))
    exact fun _ => not_mem_stops hstop rfl
  | case6 last? t ts hcloser outer _ _ ih =>
    exact ih.trans (Passes.closer rfl (.whole (.inl hcloser))).reaches_iff.symm
  | case7 last? t ts hcloser closer outer hkind _ _ =>
    exact iff_of_false (by simp) (not_reaches_of_isCloser (by simp) hcloser (by simpa using hkind))
  | case8 closers last? t ts hstop _ hless _ ih =>
    obtain ⟨hkind, hangle⟩ := Bool.and_eq_true_iff.mp hless
    have hopens := Token.Opens.angle (of_decide_eq_true hkind) hangle
    exact ih.trans (Passes.opener (not_mem_stops hstop) hopens).reaches_iff.symm
  | case9 last? t ts _ _ outer hkind _ _ ih =>
    have hcloses : (Piece.whole t).Closes .greater := hkind ▸ .whole (.inr hkind)
    exact ih.trans (Passes.closer rfl hcloses).reaches_iff.symm
  | case10 last? t ts _ _ outer hkind _ _ ih =>
    have hpath : (t.kind == .pathSep) = false := by
      rw [hkind]
      rfl
    have hcloses : (Piece.whole t.halves.2).Closes .greater := .whole (.inr rfl)
    change _ ↔ Reaches rule outer (t.kind == .pathSep) (some t.stop) ts stop? rest at ih
    rw [ih, hpath, reaches_half_iff hkind]
    exact (Passes.closer rfl hcloses).reaches_iff.symm
  | case11 last? t ts _ _ outer _ hkind hstop _ _ =>
    obtain ⟨houter, hgreater⟩ := Bool.and_eq_true_iff.mp hstop
    obtain rfl := List.isEmpty_iff.mp houter
    rw [reaches_half_iff hkind, reaches_stop_iff (List.contains_iff_mem.mp hgreater)]
    constructor
    · rintro ⟨last?', hresult, hstop⟩
      obtain ⟨rfl, rfl⟩ := Prod.mk.inj (Except.ok.inj hresult)
      exact ⟨hstop, rfl⟩
    · rintro ⟨hstop, rfl⟩
      exact ⟨some t.halves.1, rfl, hstop⟩
  | case12 last? t ts _ _ outer houter hkind hstop _ _ ih =>
    have hplain : t.halves.2.IsPlain rule.angles outer.head? false := by
      refine isPlain_of_kind rfl rfl (fun hless => TokenKind.noConfusion hless.1) fun hhead => ?_
      obtain ⟨outer', rfl⟩ := List.head?_eq_some_iff.mp hhead
      exact absurd rfl (houter outer')
    have hgreater : outer.head? = none → t.halves.2.kind ∉ rule.stops := not_mem_stops hstop
    rw [reaches_half_iff hkind]
    exact ih.trans (Passes.plain hgreater hplain).reaches_iff.symm
  | case13 closers last? t ts hstop hcloser hless hopener hgreater _ hdouble ih =>
    have hplain : t.IsPlain rule.angles closers.head? (last?.map Token.kind == some .pathSep) := by
      refine isPlain_of_kind (Option.eq_none_iff_forall_ne_some.mpr hopener)
        (eq_false_of_ne_true hcloser) ?_ fun hhead => ?_
      · rintro ⟨hkind, hangle⟩
        exact hless (Bool.and_eq_true_iff.mpr ⟨decide_eq_true hkind, hangle⟩)
      · obtain ⟨outer, rfl⟩ := List.head?_eq_some_iff.mp hhead
        exact ⟨fun hkind => hgreater outer hkind rfl, fun hkind => hdouble outer hkind rfl⟩
    exact ih.trans (Passes.plain (not_mem_stops hstop) hplain).reaches_iff.symm

lemma exists_fault_of_captureFrom {closers : List TokenKind} {error : ReadError}
    (h : captureFrom rule first closers last? tokens = .error error) :
    ∃ fault position, error = .fault fault position := by
  fun_induction captureFrom rule first closers last? tokens with
  | case1 | case3 | case11 => cases h
  | case2 | case5 | case7 => exact ⟨_, _, (Except.error.inj h).symm⟩
  | _ => exact ‹_ → _› h

lemma exists_fault_of_capture {src : Source} {error : ReadError}
    (h : (capture rule).run src tokens = .error error) :
    ∃ fault position, error = .fault fault position := by
  rw [run_capture] at h
  cases hresult : captureFrom rule (tokens.headD src.eof) [] none tokens with
  | error e =>
    rw [hresult] at h
    obtain rfl := Except.error.inj h
    exact exists_fault_of_captureFrom hresult
  | ok result =>
    obtain ⟨last?, rest⟩ := result
    rw [hresult] at h
    cases last? with
    | none => exact ⟨_, _, (Except.error.inj h).symm⟩
    | some last => cases h

/-- A capture succeeds exactly if a nonempty nested run stands at the front of the tokens, up to the
end or to the first token outside of all brackets that stops the capture. It leaves the tokens
behind the run, and its result is the text of the run with the position of its start. Every other
capture ends in a syntax error. -/
theorem capture_spec (rule : CaptureRule) (src : Source) (tokens : List Token) :
    (∀ e rest, (capture rule).run src tokens = .ok (e, rest) ↔
      ∃ run first last, Piece.Cuts tokens run rest ∧ Nested rule none false run ∧
        (∀ t ∈ rest.head?, t.kind ∈ rule.stops) ∧
        run.head? = some first ∧ run.getLast? = some last ∧
        e = ⟨Text.slice src.text first.token.start last.token.stop, first.token.position⟩) ∧
    ∀ error file, (capture rule).run src tokens = .error error →
      (error.locate file src.text).family = "FieldSyntaxError" := by
  refine ⟨fun e rest => ⟨fun hrun => ?_, ?_⟩, fun error file hrun => ?_⟩
  · rw [run_capture] at hrun
    cases hresult : captureFrom rule (tokens.headD src.eof) [] none tokens with
    | error error =>
      rw [hresult] at hrun
      cases hrun
    | ok result =>
      obtain ⟨last?, after⟩ := result
      rw [hresult] at hrun
      cases last? with
      | none => cases hrun
      | some last =>
        obtain ⟨rfl, rfl⟩ := Prod.mk.inj (Except.ok.inj hrun)
        obtain ⟨run, hcuts, hnested, hrest, hlast⟩ := captureFrom_iff.mp ⟨some last, hresult, rfl⟩
        cases run with
        | nil => cases hlast
        | cons p run =>
          have hgetLast := List.getLast?_eq_some_getLast (List.cons_ne_nil p run)
          obtain ⟨hstart, hposition⟩ := hcuts.headD_eq src.eof
          rw [hgetLast] at hlast
          rw [hstart, hposition, ← Option.some.inj hlast]
          exact ⟨p :: run, p, _, hcuts, hnested, hrest, rfl, hgetLast, rfl⟩
  · rintro ⟨run, p, q, hcuts, hnested, hrest, hfirst, hlast, rfl⟩
    obtain ⟨run, rfl⟩ := List.head?_eq_some_iff.mp hfirst
    obtain ⟨hstart, hposition⟩ := hcuts.headD_eq src.eof
    have hreaches : Reaches rule [] false none tokens (some q.token.stop) rest :=
      ⟨p :: run, hcuts, hnested, hrest, by rw [hlast]; rfl⟩
    have hloop : ∃ last?, captureFrom rule (tokens.headD src.eof) [] none tokens =
        .ok (last?, rest) ∧ last?.map Token.stop = some q.token.stop :=
      captureFrom_iff.mpr hreaches
    obtain ⟨last?, hresult, hstop⟩ := hloop
    obtain ⟨last, rfl, hlast⟩ := Option.map_eq_some_iff.mp hstop
    rw [run_capture, hresult, hstart, hposition, ← hlast]
  · obtain ⟨fault, position, rfl⟩ := exists_fault_of_capture hrun
    rfl

end Parser

end FieldComposition
