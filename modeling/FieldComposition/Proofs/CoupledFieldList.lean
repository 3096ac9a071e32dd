import FieldComposition.Proofs.Coupling

/-!
# Field lists on two layouts

Every parser of field lists, run on two layouts of the same tokens, reads in step
(`Parser.Follows.fieldList`): the values are alike and the brackets that are read are closed.
-/

namespace FieldComposition

/-- The same field lists, of which the one on the right may be in braces. -/
structure Coupling.SameLists (C : Coupling) (rule rule' : Parser.ListRule) : Prop where
  close : C.Matches rule.close rule'.close
  close_ne_greater : rule.close ≠ .greater
  allowBase : rule.allowBase → rule'.allowBase
  allowBase_eq : C.tail = [] → rule.allowBase = rule'.allowBase
  allowMut : rule.allowMut = rule'.allowMut
  allowMut_eq : C.tail ≠ [] → rule.allowMut = false

namespace Coupling

variable {C : Coupling}

/-- The kinds of token that end a captured text on the left and on the right. -/
inductive Ends (C : Coupling) : List TokenKind → List TokenKind → Prop
  | whole {stops : List TokenKind} (h : C.tail = []) (hgreater : TokenKind.greater ∉ stops) :
    Ends C stops stops
  | nested {stops : List TokenKind} (hgreater : TokenKind.greater ∉ stops)
    (hbrace : TokenKind.closeBrace ∈ stops) : Ends C stops stops
  | braced (h : C.tail ≠ []) : Ends C [.comma, .eof] [.comma, .closeBrace]

lemma Matches.ends_list {close close' : TokenKind} (h : C.Matches close close')
    (hclose : close ≠ .greater) : C.Ends [.comma, close] [.comma, close'] := by
  cases h with
  | whole h => exact .whole h (by simpa using Ne.symm hclose)
  | nested => exact .nested (by decide) (by decide)
  | braced h => exact .braced h

namespace Ends

variable {stops stops' : List TokenKind} (h : C.Ends stops stops')

include h

lemma greater_notMem : TokenKind.greater ∉ stops ∧ TokenKind.greater ∉ stops' := by
  cases h with
  | whole _ hgreater => exact ⟨hgreater, hgreater⟩
  | nested hgreater => exact ⟨hgreater, hgreater⟩
  | braced => decide

lemma mem_right {kind : TokenKind} (hkind : kind ≠ .eof) (hmem : kind ∈ stops) :
    kind ∈ stops' := by
  cases h with
  | whole => exact hmem
  | nested => exact hmem
  | braced =>
    obtain rfl : kind = .comma := by simpa [hkind] using hmem
    decide

lemma mem_left {kind : TokenKind} (hmem : kind ∈ stops') :
    kind ∈ stops ∨ C.tail ≠ [] ∧ kind = .closeBrace := by
  cases h with
  | whole => exact .inl hmem
  | nested => exact .inl hmem
  | braced h =>
    rcases List.mem_cons.mp hmem with rfl | hmem
    · exact .inl (by decide)
    · exact .inr ⟨h, by simpa using hmem⟩

lemma closeBrace_mem (htail : C.tail ≠ []) : TokenKind.closeBrace ∈ stops' := by
  cases h with
  | whole h => exact absurd h htail
  | nested _ hbrace => exact hbrace
  | braced => decide

end Ends

/-- The tokens that were read last before the index `n`, when reading has started at `k`. -/
def LastRead (C : Coupling) (k n : Nat) (last? last?' : Option Token) : Prop :=
  n = k ∧ last? = none ∧ last?' = none ∨
    ∃ t u, last? = some t ∧ last?' = some u ∧ k < n ∧ n ≤ C.left.body.length ∧
      (t.kind = .pathSep ↔ u.kind = .pathSep) ∧ t.stop = (C.left.tokenAt (n - 1)).stop ∧
      u.stop = (C.right.tokenAt (n - 1)).stop

lemma LastRead.le {k n : Nat} {last? last?' : Option Token} (h : C.LastRead k n last? last?') :
    k ≤ n := by
  rcases h with ⟨rfl, -⟩ | ⟨t, u, -, -, hlt, -⟩ <;> omega

lemma LastRead.pathSep_iff {k n : Nat} {last? last?' : Option Token}
    (h : C.LastRead k n last? last?') : (last?.map Token.kind) == some .pathSep ↔
      (last?'.map Token.kind) == some .pathSep := by
  rcases h with ⟨-, rfl, rfl⟩ | ⟨t, u, rfl, rfl, -, -, hsep, -⟩
  · rfl
  · simpa using hsep

end Coupling

namespace Parser

/-- The brackets that are still open after an angle bracket, or after any other token. -/
def afterAngle : TokenKind → List TokenKind → List TokenKind
  | .greater, .greater :: outer => outer
  | .doubleGreater, .greater :: .greater :: outer => outer
  | .doubleGreater, .greater :: outer => outer
  | _, closers => closers

section captureFrom

variable {rule : CaptureRule} {first t : Token} {closers : List TokenKind} {last? : Option Token}
  {rest : List Token}

lemma captureFrom_stop (h : closers.isEmpty && rule.stops.contains t.kind) :
    captureFrom rule first closers last? (t :: rest) = .ok (last?, t :: rest) := by
  rw [captureFrom.eq_def]
  dsimp only
  rw [if_pos h]

lemma captureFrom_unbalanced (hstop : ¬rule.stops.contains t.kind)
    (hopener : t.kind.closer? = none) (h : t.kind.isCloser) :
    captureFrom rule first [] last? (t :: rest) =
      .error (.fault (.unbalancedIn t.value rule.sought) t.position) := by
  rw [captureFrom.eq_def]
  dsimp only
  rw [if_neg (by simpa using hstop), hopener]
  dsimp only
  rw [if_pos h]

lemma captureFrom_closer {closer : TokenKind} (hopener : t.kind.closer? = none)
    (h : t.kind.isCloser) :
    captureFrom rule first (closer :: closers) last? (t :: rest) =
      if closer = t.kind then captureFrom rule first closers (some t) rest
      else .error (.fault (.mismatchedIn t.value rule.sought) t.position) := by
  rw [captureFrom.eq_def]
  dsimp only
  rw [if_neg (by simp), hopener]
  dsimp only
  rw [if_pos h]

variable (hstop : ¬(closers.isEmpty && rule.stops.contains t.kind))

include hstop

lemma captureFrom_opener {closer : TokenKind} (h : t.kind.closer? = some closer) :
    captureFrom rule first closers last? (t :: rest) =
      captureFrom rule first (closer :: closers) (some t) rest := by
  rw [captureFrom.eq_def]
  dsimp only
  rw [if_neg hstop, h]

variable (hopener : t.kind.closer? = none)

include hopener

variable (hcloser : ¬t.kind.isCloser)

include hcloser

lemma captureFrom_less
    (h : t.kind = .less && (rule.angles || (last?.map Token.kind) == some .pathSep)) :
    captureFrom rule first closers last? (t :: rest) =
      captureFrom rule first (.greater :: closers) (some t) rest := by
  rw [captureFrom.eq_def]
  dsimp only
  rw [if_neg hstop, hopener]
  dsimp only
  rw [if_neg hcloser, if_pos h]

lemma captureFrom_other
    (h : ¬(t.kind = .less && (rule.angles || (last?.map Token.kind) == some .pathSep)))
    (hgreater : TokenKind.greater ∉ rule.stops) :
    ∃ last, last.stop = t.stop ∧ (last.kind = .pathSep ↔ t.kind = .pathSep) ∧
      captureFrom rule first closers last? (t :: rest) =
        captureFrom rule first (afterAngle t.kind closers) (some last) rest := by
  rw [captureFrom.eq_def]
  dsimp only
  rw [if_neg hstop, hopener]
  dsimp only
  rw [if_neg hcloser, if_neg h]
  split
  · rename_i hkind
    rw [hkind]
    exact ⟨t, rfl, by rw [hkind], rfl⟩
  · rename_i hkind
    rw [hkind]
    exact ⟨t, rfl, by rw [hkind], rfl⟩
  · rename_i outer hsecond hkind
    have hafter : afterAngle .doubleGreater (.greater :: outer) = outer := by
      unfold afterAngle
      split <;> simp_all
    rw [if_neg (by simp [hgreater]), hkind, hafter]
    exact ⟨t.halves.2, rfl, by simp [Token.halves], rfl⟩
  · refine ⟨t, rfl, Iff.rfl, ?_⟩
    unfold afterAngle
    split <;> simp_all

end captureFrom

/-- The number of open brackets, of which angle brackets are none. -/
def openCount (closers : List TokenKind) : Nat :=
  closers.countP (· ≠ .greater)

lemma openCount_cons {closer : TokenKind} (h : closer ≠ .greater) (closers : List TokenKind) :
    openCount (closer :: closers) = openCount closers + 1 := by
  simp [openCount, h]

lemma openCount_greater (closers : List TokenKind) :
    openCount (.greater :: closers) = openCount closers := by
  simp [openCount]

lemma openCount_afterAngle (kind : TokenKind) (closers : List TokenKind) :
    openCount (afterAngle kind closers) = openCount closers := by
  unfold afterAngle
  split <;> simp [openCount]

lemma TokenKind.closer?_spec {kind closer : TokenKind} (h : kind.closer? = some closer) :
    kind.isOpener ∧ closer ≠ .greater := by
  cases kind <;> simp_all [TokenKind.closer?, TokenKind.isOpener] <;> simp [← h]

section

variable {C : Coupling} {rule rule' : CaptureRule} {first first' : Token} {k n : Nat}
  {closers : List TokenKind} {last? last?' : Option Token}

/-- Captures agree on the tokens from the index `n` on, where `closers` are open. -/
def AgreeFrom (C : Coupling) (rule rule' : CaptureRule) (first first' : Token) (k n : Nat)
    (closers : List TokenKind) (last? last?' : Option Token) : Prop :=
  C.Agree (fun m l r => C.Closes (openCount closers) n m ∧ C.LastRead k m l r)
    (captureFrom rule first closers last? (C.leftFrom n))
    (captureFrom rule' first' closers last?' (C.rightFrom n))

/-- Captures agree behind the token at the index `n`, whichever brackets it leaves open. -/
def AgreeBehind (C : Coupling) (rule rule' : CaptureRule) (first first' : Token) (k n : Nat) :
    Prop :=
  ∀ (closers : List TokenKind) (t u : Token), (t.kind = .pathSep ↔ u.kind = .pathSep) →
    t.stop = (C.left.tokenAt n).stop → u.stop = (C.right.tokenAt n).stop →
    AgreeFrom C rule rule' first first' k (n + 1) closers (some t) (some u)

lemma AgreeBehind.agree (h : AgreeBehind C rule rule' first first' k n)
    {inner : List TokenKind} {t u : Token} (hsep : t.kind = .pathSep ↔ u.kind = .pathSep)
    (ht : t.stop = (C.left.tokenAt n).stop) (hu : u.stop = (C.right.tokenAt n).stop)
    (hcloses : ∀ m, C.Closes (openCount inner) (n + 1) m → C.Closes (openCount closers) n m) :
    C.Agree (fun m l r => C.Closes (openCount closers) n m ∧ C.LastRead k m l r)
      (captureFrom rule first inner (some t) (C.leftFrom (n + 1)))
      (captureFrom rule' first' inner (some u) (C.rightFrom (n + 1))) :=
  Coupling.Agree.mono (h inner t u hsep ht hu) fun m _ _ hm => ⟨hcloses m hm.1, hm.2⟩

/-- Behind the last token on the left, the brace on the right stops the capture. -/
lemma agreeFrom_end (hends : C.Ends rule.stops rule'.stops)
    (hfirst : C.tail = [] → C.left.SamePlace C.right first.position first'.position)
    (hlast : C.LastRead k n last? last?') (hle : C.left.body.length ≤ n) :
    AgreeFrom C rule rule' first first' k n closers last? last?' := by
  have hleft := Coupling.leftFrom_of_le hle
  have hright := Coupling.rightFrom_of_le hle
  rw [AgreeFrom, hleft, hright]
  cases closers with
  | cons closer outer =>
    intro htail
    rw [htail]
    exact ⟨_, rfl, hfirst htail⟩
  | nil =>
    have hstop : captureFrom rule' first' [] last?' C.tail = .ok (last?', C.tail) := by
      cases htail : C.tail with
      | nil => rfl
      | cons t ts =>
        have hbrace := C.closeBrace_of_tail t (by simp [htail])
        have hmem := hends.closeBrace_mem (by simp [htail])
        rw [captureFrom_stop (by simpa [hbrace] using hmem)]
    rw [hstop]
    exact ⟨n, hleft.symm, hright.symm, .refl, hlast⟩

section

variable (hn : n < C.left.body.length)
  (hkind : (C.left.tokenAt n).kind = (C.right.tokenAt n).kind)

include hn hkind

/-- A token at which the capture may stop, on the right at least. -/
lemma agreeFrom_stop (hends : C.Ends rule.stops rule'.stops) (hlast : C.LastRead k n last? last?')
    (hstop : closers.isEmpty && rule.stops.contains (C.left.tokenAt n).kind ∨
      closers.isEmpty && rule'.stops.contains (C.right.tokenAt n).kind) :
    AgreeFrom C rule rule' first first' k n closers last? last?' := by
  simp only [Bool.and_eq_true, List.isEmpty_iff, List.contains_iff_mem] at hstop
  obtain rfl : closers = [] := hstop.elim And.left And.left
  rw [AgreeFrom, Coupling.leftFrom_eq_cons hn, Coupling.rightFrom_eq_cons hn]
  by_cases hleft : (C.left.tokenAt n).kind ∈ rule.stops
  · have hright : (C.right.tokenAt n).kind ∈ rule'.stops := by
      rw [← hkind]
      exact hends.mem_right (Coupling.kind_ne_eof_of_lt hn) hleft
    rw [captureFrom_stop (by simpa using hleft), captureFrom_stop (by simpa using hright)]
    exact ⟨n, (Coupling.leftFrom_eq_cons hn).symm, (Coupling.rightFrom_eq_cons hn).symm, .refl,
      hlast⟩
  · -- A closing brace that stops nothing on the left closes nothing there either.
    have hright := (hstop.resolve_left fun h => hleft h.2).2
    rw [← hkind] at hright
    obtain ⟨htail, hbrace⟩ := (hends.mem_left hright).resolve_left hleft
    rw [captureFrom_unbalanced (by simpa using hleft) (by rw [hbrace]; rfl) (by rw [hbrace]; rfl)]
    exact Coupling.Agree.of_error htail

variable (hbehind : AgreeBehind C rule rule' first first' k n)
  (hstop : ¬(closers.isEmpty && rule.stops.contains (C.left.tokenAt n).kind))
  (hstop' : ¬(closers.isEmpty && rule'.stops.contains (C.right.tokenAt n).kind))

include hbehind hstop hstop'

lemma agreeFrom_opener {closer : TokenKind}
    (hopener : (C.left.tokenAt n).kind.closer? = some closer) :
    AgreeFrom C rule rule' first first' k n closers last? last?' := by
  obtain ⟨hisOpener, hcloser⟩ := TokenKind.closer?_spec hopener
  rw [AgreeFrom, Coupling.leftFrom_eq_cons hn, Coupling.rightFrom_eq_cons hn,
    captureFrom_opener hstop hopener, captureFrom_opener hstop' (hkind ▸ hopener)]
  refine hbehind.agree (by rw [hkind]) rfl rfl fun m h => ?_
  rw [openCount_cons hcloser] at h
  exact h.opener hn hisOpener

variable (hopener : (C.left.tokenAt n).kind.closer? = none)

include hopener

lemma agreeFrom_closer (hcloser : (C.left.tokenAt n).kind.isCloser) :
    AgreeFrom C rule rule' first first' k n closers last? last?' := by
  have hopener' : (C.right.tokenAt n).kind.closer? = none := hkind ▸ hopener
  have hcloser' : (C.right.tokenAt n).kind.isCloser := hkind ▸ hcloser
  have hplace : C.tail = [] → C.left.SamePlace C.right (C.left.tokenAt n).position
      (C.right.tokenAt n).position := fun _ => ⟨n, rfl, rfl⟩
  rw [AgreeFrom, Coupling.leftFrom_eq_cons hn, Coupling.rightFrom_eq_cons hn]
  cases closers with
  | nil =>
    rw [captureFrom_unbalanced (by simpa using hstop) hopener hcloser,
      captureFrom_unbalanced (by simpa using hstop') hopener' hcloser']
    exact Coupling.Agree.fault hplace
  | cons closer outer =>
    rw [captureFrom_closer hopener hcloser, captureFrom_closer hopener' hcloser', ← hkind]
    by_cases hclose : closer = (C.left.tokenAt n).kind
    · rw [if_pos hclose, if_pos hclose]
      refine hbehind.agree (by rw [hkind]) rfl rfl fun m h => ?_
      have hgreater : closer ≠ .greater := by
        rintro rfl
        rw [← hclose] at hcloser
        exact absurd hcloser (by decide)
      have hisOpener : (C.left.tokenAt n).kind.isOpener = false := by
        rw [TokenKind.isOpener, hopener]
        rfl
      rw [openCount_cons hgreater]
      exact h.closer hn hisOpener hcloser
    · rw [if_neg hclose, if_neg hclose]
      exact Coupling.Agree.fault hplace

/-- Angle brackets do not count as open, so they need no other treatment than plain tokens. -/
lemma agreeFrom_plain (hangles : rule.angles = rule'.angles)
    (hends : C.Ends rule.stops rule'.stops) (hlast : C.LastRead k n last? last?')
    (hcloser : ¬(C.left.tokenAt n).kind.isCloser) :
    AgreeFrom C rule rule' first first' k n closers last? last?' := by
  have hopener' : (C.right.tokenAt n).kind.closer? = none := hkind ▸ hopener
  have hcloser' : ¬(C.right.tokenAt n).kind.isCloser := hkind ▸ hcloser
  have hisOpener : (C.left.tokenAt n).kind.isOpener = false := by
    rw [TokenKind.isOpener, hopener]
    rfl
  have hplain {depth m : Nat} (h : C.Closes depth (n + 1) m) : C.Closes depth n m :=
    h.plain hn hisOpener (by simpa using hcloser)
  have hless : ((C.left.tokenAt n).kind = .less &&
        (rule.angles || (last?.map Token.kind) == some .pathSep)) ↔
      ((C.right.tokenAt n).kind = .less &&
        (rule'.angles || (last?'.map Token.kind) == some .pathSep)) := by
    simp only [Bool.and_eq_true, Bool.or_eq_true]
    rw [← hkind, ← hangles, hlast.pathSep_iff]
  rw [AgreeFrom, Coupling.leftFrom_eq_cons hn, Coupling.rightFrom_eq_cons hn]
  by_cases hopens : (C.left.tokenAt n).kind = .less &&
    (rule.angles || (last?.map Token.kind) == some .pathSep)
  · rw [captureFrom_less hstop hopener hcloser hopens,
      captureFrom_less hstop' hopener' hcloser' (hless.mp hopens)]
    refine hbehind.agree (by rw [hkind]) rfl rfl fun m h => hplain ?_
    rwa [openCount_greater] at h
  · obtain ⟨hgreater, hgreater'⟩ := hends.greater_notMem
    obtain ⟨t, ht, htsep, hleft⟩ := captureFrom_other hstop hopener hcloser hopens hgreater
    obtain ⟨u, hu, husep, hright⟩ :=
      captureFrom_other hstop' hopener' hcloser' (mt hless.mpr hopens) hgreater'
    rw [hleft, hright, ← hkind]
    refine hbehind.agree ?_ ht hu fun m h => hplain ?_
    · rw [htsep, husep, hkind]
    · rwa [openCount_afterAngle] at h

end

/-- Texts are captured in step, by induction on the tokens that are left. -/
lemma agree_captureFrom (hangles : rule.angles = rule'.angles)
    (hends : C.Ends rule.stops rule'.stops)
    (hfirst : C.tail = [] → C.left.SamePlace C.right first.position first'.position)
    (hlast : C.LastRead k n last? last?') :
    AgreeFrom C rule rule' first first' k n closers last? last?' := by
  induction hlength : C.left.body.length - n using Nat.strong_induction_on
    generalizing n closers last? last?' with
  | _ d ih =>
    by_cases hn : n < C.left.body.length
    case neg => exact agreeFrom_end hends hfirst hlast (Nat.le_of_not_lt hn)
    have hkind := Coupling.kind_eq hn
    rw [Coupling.rightAt_of_lt hn] at hkind
    have hbehind : AgreeBehind C rule rule' first first' k n := by
      intro inner t u hsep ht hu
      have hnext : C.LastRead k (n + 1) (some t) (some u) :=
        .inr ⟨t, u, rfl, rfl, Nat.lt_succ_of_le hlast.le, hn, hsep, ht, hu⟩
      exact ih (C.left.body.length - (n + 1)) (by omega) hnext rfl
    by_cases hstop : closers.isEmpty && rule.stops.contains (C.left.tokenAt n).kind
    · exact agreeFrom_stop hn hkind hends hlast (.inl hstop)
    by_cases hstop' : closers.isEmpty && rule'.stops.contains (C.right.tokenAt n).kind
    · exact agreeFrom_stop hn hkind hends hlast (.inr hstop')
    cases hopener : (C.left.tokenAt n).kind.closer? with
    | some closer => exact agreeFrom_opener hn hkind hbehind hstop hstop' hopener
    | none =>
      by_cases hcloser : (C.left.tokenAt n).kind.isCloser
      · exact agreeFrom_closer hn hkind hbehind hstop hstop' hopener hcloser
      · exact agreeFrom_plain hn hkind hbehind hstop hstop' hopener hangles hends hlast hcloser

end

namespace Follows

variable {C : Coupling} {n : Nat}

/-- Captured texts run over the same tokens. -/
lemma capture {rule rule' : CaptureRule} (hangles : rule.angles = rule'.angles)
    (hends : C.Ends rule.stops rule'.stops) :
    Reads C n (capture rule) (capture rule') (Expression.Alike C.left C.right) := by
  have hfirst : C.tail = [] → C.left.SamePlace C.right (C.left.tokenAt n).position
      (C.rightAt n).position := Coupling.samePlace_of_tail
  have hlast : C.LastRead n n none none := .inl ⟨rfl, rfl, rfl⟩
  have hcapture : AgreeFrom C rule rule' ((C.leftFrom n).headD C.left.eof)
      ((C.rightFrom n).headD C.right.eof) n n [] none none :=
    agree_captureFrom hangles hends hfirst hlast
  rw [Reads, Follows, run_capture, run_capture]
  rcases Coupling.Agree.cases hcapture with
    ⟨e, hleft, herror⟩ | ⟨m, l, r, hleft, hright, hpasses, hlast⟩
  · rw [hleft]
    intro htail
    obtain ⟨e', hright, hsame⟩ := herror htail
    rw [hright]
    exact ⟨e', rfl, hsame⟩
  rw [hleft, hright]
  rcases hlast with ⟨-, rfl, rfl⟩ | ⟨t, u, rfl, rfl, hnm, hm, -, ht, hu⟩
  · exact Coupling.Agree.fault hfirst
  · have hn : n < C.left.body.length := by omega
    refine ⟨m, rfl, rfl, hpasses, n, m - 1, by omega, by omega, ?_, ?_⟩
    · rw [ht]
      rfl
    · change (⟨Text.slice C.right.text (C.rightAt n).start u.stop, (C.rightAt n).position⟩ :
        Expression) = _
      rw [hu, Coupling.rightAt_of_lt hn]
      rfl

/-- Paths run over the same tokens. -/
lemma customPath (hbracket : (C.left.tokenAt n).kind = .openBracket) :
    Reads C n customPath customPath (C.left.SameText C.right) := by
  have hn := Coupling.lt_length (by rw [hbracket]; decide)
  refine bind (advance hn) ?_
  rintro _ _ _ ⟨rfl, rfl, rfl⟩
  refine current_bind (ite (Coupling.kind_iff (by decide) (by decide))
    (fun _ => failAt_bind Coupling.samePlace_of_tail) fun _ => ?_)
  refine bind (accept? (by decide) rfl rfl) ?_
  rintro k _ _ ⟨hk, -⟩
  refine bind (expect (Coupling.kind_iff (by decide) (by decide)) (by decide)) ?_
  rintro _ _ _ ⟨rfl, rfl, rfl, hident⟩
  have hlt : k < C.left.body.length := Coupling.lt_length (by rw [hident]; decide)
  have hname : C.Passes k (k + 1) := .step hlt (by rw [hident]; rfl) (by rw [hident]; rfl)
  have hle := hk.1
  refine bind (pathSegments (Nat.le_succ_of_le hle)
    ⟨k, hle, hlt, rfl, Coupling.rightAt_of_lt hlt⟩) ?_
  rintro m _ _ ⟨hm, j, hj, hjlt, rfl, rfl⟩
  refine current_bind (ite (Coupling.kind_iff (by decide) (by decide)) (fun hclose => ?_)
    fun _ => failAt_bind Coupling.samePlace_of_tail)
  have hmlt := Coupling.lt_length (by rw [hclose]; decide)
  refine bind (skip_one hmlt) ?_
  rintro _ _ _ rfl
  have hend : C.Closes 1 m (m + 1) :=
    Coupling.Closes.refl.closer hmlt (by rw [hclose]; rfl) (by rw [hclose]; rfl)
  have hpath : C.Passes n (m + 1) :=
    (hk.trans (hname.trans (hm.trans hend))).opener hn (by rw [hbracket]; rfl)
  have hfirst : n + 1 < C.left.body.length := by omega
  refine ⟨m + 1, rfl, rfl, hpath, n + 1, j, hj, hjlt, rfl, ?_⟩
  rw [Coupling.rightAt_of_lt hfirst]
  rfl

lemma skip_plain {kind : TokenKind} (hkind : (C.left.tokenAt n).kind = kind) (heof : kind ≠ .eof)
    (hopener : kind.isOpener = false) (hcloser : kind.isCloser = false) :
    Reads C n (skip 1) (skip 1) fun _ _ => True := by
  have hn := Coupling.lt_length (by rwa [hkind])
  refine (skip_one hn).mono ?_
  rintro _ - - rfl
  exact ⟨.step hn (by rwa [hkind]) (by rwa [hkind]), trivial⟩

lemma modifier : Reads C n modifier modifier (Modifier.Alike C.left C.right) := by
  have hplain (m : Modifier) (hm : m.path? = none) : m.Alike C.left C.right m :=
    ⟨rfl, by rw [hm]; exact .none⟩
  refine current_bind ?_
  by_cases hn : n < C.left.body.length
  case neg =>
    have hleft := Coupling.kind_of_le (Nat.le_of_not_lt hn)
    rcases C.kind_cases n with hright | ⟨-, -, hright⟩
    all_goals
      first | rw [hleft, ← hright, hleft] | rw [hleft, hright]
      exact pure ⟨.refl, hplain .direct rfl⟩
  rw [← Coupling.kind_eq hn]
  split
  case h_1 hkind | h_2 hkind =>
    refine bind (skip_plain hkind (by decide) rfl rfl) fun k _ _ hk => ?_
    refine bind (accepts (by decide) rfl rfl) ?_
    rintro m b _ ⟨hm, rfl⟩
    refine pure ⟨hk.1.trans hm, hplain _ ?_⟩
    cases b <;> rfl
  case h_3 hkind =>
    exact bind (skip_plain hkind (by decide) rfl rfl) fun k _ _ hk =>
      pure ⟨hk.1, hplain .into rfl⟩
  case h_4 hkind =>
    refine bind (customPath hkind) ?_
    rintro k path path' ⟨hk, hpath⟩
    refine bind (accepts (by decide) rfl rfl) ?_
    rintro m b _ ⟨hm, rfl⟩
    refine ite Iff.rfl (fun _ => ?_) fun _ => pure ⟨hk.trans hm, rfl, .some hpath⟩
    refine bind (accepts (by decide) rfl rfl) ?_
    rintro m' b _ ⟨hm', rfl⟩
    refine pure ⟨hk.trans (hm.trans hm'), ?_⟩
    cases b <;> exact ⟨rfl, .some hpath⟩
  case h_5 =>
    exact ite Iff.rfl (fun _ => failAt Coupling.samePlace_of_tail) fun _ =>
      pure ⟨.refl, hplain .direct rfl⟩

/-- A name is the next token. -/
lemma nameAfter {m m' : Modifier} :
    Reads C n (nameAfter m) (nameAfter m') fun t u =>
      n < C.left.body.length ∧ t = C.left.tokenAt n ∧ u = C.rightAt n := by
  refine current_bind (bind isName ?_)
  rintro _ b _ ⟨rfl, rfl, hname⟩
  refine ite Iff.rfl (fun hb => ?_) fun _ => ?_
  · refine (advance (hname hb).1).mono ?_
    rintro _ _ _ ⟨rfl, rfl, rfl⟩
    exact ⟨(hname hb).2, (hname hb).1, rfl, rfl⟩
  · split <;> split <;> exact failAt Coupling.samePlace_of_tail

/-- A leading `mut` is a mark or a name on both sides. Only before a closing brace that ends no list
it is a mark on the left and a name on the right. -/
lemma mutMark {stops stops' : List TokenKind} (hends : C.Ends stops stops')
    (hname : C.tail ≠ [] → (C.left.tokenAt n).kind = .wordMut →
      (C.left.tokenAt (n + 1)).kind = .closeBrace → TokenKind.closeBrace ∈ stops) :
    Reads C n (mutMark stops) (mutMark stops') fun t? u? =>
      t? = none ∧ u? = none ∨ t? = some (C.left.tokenAt n) ∧ u? = some (C.rightAt n) := by
  refine current_bind (following_bind fun next next' hnext => bind isName ?_)
  rintro _ b _ ⟨rfl, rfl, hb⟩
  refine ite ?_ (fun _ => pure ⟨.refl, .inl ⟨rfl, rfl⟩⟩) fun _ => accept? (by decide) rfl rfl
  simp only [Bool.and_eq_true, decide_eq_true_eq, List.contains_iff_mem, List.mem_cons]
  rw [← Coupling.kind_iff (by decide) (by decide)]
  refine and_congr_right fun ⟨hmut, hb'⟩ => ?_
  obtain ⟨rfl, rfl⟩ := hnext (hb hb').1
  rcases C.kind_cases (n + 1) with hkind | ⟨htail, hleft, hright⟩
  · rw [← hkind]
    refine or_congr_right (or_congr_right' fun heof => ⟨hends.mem_right heof, fun hmem => ?_⟩)
    rcases hends.mem_left hmem with hmem | ⟨htail, hbrace⟩
    · exact hmem
    · rw [hbrace]
      exact hname htail hmut hbrace
  · rw [hleft, hright]
    simp [hends.closeBrace_mem htail]

lemma run_entry_of_mut {stops : List TokenKind} {inGroup : Bool} {src : Source} {t u : Token}
    {rest : List Token} (ht : t.kind = .wordMut) (hu : u.kind = .closeBrace)
    (hstops : TokenKind.closeBrace ∉ stops) :
    (entry stops inGroup false).run src (t :: u :: rest) =
      .error (.fault .mutOutsideRebinding t.position) := by
  simp [Parser.entry, Parser.mutMark, Parser.accept?, ht, hu, hstops]

/-- The name of a source field is the next token. -/
lemma sourceField : Reads C n (sourceField [.comma, .closeBrace])
    (sourceField [.comma, .closeBrace]) fun t u =>
      n < C.left.body.length ∧ t = C.left.tokenAt n ∧ u = C.rightAt n := by
  refine current_bind (following_bind fun next next' hnext => bind isName ?_)
  rintro _ b _ ⟨rfl, rfl, hname⟩
  have hread (hb : b = true) : Reads C n Parser.advance Parser.advance fun t u =>
      n < C.left.body.length ∧ t = C.left.tokenAt n ∧ u = C.rightAt n := by
    refine (advance (hname hb).1).mono ?_
    rintro _ _ _ ⟨rfl, rfl, rfl⟩
    exact ⟨(hname hb).2, (hname hb).1, rfl, rfl⟩
  by_cases htail : C.tail = []
  · refine ite ?_ (fun h => hread (Bool.and_eq_true_iff.mp h).1) fun _ =>
      failAt Coupling.samePlace_of_tail
    simp only [Bool.and_eq_true]
    refine and_congr_right fun hb => ?_
    obtain ⟨rfl, rfl⟩ := hnext (hname hb).1
    rw [Coupling.kind_eq_of_tail htail]
  by_cases hleft : b && [TokenKind.comma, .closeBrace].contains next.kind
  · obtain ⟨hb, hstop⟩ := Bool.and_eq_true_iff.mp hleft
    obtain ⟨rfl, rfl⟩ := hnext (hname hb).1
    have hkind := Coupling.kind_eq (Coupling.lt_length (C := C) (n := n + 1) fun heof => by
      rw [heof] at hstop
      exact absurd hstop (by decide))
    rw [if_pos hleft, if_pos (by rwa [← hkind])]
    exact hread hb
  · rw [if_neg hleft]
    exact Coupling.Agree.of_error htail

lemma entry {stops stops' : List TokenKind} {inGroup allowMut : Bool} (hends : C.Ends stops stops')
    (hgroup : inGroup → stops = [.comma, .closeBrace] ∧ stops' = [.comma, .closeBrace])
    (hallow : C.tail ≠ [] → allowMut = false) :
    Reads C n (entry stops inGroup allowMut) (entry stops' inGroup allowMut)
      (Entry.Alike C.left C.right) := by
  by_cases hname : C.tail ≠ [] → (C.left.tokenAt n).kind = .wordMut →
    (C.left.tokenAt (n + 1)).kind = .closeBrace → TokenKind.closeBrace ∈ stops
  case neg =>
    -- On the left the `mut` is a mark, which such a list refuses.
    simp only [Classical.not_imp] at hname
    obtain ⟨htail, hmut, hbrace, hstops⟩ := hname
    have hn := Coupling.lt_length (by rw [hmut]; decide)
    have hnext := Coupling.lt_length (by rw [hbrace]; decide)
    rw [hallow htail]
    unfold Reads Follows
    rw [Coupling.leftFrom_eq_cons hn, Coupling.leftFrom_eq_cons hnext,
      run_entry_of_mut hmut hbrace hstops]
    exact Coupling.Agree.of_error htail
  refine current_bind (bind (mutMark hends hname) ?_)
  rintro i mark mark' ⟨hi, hmark⟩
  rcases hmark with ⟨rfl, rfl⟩ | ⟨rfl, rfl⟩
  case' inr => refine ite Iff.rfl (fun _ => ?_) fun _ => failAt_bind Coupling.samePlace_of_tail
  all_goals
    refine bind modifier ?_
    rintro j m m' ⟨hj, hm⟩
    refine bind nameAfter ?_
    rintro k _ _ ⟨hk, hlt, rfl, rfl⟩
    have hn : n < C.left.body.length := by
      have hle := hi.1
      have hle' := hj.1
      omega
    refine bind (accepts (by decide) rfl rfl) ?_
    rintro l b _ ⟨hl, rfl⟩
    have hpasses := hi.trans (hj.trans (hk.trans hl))
    have hvalue := Coupling.value_eq hlt
    have hplace := Coupling.sameToken hn
    refine ite Iff.rfl (fun _ => ite Iff.rfl (fun hin => ?_) fun _ => ?_) fun _ =>
      pure ⟨hpasses, hvalue, hm, rfl, .none, rfl, hplace⟩
    · obtain ⟨rfl, rfl⟩ := hgroup hin
      refine bind sourceField ?_
      rintro m _ _ ⟨hsource, hlt', rfl, rfl⟩
      exact pure ⟨hpasses.trans hsource, Coupling.value_eq hlt', hm, congrArg some hvalue, .none,
        rfl, hplace⟩
    · refine bind (capture rfl hends) ?_
      rintro m value value' ⟨hcapture, halike⟩
      exact pure ⟨hpasses.trans hcapture, hvalue, hm, rfl, .some halike, rfl, hplace⟩

lemma groupEntry {openBrace openBrace' : Token}
    (hopen : C.tail = [] → C.left.SamePlace C.right openBrace.position openBrace'.position)
    {allowMut : Bool} (hallow : C.tail ≠ [] → allowMut = false) {entries entries' : List Entry}
    (hentries : List.Forall₂ (Entry.Alike C.left C.right) entries entries') :
    Reads C n (groupEntry openBrace allowMut entries) (groupEntry openBrace' allowMut entries')
      (List.Forall₂ (Entry.Alike C.left C.right)) := by
  refine current_bind (ite_end (fun htail => failAt_bind fun _ => hopen htail)
    (fun _ => ⟨_, rfl⟩) fun heof => ?_)
  refine ite (Coupling.kind_iff (by decide) (by decide))
    (fun _ => failAt_bind Coupling.samePlace_of_tail) fun _ => ?_
  refine bind (entry (.nested (by decide) (by decide)) (fun _ => ⟨rfl, rfl⟩) hallow) ?_
  rintro m e e' ⟨hm, he⟩
  refine current_bind (ite_end (fun htail => failAt_bind fun _ => hopen htail)
    (fun _ => ⟨_, rfl⟩) fun heof => ?_)
  exact pure ⟨hm, forall₂_snoc hentries he⟩

lemma groupEntries {openBrace openBrace' : Token}
    (hopen : C.tail = [] → C.left.SamePlace C.right openBrace.position openBrace'.position)
    {allowMut : Bool} (hallow : C.tail ≠ [] → allowMut = false) :
    Follows C n
      (Parser.separated .closeBrace (fun _ => false) .fieldSeparator
        (Parser.groupEntry openBrace allowMut) [])
      (Parser.separated .closeBrace (fun _ => false) .fieldSeparator
        (Parser.groupEntry openBrace' allowMut) [])
      fun m entries entries' =>
        (C.Passes n m ∧ List.Forall₂ (Entry.Alike C.left C.right) entries entries') ∧
          (C.left.tokenAt m).kind = .closeBrace := by
  refine (separated .nested ⟨rfl, rfl⟩ (fun n s s' h => groupEntry hopen hallow h) ?_ .nil).mono ?_
  · intro htail n entries hclose hkind
    have heof : ((C.leftFrom n).headD C.left.eof).kind = .eof := hkind.resolve_right hclose
    refine ⟨.fault .groupNotClosed openBrace.position, ?_⟩
    rw [Parser.groupEntry, run_bind, run_current]
    dsimp only
    rw [if_pos heof]
    rfl
  · rintro m entries entries' ⟨hread, hkind⟩
    exact ⟨hread, by simpa using hkind⟩

lemma group {rule rule' : ListRule} (hrules : C.SameLists rule rule')
    (hbrace : (C.left.tokenAt n).kind = .openBrace) :
    Reads C n (group rule) (group rule') (Group.Alike C.left C.right) := by
  have hn := Coupling.lt_length (by rw [hbrace]; decide)
  refine bind (advance hn) ?_
  rintro _ _ _ ⟨rfl, rfl, rfl⟩
  rw [← hrules.allowMut]
  refine bind (groupEntries Coupling.samePlace_of_tail hrules.allowMut_eq) ?_
  rintro k entries entries' ⟨⟨hk, hentries⟩, hclose⟩
  have hlt := Coupling.lt_length (by rw [hclose]; decide)
  refine bind (skip_one hlt) ?_
  rintro _ _ _ rfl
  have hbraces : C.Passes n (k + 1) := by
    have hend : C.Closes 1 k (k + 1) :=
      Coupling.Closes.refl.closer hlt (by rw [hclose]; rfl) (by rw [hclose]; rfl)
    exact (hk.trans hend).opener hn (by rw [hbrace]; rfl)
  refine ite (by rw [isEmpty_eq_of_forall₂ hentries])
    (fun _ => failAt_bind Coupling.samePlace_of_tail) fun _ => ?_
  refine current_bind (ite (Coupling.kind_iff (by decide) (by decide)) (fun hin => ?_) fun _ =>
    failAt_bind Coupling.samePlace_of_tail)
  refine bind (skip_plain hin (by decide) rfl rfl) fun l _ _ hl => ?_
  refine bind (capture rfl (hrules.close.ends_list hrules.close_ne_greater)) ?_
  rintro m source source' ⟨hm, hsource⟩
  exact pure ⟨hbraces.trans (hl.1.trans hm), hentries, hsource, Coupling.sameToken hn⟩

lemma item {rule rule' : ListRule} (hrules : C.SameLists rule rule') {items items' : List Item}
    (hitems : List.Forall₂ (Item.Alike C.left C.right) items items') :
    Reads C n (item rule items) (item rule' items')
      (List.Forall₂ (Item.Alike C.left C.right)) := by
  refine current_bind (ite_end (fun htail => failAt Coupling.samePlace_of_tail) (fun _ => ⟨_, rfl⟩)
    fun heof => ?_)
  have hn := Coupling.lt_length heof
  rw [← Coupling.kind_eq hn]
  refine ite Iff.rfl (fun hbrace => ?_) fun _ => ite Iff.rfl
    (fun _ => failAt Coupling.samePlace_of_tail) fun _ => ?_
  · refine bind (group hrules hbrace) ?_
    rintro m g g' ⟨hm, hg⟩
    exact pure ⟨hm, forall₂_snoc hitems hg⟩
  · rw [← hrules.allowMut]
    refine bind (entry (hrules.close.ends_list hrules.close_ne_greater) (by simp)
      hrules.allowMut_eq) ?_
    rintro m e e' ⟨hm, he⟩
    exact pure ⟨hm, forall₂_snoc hitems he⟩

/-- An item cannot start where the field list on the left should end. -/
lemma exists_error_of_item {rule : ListRule} {items : List Item}
    (hkind : (C.left.tokenAt n).kind = .eof ∨ (C.left.tokenAt n).kind = .closeBrace) :
    ∃ e, (Parser.item rule items).run C.left.toSource (C.leftFrom n) = .error e := by
  change ((C.leftFrom n).headD C.left.eof).kind = .eof ∨
    ((C.leftFrom n).headD C.left.eof).kind = .closeBrace at hkind
  rw [Parser.item, run_bind, run_current]
  dsimp only
  by_cases heof : ((C.leftFrom n).headD C.left.eof).kind = .eof
  · rw [if_pos heof]
    exact ⟨_, rfl⟩
  · have hbrace := hkind.resolve_left heof
    rw [if_neg heof, if_neg (by rw [hbrace]; decide), if_pos (by rw [hbrace]; rfl)]
    exact ⟨_, rfl⟩

lemma base {rule rule' : ListRule} (hrules : C.SameLists rule rule') :
    Reads C n (base rule) (base rule') (Option.Rel (Expression.Alike C.left C.right)) := by
  refine current_bind (ite (Coupling.kind_iff (by decide) (by decide)) (fun hkind => ?_) fun _ =>
    pure ⟨.refl, .none⟩)
  by_cases hbase : rule.allowBase
  case neg =>
    by_cases htail : C.tail = []
    · rw [if_neg hbase, if_neg (by rwa [← hrules.allowBase_eq htail])]
      exact failAt_bind Coupling.samePlace_of_tail
    · rw [if_neg hbase]
      exact Coupling.Agree.of_error htail
  rw [if_pos hbase, if_pos (hrules.allowBase hbase)]
  refine bind (skip_plain hkind (by decide) rfl rfl) fun k _ _ hk => ?_
  refine bind (capture rfl (hrules.close.ends_list hrules.close_ne_greater)) ?_
  rintro m e e' ⟨hm, he⟩
  refine current_bind (ite (Coupling.kind_iff (by decide) (by decide))
    (fun _ => failAt_bind Coupling.samePlace_of_tail) fun _ => ?_)
  exact pure ⟨hk.1.trans hm, .some he⟩

/-- The same field lists are alike, whether they end with the text or at a closing brace. -/
theorem fieldList {rule rule' : ListRule} (hrules : C.SameLists rule rule') :
    Reads C n (fieldList rule) (fieldList rule') (Composition.Alike C.left C.right) := by
  refine bind (separated hrules.close ⟨rfl, rfl⟩ (fun n s s' h => item hrules h)
    (fun _ n s _ hkind => exists_error_of_item hkind) .nil) ?_
  rintro k items items' ⟨⟨hk, hitems⟩, -⟩
  refine bind (base hrules) ?_
  rintro m base base' ⟨hm, hbase⟩
  exact pure ⟨hk.trans hm, hitems, hbase⟩

end Follows

end Parser

end FieldComposition
