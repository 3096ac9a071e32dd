import FieldComposition.Parser.FieldList
import FieldComposition.Proofs.Spelling

/-!
# Parsers on the tokens of a text

The tokens that a parser is given stand one after another behind an offset of their text (`Ahead`).
`Parser.Ensures` says of a parser that it leaves such tokens, that its value has a property, and
that its errors are at positions of the text. There is one rule for every step that parsers are made
of.
-/

namespace FieldComposition

/-- A position is that of an offset of a text, the end included. -/
def Position.IsIn (text : List Char) (p : Position) : Prop :=
  ∃ offset ≤ text.length, p = .ofOffset text offset

/-- A position is that of a character of a text. -/
def Position.IsOn (text : List Char) (p : Position) : Prop :=
  ∃ offset < text.length, p = .ofOffset text offset

lemma Position.IsOn.isIn {text : List Char} {p : Position} (h : p.IsOn text) : p.IsIn text := by
  obtain ⟨offset, hoffset, hp⟩ := h
  exact ⟨offset, hoffset.le, hp⟩

/-- A read error is about positions of a text. -/
def ReadError.IsIn (text : List Char) : ReadError → Prop
  | .fault _ position => position.IsIn text
  | .repeatedName _ first second => first.IsIn text ∧ second.IsIn text

/-- Reading a text ends in something of which `Q` holds, or in an error at a position of it. -/
def ReadError.EndsIn {α : Type} (text : List Char) (Q : α → Prop) : Except ReadError α → Prop
  | .error error => error.IsIn text
  | .ok a => Q a

lemma ReadError.EndsIn.mono {α : Type} {text : List Char} {P Q : α → Prop}
    {result : Except ReadError α} (h : EndsIn text P result) (hPQ : ∀ a, P a → Q a) :
    EndsIn text Q result := by
  cases result with
  | error error => exact h
  | ok a => exact hPQ a h

namespace Token

/-- A token of a text that starts at the offset `k` or behind it. Only the token of the end may be
empty. -/
structure IsBehind (text : List Char) (k : Nat) (t : Token) : Prop where
  le_start : k ≤ t.start
  spans : t.Spans text
  start_lt_stop : t.kind ≠ .eof → t.start < t.stop
  slice_eq : t.kind = .doubleGreater → (text.drop t.start).take (t.stop - t.start) = ['>', '>']
  spells : t.kind ≠ .eof →
    Lexeme.Spells t.kind ((text.drop t.start).take (t.stop - t.start))

variable {text : List Char} {j k : Nat} {t : Token}

lemma IsBehind.weaken (h : t.IsBehind text k) (hj : j ≤ k) : t.IsBehind text j :=
  ⟨hj.trans h.le_start, h.spans, h.start_lt_stop, h.slice_eq, h.spells⟩

lemma IsBehind.position_isIn (h : t.IsBehind text k) : t.position.IsIn text :=
  ⟨t.start, h.spans.start_le_stop.trans h.spans.stop_le_length, h.spans.position_eq⟩

lemma isBehind_endOf (h : k ≤ text.length) : (Tokens.endOf text).IsBehind text k :=
  ⟨h, ⟨le_rfl, le_rfl, by simp [Tokens.endOf], rfl⟩, fun hkind => absurd rfl hkind, nofun,
    fun hkind => absurd rfl hkind⟩

/-- Both halves of two closing angle brackets are tokens of the text, one behind the other. -/
lemma IsBehind.halves (h : t.IsBehind text k) (hkind : t.kind = .doubleGreater) :
    t.halves.1.IsBehind text k ∧ t.halves.2.IsBehind text k := by
  have hslice := h.slice_eq hkind
  have hle := h.spans.stop_le_length
  have hstop : t.stop = t.start + 2 := by
    have hlength := congrArg List.length hslice
    rw [List.length_take, List.length_drop] at hlength
    simp only [List.length_cons, List.length_nil] at hlength
    omega
  obtain ⟨rest, hdrop⟩ : ∃ rest, text.drop t.start = '>' :: '>' :: rest := by
    refine ⟨(text.drop t.start).drop 2, ?_⟩
    rw [hstop, Nat.add_sub_cancel_left] at hslice
    rw [← List.take_append_drop 2 (text.drop t.start), hslice]
    rfl
  have hdropNext : text.drop (t.start + 1) = '>' :: rest := by
    rw [← List.drop_drop, hdrop]
    rfl
  have hnext : Position.ofOffset text (t.start + 1) =
      ⟨t.position.line, t.position.column + 1⟩ := by
    rw [Position.ofOffset_succ hdrop, ← h.spans.position_eq]
    rfl
  have hspells : Lexeme.Spells .greater ['>'] := .of_any (by decide) (by decide)
  have hfirst : (text.drop t.start).take (t.start + 1 - t.start) = ['>'] := by
    rw [hdrop, Nat.add_sub_cancel_left]
    rfl
  have hsecond : (text.drop (t.start + 1)).take (t.stop - (t.start + 1)) = ['>'] := by
    rw [hdropNext, hstop]
    simp
  refine ⟨⟨h.le_start, ⟨?_, ?_, ?_, h.spans.position_eq⟩, ?_, nofun, fun _ => ?_⟩,
    ⟨h.le_start.trans ?_, ⟨?_, hle, ?_, hnext.symm⟩, ?_, nofun, fun _ => ?_⟩⟩
  all_goals simp only [Token.halves]
  · omega
  · omega
  · rw [hfirst]
  · omega
  · rwa [hfirst]
  · omega
  · omega
  · rw [hsecond]
  · omega
  · rwa [hsecond]

end Token

/-- Tokens of a text that stand one after another behind an offset. -/
inductive Ahead (text : List Char) : Nat → List Token → Prop
  | nil {k : Nat} (h : k ≤ text.length) : Ahead text k []
  | cons {k : Nat} {t : Token} {ts : List Token} (ht : t.IsBehind text k) (hkind : t.kind ≠ .eof)
      (hrest : Ahead text t.stop ts) : Ahead text k (t :: ts)

namespace Ahead

variable {host : Host} {text : List Char} {j k : Nat} {t : Token} {ts : List Token}

lemma weaken (h : Ahead text k ts) (hj : j ≤ k) : Ahead text j ts := by
  cases h with
  | nil h => exact .nil (hj.trans h)
  | cons ht hkind hrest => exact .cons (ht.weaken hj) hkind hrest

lemma tail (h : Ahead text k (t :: ts)) : Ahead text k ts := by
  cases h with
  | cons ht _ hrest => exact hrest.weaken (ht.le_start.trans ht.spans.start_le_stop)

lemma drop (h : Ahead text k ts) (n : Nat) : Ahead text k (ts.drop n) := by
  induction n generalizing ts with
  | zero => exact h
  | succ n ih =>
    cases ts with
    | nil => exact h
    | cons t ts => exact ih h.tail

lemma head (h : Ahead text k ts) : (ts.headD (Tokens.endOf text)).IsBehind text k := by
  cases h with
  | nil h => exact Token.isBehind_endOf h
  | cons ht => exact ht

/-- Tokens stand behind the start of the first of them. -/
lemma from_head (h : Ahead text k ts) : Ahead text (ts.headD (Tokens.endOf text)).start ts := by
  cases h with
  | nil h => exact .nil le_rfl
  | cons ht hkind hrest =>
    exact .cons ⟨le_rfl, ht.spans, ht.start_lt_stop, ht.slice_eq, ht.spells⟩ hkind hrest

lemma of_tiled (h : Tiled host text k ts j) (hj : j ≤ text.length) : Ahead text k ts := by
  induction h with
  | gap hgap => exact .nil (hgap.le.trans hj)
  | token hgap hspans hread hrest ih =>
    exact .cons ⟨hgap.le, hspans, fun _ => hread.start_lt_stop, hread.kind_spec.2,
      fun _ => hread.spells⟩ hread.kind_spec.1 (ih hj)

end Ahead

/-- What parsers of a text read from. -/
def Source.ofText (host : Host) (text : String) : Source :=
  ⟨host, text, Tokens.endOf text.toList⟩

lemma Source.eof_ofText (host : Host) (text : String) :
    (ofText host text).eof = Tokens.endOf text.toList := rfl

namespace Parser

@[simp] lemma run_isName (t : Token) (src : Source) (tokens : List Token) :
    (isName t).run src tokens =
      .ok (t.kind == .ident || (src.host.hasSoftKeywords && t.kind.isSoftKeyword), tokens) := rfl

/-- What repeated items do: one item, the comma behind it, and the other items. -/
lemma run_separated {σ : Type} (close : TokenKind) (stops : TokenKind → Bool) (sought : Sought)
    (item : σ → Parser σ) (s : σ) (src : Source) (tokens : List Token) :
    (separated close stops sought item s).run src tokens =
      if (tokens.headD src.eof).kind = close || stops (tokens.headD src.eof).kind then
        .ok (s, tokens)
      else
        match (item s).run src tokens with
        | .error error => .error error
        | .ok (s', rest) =>
          if (rest.headD src.eof).kind = close then .ok (s', rest)
          else
            match rest with
            | [] => .error (.fault (.expected sought (found src.eof)) src.eof.position)
            | v :: more =>
              if v.kind = .comma then (separated close stops sought item s').run src more
              else .error (.fault (.expected sought (found v)) v.position) := by
  unfold run
  rw [separated]
  dsimp only
  by_cases hend : (tokens.headD src.eof).kind = close || stops (tokens.headD src.eof).kind
  · rw [if_pos hend, if_pos hend]
  rw [if_neg hend, if_neg hend]
  cases item s src tokens with
  | error error => rfl
  | ok r =>
    obtain ⟨s', rest, hlength⟩ := r
    dsimp only
    by_cases hclose : (rest.headD src.eof).kind = close
    · rw [if_pos hclose, if_pos hclose]
    rw [if_neg hclose, if_neg hclose]
    cases rest with
    | nil => rfl
    | cons v more =>
      dsimp only
      by_cases hcomma : v.kind = .comma
      · rw [if_pos hcomma, if_pos hcomma]
        cases separated close stops sought item s' src more <;> rfl
      · rw [if_neg hcomma, if_neg hcomma]
        rfl

/-- What a path does: one separator with the name behind it, and the rest of the path. -/
lemma run_pathSegments (last : Token) (src : Source) (tokens : List Token) :
    (pathSegments last).run src tokens =
      match tokens with
      | [] => .ok (last, [])
      | t :: rest =>
        if t.kind = .pathSep || t.kind = .dot then
          (expect .ident .functionPathSegment >>= pathSegments).run src rest
        else .ok (last, t :: rest) := by
  cases tokens with
  | nil =>
    unfold run
    rw [pathSegments.eq_def]
  | cons t rest =>
    dsimp only
    split
    · rename_i ht
      rw [run_bind]
      unfold run
      rw [pathSegments.eq_def]
      dsimp only
      rw [if_pos ht]
      cases expect .ident .functionPathSegment src rest with
      | error error => rfl
      | ok r =>
        dsimp only
        cases pathSegments r.value src r.rest <;> rfl
    · rename_i ht
      unfold run
      rw [pathSegments.eq_def]
      dsimp only
      rw [if_neg ht]

lemma run_capture (rule : CaptureRule) (src : Source) (tokens : List Token) :
    (capture rule).run src tokens =
      match captureFrom rule (tokens.headD src.eof) [] none tokens with
      | .error error => .error error
      | .ok (none, _) =>
        .error (.fault (.expected rule.sought (found (tokens.headD src.eof)))
          (tokens.headD src.eof).position)
      | .ok (some last, rest) =>
        .ok (⟨Text.slice src.text (tokens.headD src.eof).start last.stop,
          (tokens.headD src.eof).position⟩, rest) := by
  unfold run
  split
  · rename_i error hresult
    rw [capture] at hresult
    split at hresult
    · rename_i hcapture
      rw [hcapture, Except.error.inj hresult]
    · rename_i hcapture
      rw [hcapture, ← Except.error.inj hresult]
    · cases hresult
  · rename_i r hresult
    rw [capture] at hresult
    split at hresult
    · cases hresult
    · cases hresult
    · rename_i hcapture
      rw [hcapture, ← Except.ok.inj hresult]

section

variable {α β : Type} {p : Parser α} {src : Source} {ts rest : List Token}

lemma exists_of_run_bind {f : α → Parser β} {b : β}
    (h : (p >>= f).run src ts = .ok (b, rest)) :
    ∃ a mid, p.run src ts = .ok (a, mid) ∧ (f a).run src mid = .ok (b, rest) := by
  rw [run_bind] at h
  cases hresult : p.run src ts with
  | error error =>
    rw [hresult] at h
    cases h
  | ok result =>
    rw [hresult] at h
    exact ⟨result.1, result.2, rfl, h⟩

lemma eq_cons_of_run_expect {kind : TokenKind} {sought : Sought} {t : Token}
    (heof : src.eof.kind ≠ kind) (h : (expect kind sought).run src ts = .ok (t, rest)) :
    ts = t :: rest ∧ t.kind = kind := by
  obtain ⟨u, mid, hcurrent, h⟩ := exists_of_run_bind h
  obtain ⟨rfl, rfl⟩ := Prod.mk.inj (Except.ok.inj hcurrent)
  split at h
  case isFalse => cases h
  rename_i hkind
  rw [run_advance] at h
  obtain ⟨rfl, rfl⟩ := Prod.mk.inj (Except.ok.inj h)
  cases ts with
  | nil => exact absurd hkind heof
  | cons t ts => exact ⟨rfl, hkind⟩

lemma eq_append_of_run_accept? {kind : TokenKind} {t? : Option Token} (heof : src.eof.kind ≠ kind)
    (h : (accept? kind).run src ts = .ok (t?, rest)) :
    ts = t?.toList ++ rest ∧ ∀ t ∈ t?, t.kind = kind := by
  obtain ⟨u, mid, hcurrent, h⟩ := exists_of_run_bind h
  obtain ⟨rfl, rfl⟩ := Prod.mk.inj (Except.ok.inj hcurrent)
  split at h
  · rename_i hkind
    rw [run_bind, run_skip] at h
    obtain ⟨rfl, rfl⟩ := Prod.mk.inj (Except.ok.inj h)
    cases ts with
    | nil => exact absurd hkind heof
    | cons t ts => exact ⟨rfl, by simpa using hkind⟩
  · obtain ⟨rfl, rfl⟩ := Prod.mk.inj (Except.ok.inj h)
    exact ⟨rfl, by simp⟩

end

/-- A parser that reads tokens of a text behind the offset `k` ends in a value of which `Q` holds
and leaves such tokens, or it ends in an error at a position of the text. -/
def Ensures {α : Type} (host : Host) (text : String) (k : Nat) (p : Parser α) (Q : α → Prop) :
    Prop :=
  ∀ tokens, Ahead text.toList k tokens →
    ReadError.EndsIn text.toList (fun result => Q result.1 ∧ Ahead text.toList k result.2)
      (p.run (.ofText host text) tokens)

namespace Ensures

variable {α β σ : Type} {host : Host} {text : String} {k : Nat} {p q : Parser α}
  {P : α → Prop} {Q : β → Prop}

lemma pure {a : α} (h : P a) : Ensures host text k (pure a) P :=
  fun _ htokens => ⟨h, htokens⟩

lemma bind {f : α → Parser β} (hp : Ensures host text k p P)
    (hf : ∀ a, P a → Ensures host text k (f a) Q) : Ensures host text k (p >>= f) Q := by
  intro tokens htokens
  have hp := hp tokens htokens
  rw [run_bind]
  cases hresult : p.run (.ofText host text) tokens with
  | error error =>
    rw [hresult] at hp
    exact hp
  | ok result =>
    rw [hresult] at hp
    exact hf result.1 hp.1 result.2 hp.2

lemma mono {Q : α → Prop} (hp : Ensures host text k p P) (h : ∀ a, P a → Q a) :
    Ensures host text k p Q :=
  fun tokens htokens => (hp tokens htokens).mono fun result hresult =>
    ⟨h result.1 hresult.1, hresult.2⟩

lemma map {f : α → β} (hp : Ensures host text k p P) (h : ∀ a, P a → Q (f a)) :
    Ensures host text k (f <$> p) Q :=
  hp.bind fun a ha => pure (h a ha)

lemma mapM {f : α → Parser β} {as : List α} (h : ∀ a ∈ as, Ensures host text k (f a) Q) :
    Ensures host text k (as.mapM f) fun bs => bs.length = as.length ∧ ∀ b ∈ bs, Q b := by
  have hloop (as : List α) (bs : List β) (h : ∀ a ∈ as, Ensures host text k (f a) Q)
      (hbs : ∀ b ∈ bs, Q b) : Ensures host text k (List.mapM.loop f as bs) fun all =>
        all.length = as.length + bs.length ∧ ∀ b ∈ all, Q b := by
    induction as generalizing bs with
    | nil => exact pure ⟨by simp, by simpa using hbs⟩
    | cons a as ih =>
      refine (h a List.mem_cons_self).bind fun b hb => ?_
      refine (ih (b :: bs) (fun a' ha' => h a' (List.mem_cons_of_mem _ ha')) ?_).mono ?_
      · simpa using ⟨hb, hbs⟩
      · rintro all ⟨hlength, hall⟩
        refine ⟨?_, hall⟩
        rw [hlength, List.length_cons, List.length_cons]
        omega
  exact hloop as [] h (by simp)

lemma ite {c : Prop} [Decidable c] (hp : c → Ensures host text k p P)
    (hq : ¬c → Ensures host text k q P) : Ensures host text k (if c then p else q) P := by
  by_cases hc : c
  · rw [if_pos hc]
    exact hp hc
  · rw [if_neg hc]
    exact hq hc

lemma failAt {fault : SyntaxFault} {position : Position} (h : position.IsIn text.toList) :
    Ensures host text k (failAt fault position) P :=
  fun _ _ => h

lemma fail {fault : SyntaxFault} {t : Token} {j : Nat} (ht : t.IsBehind text.toList j) :
    Ensures host text k (fail fault t) P :=
  failAt ht.position_isIn

lemma failAt_bind {fault : SyntaxFault} {position : Position} {f : α → Parser β}
    (h : position.IsIn text.toList) : Ensures host text k (Parser.failAt fault position >>= f) Q :=
  fun _ _ => h

lemma fail_bind {fault : SyntaxFault} {t : Token} {j : Nat} {f : α → Parser β}
    (ht : t.IsBehind text.toList j) : Ensures host text k (Parser.fail fault t >>= f) Q :=
  failAt_bind ht.position_isIn

/-- A parser that looks at the next token goes on with tokens behind the start of that token. -/
lemma current_bind {f : Token → Parser β}
    (hf : ∀ t, t.IsBehind text.toList k → Ensures host text t.start (f t) Q) :
    Ensures host text k (current >>= f) Q := by
  intro tokens htokens
  rw [run_bind, run_current]
  refine (hf _ htokens.head tokens htokens.from_head).mono fun result hresult => ?_
  exact ⟨hresult.1, hresult.2.weaken htokens.head.le_start⟩

lemma current : Ensures host text k current (·.IsBehind text.toList k) :=
  fun _ htokens => ⟨htokens.head, htokens⟩

lemma following : Ensures host text k following (·.IsBehind text.toList k) := by
  intro tokens htokens
  have hrest := htokens.drop 1
  rw [List.drop_one] at hrest
  exact ⟨hrest.head, htokens⟩

lemma remaining : Ensures host text k remaining (Ahead text.toList k) :=
  fun _ htokens => ⟨htokens, htokens⟩

lemma skip {n : Nat} : Ensures host text k (skip n) fun _ => True :=
  fun _ htokens => ⟨trivial, htokens.drop n⟩

lemma isName {t : Token} : Ensures host text k (isName t) (· = true → t.kind ≠ .eof) := by
  refine fun tokens htokens => ⟨fun h heof => ?_, htokens⟩
  simp [heof, TokenKind.isSoftKeyword] at h

lemma textBetween {first last : Token} :
    Ensures host text k (textBetween first last) (· = Text.slice text first.start last.stop) :=
  fun _ htokens => ⟨rfl, htokens⟩

lemma advance : Ensures host text k advance (·.IsBehind text.toList k) :=
  current.bind fun _ ht => skip.bind fun _ _ => pure ht

lemma expect {kind : TokenKind} {sought : Sought} :
    Ensures host text k (expect kind sought) fun t =>
      t.IsBehind text.toList k ∧ t.kind = kind := by
  intro tokens htokens
  rw [Parser.expect, run_bind, run_current]
  dsimp only
  by_cases hkind : (tokens.headD (Source.ofText host text).eof).kind = kind
  · rw [if_pos hkind, run_advance]
    exact ⟨⟨htokens.head, hkind⟩, htokens.drop 1⟩
  · rw [if_neg hkind, run_fail]
    exact htokens.head.position_isIn

lemma accept? {kind : TokenKind} :
    Ensures host text k (accept? kind) fun t? => ∀ t ∈ t?, t.IsBehind text.toList k := by
  refine current_bind fun t ht => .ite (fun _ => skip.bind fun _ _ => pure ?_) fun _ => pure ?_
  · rintro u hu
    obtain rfl : t = u := by simpa using hu
    exact ht
  · simp

lemma accepts {kind : TokenKind} : Ensures host text k (accepts kind) fun _ => True :=
  accept?.bind fun _ _ => pure trivial

lemma expectEnd : Ensures host text k expectEnd fun _ => True :=
  current_bind fun _ ht => .ite (fun _ => pure trivial) fun _ => fail ht

lemma expectName {sought : Sought} :
    Ensures host text k (expectName sought) (·.IsBehind text.toList k) :=
  current.bind fun _ _ => isName.bind fun _ _ =>
    .ite (fun _ => advance) fun _ => expect.mono fun _ ht => ht.1

/-- Items keep what each of them keeps, by induction on the tokens that are left. -/
lemma separated {P : σ → Prop} {close : TokenKind} {stops : TokenKind → Bool} {sought : Sought}
    {item : σ → Parser σ} (hitem : ∀ s, P s → Ensures host text k (item s) P) {s : σ} (hs : P s) :
    Ensures host text k (separated close stops sought item s) P := by
  intro tokens htokens
  induction hn : tokens.length using Nat.strong_induction_on generalizing s tokens with
  | _ n ih =>
    rw [run_separated]
    by_cases hend : (tokens.headD (Source.ofText host text).eof).kind = close ||
      stops (tokens.headD (Source.ofText host text).eof).kind
    · rw [if_pos hend]
      exact ⟨hs, htokens⟩
    rw [if_neg hend]
    have hitem := hitem s hs tokens htokens
    cases hresult : (item s).run (.ofText host text) tokens with
    | error error =>
      rw [hresult] at hitem
      exact hitem
    | ok result =>
      have hlength := length_le_of_run hresult
      obtain ⟨s', rest⟩ := result
      rw [hresult] at hitem
      obtain ⟨hs', hrest⟩ := hitem
      dsimp only
      by_cases hclose : (rest.headD (Source.ofText host text).eof).kind = close
      · rw [if_pos hclose]
        exact ⟨hs', hrest⟩
      rw [if_neg hclose]
      cases rest with
      | nil => exact hrest.head.position_isIn
      | cons v more =>
        dsimp only
        by_cases hcomma : v.kind = .comma
        · rw [if_pos hcomma]
          exact ih more.length (by rw [← hn]; exact hlength) hs' more hrest.tail rfl
        · rw [if_neg hcomma]
          exact hrest.head.position_isIn

/-- A path ends in a name, by induction on the tokens that are left. -/
lemma pathSegments {last : Token} (hlast : last.IsBehind text.toList k ∧ last.kind = .ident) :
    Ensures host text k (pathSegments last) fun t =>
      t.IsBehind text.toList k ∧ t.kind = .ident := by
  intro tokens htokens
  induction hn : tokens.length using Nat.strong_induction_on generalizing last tokens with
  | _ n ih =>
    rw [run_pathSegments]
    cases tokens with
    | nil => exact ⟨hlast, htokens⟩
    | cons t rest =>
      dsimp only
      by_cases hsep : t.kind = .pathSep || t.kind = .dot
      · rw [if_pos hsep, run_bind]
        let name := Parser.expect .ident .functionPathSegment
        have hname : Ensures host text k name _ := expect
        have hname := hname rest htokens.tail
        cases hresult : name.run (.ofText host text) rest with
        | error error =>
          rw [hresult] at hname
          exact hname
        | ok result =>
          have hlength := length_le_of_run hresult
          rw [hresult] at hname
          exact ih _ (by rw [← hn]; exact Nat.lt_succ_of_le hlength) hname.1 _ hname.2 rfl
      · rw [if_neg hsep]
        exact ⟨hlast, htokens⟩

/-- A capture leaves tokens behind the offset, by induction on the tokens. -/
lemma captureFrom_spec {text : List Char} (rule : CaptureRule) {first : Token}
    (hfirst : first.position.IsIn text) (closers : List TokenKind) (last? : Option Token)
    {tokens : List Token} (htokens : Ahead text k tokens) :
    ReadError.EndsIn text (fun result => Ahead text k result.2)
      (captureFrom rule first closers last? tokens) := by
  fun_induction captureFrom rule first closers last? tokens with
  | case1 => exact htokens
  | case2 => exact hfirst
  | case3 => exact htokens
  | case5 | case7 => exact htokens.head.position_isIn
  | case11 last? t rest _ _ outer _ hkind =>
    cases htokens with
    | cons ht _ hrest => exact .cons (ht.halves hkind).2 nofun hrest
  | _ => exact ‹Ahead text k _ → _› htokens.tail

/-- Captured text is found at a position of the text. -/
lemma capture {rule : CaptureRule} :
    Ensures host text k (capture rule) (·.position.IsIn text.toList) := by
  intro tokens htokens
  have hfirst := htokens.head.position_isIn
  have hcapture := captureFrom_spec rule hfirst [] none htokens
  rw [run_capture, Source.eof_ofText]
  cases hresult : captureFrom rule (tokens.headD (Tokens.endOf text.toList)) [] none tokens with
  | error error =>
    rw [hresult] at hcapture
    exact hcapture
  | ok result =>
    rw [hresult] at hcapture
    obtain ⟨last?, rest⟩ := result
    cases last? with
    | none => exact hfirst
    | some last => exact ⟨hfirst, hcapture⟩

lemma bracketed {first : Token} {fault : SyntaxFault} :
    Ensures host text k (bracketed first fault) fun _ => True := by
  refine remaining.bind fun tokens _ => ?_
  cases Token.matchingClose? tokens with
  | none => exact current_bind fun _ ht => fail ht
  | some index =>
    exact skip.bind fun _ _ => advance.bind fun _ _ => textBetween.mono fun _ _ => trivial

end Ensures

end Parser

end FieldComposition
