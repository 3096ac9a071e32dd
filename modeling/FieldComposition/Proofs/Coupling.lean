import FieldComposition.Proofs.Layout

/-!
# Parsers on two layouts

`Parser.Follows` couples a run of a parser on one layout with a run of a parser on another one
that holds the same tokens. When the run on the left ends well, so does the run on the right, and
both stop before the same token. When it fails, the run on the right fails at the same token,
unless a closing brace follows the tokens on the right, which leaves open what happens there. There
is one rule for every step that parsers are made of.
-/

namespace FieldComposition

lemma Token.toClose?_cons (depth : Nat) (t : Token) (rest : List Token) :
    toClose? depth (t :: rest) =
      if t.kind.isOpener then (toClose? (depth + 1) rest).map (· + 1)
      else if t.kind.isCloser then
        match depth with
        | 0 => some 0
        | outer + 1 => (toClose? outer rest).map (· + 1)
      else (toClose? depth rest).map (· + 1) := by
  cases depth <;> rfl

/-- A part of a token list closes `depth` brackets and every bracket that it opens. -/
def Token.Closes (depth : Nat) (part : List Token) : Prop :=
  ∀ outer rest, toClose? (outer + depth) (part ++ rest) =
    (toClose? outer rest).map (· + part.length)

namespace Token.Closes

variable {depth : Nat} {t : Token} {part more : List Token}

lemma nil : Closes 0 [] := by
  intro outer rest
  simp

lemma append (hpart : Closes 0 part) (hmore : Closes depth more) :
    Closes depth (part ++ more) := by
  intro outer rest
  have hfirst := hpart (outer + depth) (more ++ rest)
  rw [Nat.add_zero] at hfirst
  rw [List.append_assoc, hfirst, hmore, Option.map_map, List.length_append]
  congr 1
  funext n
  simp only [Function.comp_apply]
  omega

lemma plain (hopener : t.kind.isOpener = false) (hcloser : t.kind.isCloser = false)
    (h : Closes depth part) : Closes depth (t :: part) := by
  intro outer rest
  rw [List.cons_append, toClose?_cons, if_neg (by simp [hopener]), if_neg (by simp [hcloser]), h,
    Option.map_map, List.length_cons]
  rfl

lemma opener (hopener : t.kind.isOpener) (h : Closes (depth + 1) part) :
    Closes depth (t :: part) := by
  intro outer rest
  rw [List.cons_append, toClose?_cons, if_pos hopener, Nat.add_assoc, h, Option.map_map,
    List.length_cons]
  rfl

lemma closer (hopener : t.kind.isOpener = false) (hcloser : t.kind.isCloser)
    (h : Closes depth part) : Closes (depth + 1) (t :: part) := by
  intro outer rest
  rw [List.cons_append, toClose?_cons, if_neg (by simp [hopener]), if_pos hcloser, ← Nat.add_assoc]
  dsimp only
  rw [h, Option.map_map, List.length_cons]
  rfl

end Token.Closes

/-- Two layouts of the same tokens. On the right a closing brace may follow them. -/
structure Coupling where
  left : Layout
  right : Layout
  tail : List Token
  host_eq : left.host = right.host
  lexemes_eq : left.body.map Token.lexeme = right.body.map Token.lexeme
  kind_ne_eof : ∀ t ∈ left.body, t.kind ≠ .eof
  left_eof : left.eof.kind = .eof
  right_eof : right.eof.kind = .eof
  closeBrace_of_tail : ∀ t ∈ tail.head?, t.kind = .closeBrace

namespace Coupling

variable (C : Coupling) {n m k : Nat}

/-- The tokens on the left from an index on. -/
def leftFrom (n : Nat) : List Token :=
  C.left.body.drop n

def rightFrom (n : Nat) : List Token :=
  C.right.body.drop n ++ C.tail

/-- The next token on the right, which is the closing brace when there is no other. -/
def rightAt (n : Nat) : Token :=
  (C.rightFrom n).headD C.right.eof

variable {C}

lemma length_eq : C.left.body.length = C.right.body.length := by
  simpa using congrArg List.length C.lexemes_eq

lemma leftFrom_eq_cons (h : n < C.left.body.length) :
    C.leftFrom n = C.left.tokenAt n :: C.leftFrom (n + 1) :=
  Layout.drop_eq_cons h

lemma rightFrom_eq_cons (h : n < C.left.body.length) :
    C.rightFrom n = C.right.tokenAt n :: C.rightFrom (n + 1) := by
  rw [rightFrom, Layout.drop_eq_cons (by rwa [← length_eq])]
  rfl

lemma leftFrom_of_le (h : C.left.body.length ≤ n) : C.leftFrom n = [] :=
  List.drop_eq_nil_of_le h

lemma rightFrom_of_le (h : C.left.body.length ≤ n) : C.rightFrom n = C.tail := by
  rw [rightFrom, List.drop_eq_nil_of_le (by rwa [← length_eq]), List.nil_append]

lemma rightAt_of_lt (h : n < C.left.body.length) : C.rightAt n = C.right.tokenAt n := by
  rw [rightAt, rightFrom_eq_cons h]
  rfl

lemma rightAt_of_tail (h : C.tail = []) : C.rightAt n = C.right.tokenAt n := by
  rw [rightAt, rightFrom, h, List.append_nil]
  rfl

lemma lexeme_eq (h : n < C.left.body.length) :
    (C.left.tokenAt n).lexeme = (C.rightAt n).lexeme := by
  have hlexemes := congrArg (List.drop n) C.lexemes_eq
  have hright : n < C.right.body.length := by rwa [← length_eq]
  rw [← List.map_drop, ← List.map_drop, Layout.drop_eq_cons h, Layout.drop_eq_cons hright]
    at hlexemes
  rw [rightAt_of_lt h]
  exact (List.cons.inj hlexemes).1

lemma kind_eq (h : n < C.left.body.length) : (C.left.tokenAt n).kind = (C.rightAt n).kind :=
  congrArg Prod.fst (lexeme_eq h)

lemma value_eq (h : n < C.left.body.length) : (C.left.tokenAt n).value = (C.rightAt n).value :=
  congrArg Prod.snd (lexeme_eq h)

lemma kind_of_le (h : C.left.body.length ≤ n) : (C.left.tokenAt n).kind = .eof := by
  rw [Layout.tokenAt_of_le h, C.left_eof]

lemma lt_length (h : (C.left.tokenAt n).kind ≠ .eof) : n < C.left.body.length := by
  by_contra hle
  exact h (kind_of_le (Nat.le_of_not_lt hle))

lemma kind_ne_eof_of_lt (h : n < C.left.body.length) : (C.left.tokenAt n).kind ≠ .eof :=
  C.kind_ne_eof _ (Layout.tokenAt_mem h)

/-- The next tokens are of one kind, unless the left side has come to its end and the right side to
the closing brace. -/
lemma kind_cases (C : Coupling) (n : Nat) :
    (C.left.tokenAt n).kind = (C.rightAt n).kind ∨
      C.tail ≠ [] ∧ (C.left.tokenAt n).kind = .eof ∧ (C.rightAt n).kind = .closeBrace := by
  by_cases h : n < C.left.body.length
  · exact .inl (kind_eq h)
  have hle := Nat.le_of_not_lt h
  rw [kind_of_le hle, rightAt, rightFrom_of_le hle]
  cases htail : C.tail with
  | nil => exact .inl C.right_eof.symm
  | cons t ts => exact .inr ⟨by simp, rfl, C.closeBrace_of_tail t (by simp [htail])⟩

lemma kind_iff {kind : TokenKind} (heof : kind ≠ .eof) (hbrace : kind ≠ .closeBrace) :
    (C.left.tokenAt n).kind = kind ↔ (C.rightAt n).kind = kind := by
  rcases C.kind_cases n with h | ⟨-, hleft, hright⟩
  · rw [h]
  · rw [hleft, hright]
    exact ⟨fun h => absurd h.symm heof, fun h => absurd h.symm hbrace⟩

lemma kind_eq_of_tail (h : C.tail = []) : (C.left.tokenAt n).kind = (C.rightAt n).kind :=
  (C.kind_cases n).resolve_right fun hcases => hcases.1 h

lemma samePlace_of_tail (h : C.tail = []) :
    C.left.SamePlace C.right (C.left.tokenAt n).position (C.rightAt n).position :=
  ⟨n, rfl, by rw [rightAt_of_tail h]⟩

lemma sameToken (h : n < C.left.body.length) :
    C.left.SameToken C.right (C.left.tokenAt n).position (C.rightAt n).position :=
  ⟨n, h, rfl, by rw [rightAt_of_lt h]⟩

/-- The tokens between two indices close `depth` brackets and every bracket that they open. -/
def Closes (C : Coupling) (depth n m : Nat) : Prop :=
  n ≤ m ∧ Token.Closes depth ((C.left.body.drop n).take (m - n))

/-- The tokens between two indices close every bracket that they open, and no other. -/
abbrev Passes (C : Coupling) (n m : Nat) : Prop :=
  C.Closes 0 n m

namespace Closes

variable {depth : Nat}

lemma refl : C.Passes n n :=
  ⟨le_rfl, by simpa using Token.Closes.nil⟩

lemma trans (h : C.Passes n m) (h' : C.Closes depth m k) : C.Closes depth n k := by
  refine ⟨h.1.trans h'.1, ?_⟩
  have hsplit : (C.left.body.drop n).take (k - n) =
      (C.left.body.drop n).take (m - n) ++ (C.left.body.drop m).take (k - m) := by
    have hle := h.1
    have hle' := h'.1
    have hlength : k - n = (m - n) + (k - m) := by omega
    have hdrop : n + (m - n) = m := by omega
    rw [hlength, List.take_add, List.drop_drop, hdrop]
  rw [hsplit]
  exact h.2.append h'.2

lemma take_eq_cons (hn : n < C.left.body.length) (h : n + 1 ≤ m) :
    (C.left.body.drop n).take (m - n) =
      C.left.tokenAt n :: (C.left.body.drop (n + 1)).take (m - (n + 1)) := by
  have hlength : m - n = (m - (n + 1)) + 1 := by omega
  rw [Layout.drop_eq_cons hn, hlength, List.take_succ_cons]

lemma plain (hn : n < C.left.body.length) (hopener : (C.left.tokenAt n).kind.isOpener = false)
    (hcloser : (C.left.tokenAt n).kind.isCloser = false) (h : C.Closes depth (n + 1) m) :
    C.Closes depth n m := by
  refine ⟨Nat.le_of_succ_le h.1, ?_⟩
  rw [take_eq_cons hn h.1]
  exact h.2.plain hopener hcloser

lemma opener (hn : n < C.left.body.length) (hopener : (C.left.tokenAt n).kind.isOpener)
    (h : C.Closes (depth + 1) (n + 1) m) : C.Closes depth n m := by
  refine ⟨Nat.le_of_succ_le h.1, ?_⟩
  rw [take_eq_cons hn h.1]
  exact h.2.opener hopener

lemma closer (hn : n < C.left.body.length) (hopener : (C.left.tokenAt n).kind.isOpener = false)
    (hcloser : (C.left.tokenAt n).kind.isCloser) (h : C.Closes depth (n + 1) m) :
    C.Closes (depth + 1) n m := by
  refine ⟨Nat.le_of_succ_le h.1, ?_⟩
  rw [take_eq_cons hn h.1]
  exact h.2.closer hopener hcloser

lemma step (hn : n < C.left.body.length) (hopener : (C.left.tokenAt n).kind.isOpener = false)
    (hcloser : (C.left.tokenAt n).kind.isCloser = false) : C.Passes n (n + 1) :=
  refl.plain hn hopener hcloser

end Closes

/-- How a result on the right follows the one on the left. -/
def Agree {α β : Type} (C : Coupling) (Q : Nat → α → β → Prop) :
    Except ReadError (α × List Token) → Except ReadError (β × List Token) → Prop
  | .ok (a, rest), .ok (b, rest') => ∃ m, rest = C.leftFrom m ∧ rest' = C.rightFrom m ∧ Q m a b
  | .ok _, .error _ => False
  | .error e, result => C.tail = [] → ∃ e', result = .error e' ∧ C.left.SameError C.right e e'

/-- The kinds of token that end a list on the left and on the right. -/
inductive Matches (C : Coupling) : TokenKind → TokenKind → Prop
  | whole {close : TokenKind} (h : C.tail = []) : Matches C close close
  | nested : Matches C .closeBrace .closeBrace
  | braced (h : C.tail ≠ []) : Matches C .eof .closeBrace

/-- A list that ends on the left ends on the right. The other way round the left side may have come
to the end or to a closing brace that it has no use for. -/
lemma Matches.ends {close close' : TokenKind} (h : C.Matches close close') (n : Nat) :
    ((C.left.tokenAt n).kind = close → (C.rightAt n).kind = close') ∧
      ((C.rightAt n).kind = close' → (C.left.tokenAt n).kind = close ∨ C.tail ≠ [] ∧
        ((C.left.tokenAt n).kind = .eof ∨ (C.left.tokenAt n).kind = .closeBrace)) := by
  cases h with
  | whole h =>
    rw [kind_eq_of_tail h]
    exact ⟨id, .inl⟩
  | nested =>
    rcases C.kind_cases n with h | ⟨htail, hleft, hright⟩
    · rw [h]
      exact ⟨id, .inl⟩
    · rw [hleft, hright]
      exact ⟨nofun, fun _ => .inr ⟨htail, .inl rfl⟩⟩
  | braced htail =>
    rcases C.kind_cases n with h | ⟨-, hleft, hright⟩
    · refine ⟨fun heof => ?_, fun hbrace => .inr ⟨htail, .inr (h.trans hbrace)⟩⟩
      have hle : C.left.body.length ≤ n := by
        by_contra hn
        exact kind_ne_eof_of_lt (Nat.lt_of_not_le hn) heof
      have hhead : (C.rightAt n).kind = .closeBrace := by
        obtain ⟨t, ts, hcons⟩ := List.exists_cons_of_ne_nil htail
        rw [rightAt, rightFrom_of_le hle, hcons]
        exact C.closeBrace_of_tail t (by simp [hcons])
      exact hhead
    · rw [hleft, hright]
      exact ⟨fun _ => rfl, fun _ => .inl rfl⟩

namespace Agree

variable {α β : Type} {Q R : Nat → α → β → Prop} {r : Except ReadError (α × List Token)}
  {r' : Except ReadError (β × List Token)}

lemma mono (h : C.Agree Q r r') (hQR : ∀ m a b, Q m a b → R m a b) : C.Agree R r r' := by
  rcases r with e | ⟨a, rest⟩
  · exact h
  rcases r' with e' | ⟨b, rest'⟩
  · exact h
  obtain ⟨m, hrest, hrest', hQ⟩ := h
  exact ⟨m, hrest, hrest', hQR m a b hQ⟩

lemma cases (h : C.Agree Q r r') :
    (∃ e, r = .error e ∧ (C.tail = [] → ∃ e', r' = .error e' ∧ C.left.SameError C.right e e')) ∨
      ∃ m a b, r = .ok (a, C.leftFrom m) ∧ r' = .ok (b, C.rightFrom m) ∧ Q m a b := by
  rcases r with e | ⟨a, rest⟩
  · exact .inl ⟨e, rfl, h⟩
  rcases r' with e' | ⟨b, rest'⟩
  · exact h.elim
  obtain ⟨m, rfl, rfl, hQ⟩ := h
  exact .inr ⟨m, a, b, rfl, rfl, hQ⟩

lemma fault {fault fault' : SyntaxFault} {p p' : Position}
    (h : C.tail = [] → C.left.SamePlace C.right p p') :
    C.Agree Q (.error (.fault fault p)) (.error (.fault fault' p')) :=
  fun htail => ⟨_, rfl, h htail⟩

/-- When a closing brace follows on the right, an error on the left leaves open what happens. -/
lemma of_error {e : ReadError} (h : C.tail ≠ []) : C.Agree Q (.error e) r' :=
  fun htail => absurd htail h

end Agree

end Coupling

namespace Parser

/-- The parsers run from the token of the index `n` on. -/
def Follows {α β : Type} (C : Coupling) (n : Nat) (p : Parser α) (q : Parser β)
    (Q : Nat → α → β → Prop) : Prop :=
  C.Agree Q (p.run C.left.toSource (C.leftFrom n)) (q.run C.right.toSource (C.rightFrom n))

/-- Repeated items in terms of the parsers that they are made of. -/
lemma run_separated_eq_bind {σ : Type} {close : TokenKind} {stops : TokenKind → Bool}
    {sought : Sought} {item : σ → Parser σ} {s : σ} {src : Source} {tokens : List Token}
    (heof : src.eof.kind = .eof) :
    (separated close stops sought item s).run src tokens =
      (current >>= fun t =>
        if t.kind = close || stops t.kind then pure s
        else item s >>= fun s' => current >>= fun u =>
          if u.kind = close then pure s'
          else expect .comma sought >>= fun _ => separated close stops sought item s').run
        src tokens := by
  rw [run_separated, run_bind, run_current]
  dsimp only
  by_cases hend : (tokens.headD src.eof).kind = close || stops (tokens.headD src.eof).kind
  · rw [if_pos hend, if_pos hend, run_pure]
  rw [if_neg hend, if_neg hend, run_bind]
  rcases (item s).run src tokens with e | ⟨s', rest⟩
  · rfl
  dsimp only
  rw [run_bind, run_current]
  dsimp only
  by_cases hclose : (rest.headD src.eof).kind = close
  · rw [if_pos hclose, if_pos hclose, run_pure]
  rw [if_neg hclose, if_neg hclose, run_bind]
  cases rest with
  | nil => simp [expect, heof]
  | cons v more => by_cases hcomma : v.kind = .comma <;> simp [expect, hcomma]

lemma run_pathSegments_eq_bind {last : Token} {src : Source} {tokens : List Token}
    (heof : src.eof.kind = .eof) :
    (pathSegments last).run src tokens =
      (current >>= fun t =>
        if t.kind = .pathSep || t.kind = .dot then
          skip 1 >>= fun _ => expect .ident .functionPathSegment >>= pathSegments
        else pure last).run src tokens := by
  rw [run_pathSegments, run_bind, run_current]
  cases tokens with
  | nil => simp [heof]
  | cons t rest =>
    dsimp only [List.headD_cons]
    by_cases hsep : t.kind = .pathSep || t.kind = .dot
    · rw [if_pos hsep, if_pos hsep, run_bind (skip 1), run_skip]
      rfl
    · rw [if_neg hsep, if_neg hsep]
      rfl

/-- Parsers that close every bracket they open, and return values that are related. -/
abbrev Reads {α β : Type} (C : Coupling) (n : Nat) (p : Parser α) (q : Parser β)
    (V : α → β → Prop) : Prop :=
  Follows C n p q fun m a b => C.Passes n m ∧ V a b

namespace Follows

variable {α β γ δ σ τ : Type} {C : Coupling} {n m : Nat} {p p' : Parser α} {q q' : Parser β}
  {Q R : Nat → α → β → Prop} {S : Nat → γ → δ → Prop}

lemma mono (h : Follows C n p q Q) (hQR : ∀ m a b, Q m a b → R m a b) : Follows C n p q R :=
  Coupling.Agree.mono h hQR

lemma pure {a : α} {b : β} (h : Q n a b) : Follows C n (pure a) (pure b) Q :=
  ⟨n, rfl, rfl, h⟩

lemma bind {f : α → Parser γ} {g : β → Parser δ} (h : Follows C n p q Q)
    (hfg : ∀ m a b, Q m a b → Follows C m (f a) (g b) S) :
    Follows C n (p >>= f) (q >>= g) S := by
  rw [Follows, run_bind, run_bind]
  rcases h.cases with ⟨e, hleft, herror⟩ | ⟨m, a, b, hleft, hright, hQ⟩
  · rw [hleft]
    intro htail
    obtain ⟨e', hright, hsame⟩ := herror htail
    rw [hright]
    exact ⟨e', rfl, hsame⟩
  · rw [hleft, hright]
    exact hfg m a b hQ

/-- When a closing brace follows on the right, the left side may fail. -/
lemma of_error_bind {f : α → Parser γ} {r : Parser δ} {e : ReadError} (htail : C.tail ≠ [])
    (h : p.run C.left.toSource (C.leftFrom n) = .error e) : Follows C n (p >>= f) r S := by
  rw [Follows, run_bind, h]
  exact Coupling.Agree.of_error htail

lemma ite {c c' : Prop} [Decidable c] [Decidable c'] (hc : c ↔ c')
    (hp : c → Follows C n p q Q) (hq : ¬c → Follows C n p' q' Q) :
    Follows C n (if c then p else p') (if c' then q else q') Q := by
  by_cases h : c
  · rw [if_pos h, if_pos (hc.mp h)]
    exact hp h
  · rw [if_neg h, if_neg (mt hc.mpr h)]
    exact hq h

/-- The next tokens are those of the index, and they stay unread. -/
lemma current_bind {f : Token → Parser α} {g : Token → Parser β}
    (h : Follows C n (f (C.left.tokenAt n)) (g (C.rightAt n)) Q) :
    Follows C n (current >>= f) (current >>= g) Q := by
  unfold Follows
  rw [run_bind, run_bind]
  exact h

lemma following_bind {f : Token → Parser α} {g : Token → Parser β}
    (h : ∀ next next',
      (n < C.left.body.length → next = C.left.tokenAt (n + 1) ∧ next' = C.rightAt (n + 1)) →
        Follows C n (f next) (g next') Q) :
    Follows C n (following >>= f) (following >>= g) Q := by
  unfold Follows
  rw [run_bind, run_bind]
  refine h _ _ fun hn => ?_
  rw [Coupling.leftFrom_eq_cons hn, Coupling.rightFrom_eq_cons hn]
  exact ⟨rfl, rfl⟩

lemma skip_one (hn : n < C.left.body.length) :
    Follows C n (skip 1) (skip 1) fun m _ _ => m = n + 1 := by
  unfold Follows
  rw [run_skip, run_skip, Coupling.leftFrom_eq_cons hn,
    Coupling.rightFrom_eq_cons hn]
  exact ⟨n + 1, rfl, rfl, rfl⟩

lemma advance (hn : n < C.left.body.length) :
    Follows C n advance advance fun m t u =>
      m = n + 1 ∧ t = C.left.tokenAt n ∧ u = C.rightAt n := by
  unfold Follows
  rw [run_advance, run_advance, Coupling.rightAt_of_lt hn, Coupling.leftFrom_eq_cons hn,
    Coupling.rightFrom_eq_cons hn]
  exact ⟨n + 1, rfl, rfl, rfl, rfl, rfl⟩

lemma failAt {fault fault' : SyntaxFault} {p p' : Position}
    (h : C.tail = [] → C.left.SamePlace C.right p p') :
    Follows C n (failAt fault p) (failAt fault' p') Q :=
  Coupling.Agree.fault h

lemma failAt_bind {fault fault' : SyntaxFault} {p p' : Position} {f : α → Parser γ}
    {g : β → Parser δ} (h : C.tail = [] → C.left.SamePlace C.right p p') :
    Follows C n (Parser.failAt fault p >>= f) (Parser.failAt fault' p' >>= g) S :=
  Coupling.Agree.fault h

lemma expect {kind : TokenKind} {sought : Sought}
    (hkind : (C.left.tokenAt n).kind = kind ↔ (C.rightAt n).kind = kind) (heof : kind ≠ .eof) :
    Follows C n (expect kind sought) (expect kind sought) fun m t u =>
      m = n + 1 ∧ t = C.left.tokenAt n ∧ u = C.rightAt n ∧ t.kind = kind := by
  refine current_bind (ite hkind (fun h => ?_) fun _ => failAt Coupling.samePlace_of_tail)
  have hn := Coupling.lt_length (by rwa [h])
  refine (advance hn).mono ?_
  rintro m t u ⟨rfl, rfl, rfl⟩
  exact ⟨rfl, rfl, rfl, h⟩

lemma exists_error_of_expect {kind : TokenKind} (sought : Sought)
    (h : (C.left.tokenAt n).kind ≠ kind) :
    ∃ e, (Parser.expect kind sought).run C.left.toSource (C.leftFrom n) = .error e := by
  let t := (C.leftFrom n).headD C.left.eof
  have ht : t.kind ≠ kind := h
  refine ⟨.fault (.expected sought (found t)) t.position, ?_⟩
  rw [Parser.expect, run_bind, run_current]
  dsimp only
  rw [if_neg ht, run_fail]

/-- A plain token is accepted on both sides or on none. -/
lemma accept? {kind : TokenKind} (heof : kind ≠ .eof) (hopener : kind.isOpener = false)
    (hcloser : kind.isCloser = false) :
    Reads C n (accept? kind) (accept? kind) fun t? u? =>
      t? = none ∧ u? = none ∨ t? = some (C.left.tokenAt n) ∧ u? = some (C.rightAt n) := by
  have hbrace : kind ≠ .closeBrace := by
    rintro rfl
    exact absurd hcloser (by decide)
  refine current_bind (ite (Coupling.kind_iff heof hbrace) (fun h => ?_) fun h => ?_)
  · have hn := Coupling.lt_length (by rwa [h])
    refine bind (skip_one hn) ?_
    rintro m - - rfl
    exact pure ⟨.step hn (by rwa [h]) (by rwa [h]), .inr ⟨rfl, rfl⟩⟩
  · exact pure ⟨.refl, .inl ⟨rfl, rfl⟩⟩

/-- What looks like a name on one side does so on the other. -/
lemma isName {k : Nat} :
    Follows C k (isName (C.left.tokenAt n)) (isName (C.rightAt n)) fun m b b' =>
      k = m ∧ b = b' ∧ (b = true → n < C.left.body.length ∧ C.Passes n (n + 1)) := by
  have hb : ((C.left.tokenAt n).kind == .ident ||
        (C.left.host.hasSoftKeywords && (C.left.tokenAt n).kind.isSoftKeyword)) =
      ((C.rightAt n).kind == .ident ||
        (C.right.host.hasSoftKeywords && (C.rightAt n).kind.isSoftKeyword)) := by
    rcases C.kind_cases n with h | ⟨-, hleft, hright⟩
    · rw [h, C.host_eq]
    · rw [hleft, hright]
      simp [TokenKind.isSoftKeyword]
  refine ⟨k, rfl, rfl, rfl, hb, fun hname => ?_⟩
  have hplain : ∀ kind : TokenKind, (kind == .ident ||
      (C.left.host.hasSoftKeywords && kind.isSoftKeyword)) = true →
      kind ≠ .eof ∧ kind.isOpener = false ∧ kind.isCloser = false := by
    intro kind
    cases kind <;> simp [TokenKind.isSoftKeyword, TokenKind.isOpener, TokenKind.closer?,
      TokenKind.isCloser]
  obtain ⟨heof, hopener, hcloser⟩ := hplain _ hname
  have hn := Coupling.lt_length heof
  exact ⟨hn, .step hn hopener hcloser⟩

lemma accepts {kind : TokenKind} (heof : kind ≠ .eof) (hopener : kind.isOpener = false)
    (hcloser : kind.isCloser = false) : Reads C n (accepts kind) (accepts kind) (· = ·) := by
  refine bind (accept? heof hopener hcloser) ?_
  rintro m t? u? ⟨hpasses, ⟨rfl, rfl⟩ | ⟨rfl, rfl⟩⟩
  · exact pure ⟨hpasses, rfl⟩
  · exact pure ⟨hpasses, rfl⟩

/-- A check for the end of the text. When a closing brace follows on the right, the left side must
fail here. -/
lemma ite_end (hp : C.tail = [] → Follows C n p q Q)
    (hfails : C.tail ≠ [] → ∃ e, p.run C.left.toSource (C.leftFrom n) = .error e)
    (hq : (C.left.tokenAt n).kind ≠ .eof → Follows C n p' q' Q) :
    Follows C n (if (C.left.tokenAt n).kind = .eof then p else p')
      (if (C.rightAt n).kind = .eof then q else q') Q := by
  by_cases htail : C.tail = []
  · exact ite (by rw [Coupling.kind_eq_of_tail htail]) (fun _ => hp htail) hq
  by_cases heof : (C.left.tokenAt n).kind = .eof
  · obtain ⟨e, hrun⟩ := hfails htail
    rw [if_pos heof, Follows, hrun]
    exact Coupling.Agree.of_error htail
  · have hn := Coupling.lt_length heof
    rw [if_neg heof, if_neg (by rwa [← Coupling.kind_eq hn])]
    exact hq heof

/-- Items are read in step, by induction on the tokens that are left. Where the list has ended on
the right only, the item on the left must fail. -/
lemma separated {V : σ → τ → Prop} {close close' : TokenKind} (hclose : C.Matches close close')
    {stops : TokenKind → Bool} (hstops : stops .eof = false ∧ stops .closeBrace = false)
    {sought : Sought} {item : σ → Parser σ} {item' : τ → Parser τ}
    (hitem : ∀ n s s', V s s' → Reads C n (item s) (item' s') V)
    (hfails : C.tail ≠ [] → ∀ n s, (C.left.tokenAt n).kind ≠ close →
      (C.left.tokenAt n).kind = .eof ∨ (C.left.tokenAt n).kind = .closeBrace →
      ∃ e, (item s).run C.left.toSource (C.leftFrom n) = .error e)
    {s : σ} {s' : τ} (hs : V s s') :
    Follows C n (separated close stops sought item s) (separated close' stops sought item' s')
      fun m a b => (C.Passes n m ∧ V a b) ∧
        ((C.left.tokenAt m).kind = close ∨ stops (C.left.tokenAt m).kind) := by
  induction hlength : C.left.body.length - n using Nat.strong_induction_on
    generalizing n s s' with
  | _ d ih =>
    have hstop : stops (C.left.tokenAt n).kind = stops (C.rightAt n).kind := by
      rcases C.kind_cases n with h | ⟨-, hleft, hright⟩
      · rw [h]
      · rw [hleft, hright, hstops.1, hstops.2]
    rw [Follows, run_separated_eq_bind C.left_eof, run_separated_eq_bind C.right_eof, ← Follows]
    refine current_bind ?_
    by_cases hend : (C.left.tokenAt n).kind = close || stops (C.left.tokenAt n).kind
    · have hend' : (C.rightAt n).kind = close' || stops (C.rightAt n).kind := by
        simp only [Bool.or_eq_true, decide_eq_true_eq] at hend ⊢
        rw [← hstop]
        exact hend.imp_left (hclose.ends n).1
      rw [if_pos hend, if_pos hend']
      exact pure ⟨⟨.refl, hs⟩, by simpa using hend⟩
    rw [if_neg hend]
    simp only [Bool.or_eq_true, decide_eq_true_eq, not_or] at hend
    by_cases hend' : (C.rightAt n).kind = close'
    · obtain ⟨htail, hkind⟩ := ((hclose.ends n).2 hend').resolve_left hend.1
      obtain ⟨e, hrun⟩ := hfails htail n s hend.1 hkind
      exact of_error_bind htail hrun
    rw [if_neg (by simpa [hend', ← hstop] using hend.2)]
    refine bind (hitem n s s' hs) fun m a b ⟨hpasses, hV⟩ => current_bind ?_
    by_cases hlast : (C.left.tokenAt m).kind = close
    · rw [if_pos hlast, if_pos ((hclose.ends m).1 hlast)]
      exact pure ⟨⟨hpasses, hV⟩, .inl hlast⟩
    rw [if_neg hlast]
    by_cases hlast' : (C.rightAt m).kind = close'
    · -- The list has ended on the right only, where the left side has no comma.
      obtain ⟨htail, hkind⟩ := ((hclose.ends m).2 hlast').resolve_left hlast
      have hcomma : (C.left.tokenAt m).kind ≠ .comma := by
        rcases hkind with h | h
        all_goals
          rw [h]
          decide
      obtain ⟨e, hrun⟩ := exists_error_of_expect sought hcomma
      exact of_error_bind htail hrun
    rw [if_neg hlast']
    refine bind (expect (Coupling.kind_iff (by decide) (by decide)) (by decide)) ?_
    rintro _ _ _ ⟨rfl, rfl, rfl, hcomma⟩
    have hm := Coupling.lt_length (by rw [hcomma]; decide)
    have hstep : C.Passes m (m + 1) := .step hm (by rw [hcomma]; rfl) (by rw [hcomma]; rfl)
    have hn := hpasses.1
    refine (ih _ (by omega) hV rfl).mono ?_
    rintro m' a' b' ⟨⟨hpasses', hV'⟩, hend'⟩
    exact ⟨⟨hpasses.trans (hstep.trans hpasses'), hV'⟩, hend'⟩

/-- Paths are read in step, by induction on the tokens that are left. -/
lemma pathSegments {i : Nat} {last last' : Token} (hi : i ≤ n)
    (hlast : ∃ j, i ≤ j ∧ j < C.left.body.length ∧
      last = C.left.tokenAt j ∧ last' = C.right.tokenAt j) :
    Reads C n (pathSegments last) (pathSegments last') fun t u =>
      ∃ j, i ≤ j ∧ j < C.left.body.length ∧ t = C.left.tokenAt j ∧ u = C.right.tokenAt j := by
  induction hlength : C.left.body.length - n using Nat.strong_induction_on
    generalizing n last last' with
  | _ d ih =>
    rw [Reads, Follows, run_pathSegments_eq_bind C.left_eof, run_pathSegments_eq_bind C.right_eof,
      ← Follows]
    have hplain {kind : TokenKind} (h : kind = .pathSep || kind = .dot) :
        kind ≠ .eof ∧ kind.isOpener = false ∧ kind.isCloser = false := by
      rcases (Bool.or_eq_true ..).mp h with h | h
      all_goals
        rw [of_decide_eq_true h]
        decide
    refine current_bind (ite ?_ (fun hsep => ?_) fun _ => pure ⟨.refl, hlast⟩)
    · simp only [Bool.or_eq_true, decide_eq_true_eq]
      exact or_congr (Coupling.kind_iff (by decide) (by decide))
        (Coupling.kind_iff (by decide) (by decide))
    obtain ⟨heof, hopener, hcloser⟩ := hplain hsep
    have hn := Coupling.lt_length heof
    have hstep := Coupling.Closes.step hn hopener hcloser
    refine bind (skip_one hn) ?_
    rintro _ - - rfl
    refine bind (expect (Coupling.kind_iff (by decide) (by decide)) (by decide)) ?_
    rintro _ _ _ ⟨rfl, rfl, rfl, hident⟩
    have hm : n + 1 < C.left.body.length := Coupling.lt_length (by rw [hident]; decide)
    have hname := Coupling.Closes.step hm (by rw [hident]; rfl) (by rw [hident]; rfl)
    refine (ih _ (by omega) (by omega)
      ⟨n + 1, by omega, hm, rfl, Coupling.rightAt_of_lt hm⟩ rfl).mono ?_
    rintro m t u ⟨hpasses, hV⟩
    exact ⟨hstep.trans (hname.trans hpasses), hV⟩

end Follows

end Parser

end FieldComposition
