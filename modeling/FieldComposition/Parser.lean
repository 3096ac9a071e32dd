import FieldComposition.Reading
import FieldComposition.Token.Lexer
import FieldComposition.Text.Search

/-!
# Parsers

A parser reads tokens from the front of a list and leaves the rest, which is never longer than
what it was given. That bound is part of the result, so a list of items that are separated by
commas (`separated`) ends because every comma that is passed shortens the rest. `run` forgets the
bound; `run_bind` and its companions say what each step does.
-/

namespace FieldComposition

/-- What a parser reads from besides the tokens: the host, the text and the end of the text. -/
structure Source where
  host : Host
  text : String
  eof : Token
  deriving DecidableEq, Repr

def Parser (α : Type) : Type :=
  Source → (tokens : List Token) → Except ReadError (Reading Token α tokens.length)

namespace Parser

variable {α β σ : Type}

/-- The result of a parser without the bound on what is left. -/
def run (p : Parser α) (src : Source) (tokens : List Token) : Except ReadError (α × List Token) :=
  match p src tokens with
  | .error e => .error e
  | .ok r => .ok (r.value, r.rest)

protected def pure (a : α) : Parser α :=
  fun _ tokens => .ok ⟨a, tokens, Nat.le_refl _⟩

protected def bind (p : Parser α) (f : α → Parser β) : Parser β :=
  fun src tokens =>
    match p src tokens with
    | .error e => .error e
    | .ok r =>
      match f r.value src r.rest with
      | .error e => .error e
      | .ok s => .ok (s.weaken r.length_le)

instance : Monad Parser where
  pure := Parser.pure
  bind := Parser.bind

@[simp] theorem run_pure (a : α) (src : Source) (tokens : List Token) :
    (pure a : Parser α).run src tokens = .ok (a, tokens) := rfl

@[simp] theorem run_bind (p : Parser α) (f : α → Parser β) (src : Source)
    (tokens : List Token) :
    (p >>= f).run src tokens =
      match p.run src tokens with
      | .error e => .error e
      | .ok (a, rest) => (f a).run src rest := by
  change (Parser.bind p f).run src tokens = _
  unfold run Parser.bind
  cases p src tokens with
  | error e => rfl
  | ok r =>
    dsimp only
    cases f r.value src r.rest <;> rfl

theorem length_le_of_run {p : Parser α} {src : Source} {tokens rest : List Token} {a : α}
    (h : p.run src tokens = .ok (a, rest)) : rest.length ≤ tokens.length := by
  unfold run at h
  cases hp : p src tokens with
  | error e => simp [hp] at h
  | ok r =>
    rw [hp] at h
    injection h with h
    injection h with _ hrest
    exact hrest ▸ r.length_le

def failAt (fault : SyntaxFault) (position : Position) : Parser α :=
  fun _ _ => .error (.fault fault position)

/-- Reports a fault at a token. -/
def fail (fault : SyntaxFault) (t : Token) : Parser α :=
  failAt fault t.position

@[simp] theorem run_failAt (fault : SyntaxFault) (position : Position) (src : Source)
    (tokens : List Token) :
    (failAt fault position : Parser α).run src tokens = .error (.fault fault position) := rfl

@[simp] theorem run_fail (fault : SyntaxFault) (t : Token) (src : Source) (tokens : List Token) :
    (fail fault t : Parser α).run src tokens = .error (.fault fault t.position) := rfl

/-- The next token, which stays unread. -/
def current : Parser Token :=
  fun src tokens => .ok ⟨tokens.headD src.eof, tokens, Nat.le_refl _⟩

/-- The token after the next one. -/
def following : Parser Token :=
  fun src tokens => .ok ⟨tokens.tail.headD src.eof, tokens, Nat.le_refl _⟩

def remaining : Parser (List Token) :=
  fun _ tokens => .ok ⟨tokens, tokens, Nat.le_refl _⟩

/-- Reads a number of tokens; the end is never passed. -/
def skip (n : Nat) : Parser Unit :=
  fun _ tokens => .ok ⟨(), tokens.drop n, by rw [List.length_drop]; exact Nat.sub_le ..⟩

/-- Reads the next token. -/
def advance : Parser Token := do
  let t ← current
  skip 1
  return t

/-- The host text from the start of one token to the end of another. -/
def textBetween (first last : Token) : Parser String :=
  fun src tokens => .ok ⟨Text.slice src.text first.start last.stop, tokens, Nat.le_refl _⟩

def isName (t : Token) : Parser Bool :=
  fun src tokens =>
    .ok ⟨t.kind == .ident || (src.host.hasSoftKeywords && t.kind.isSoftKeyword), tokens,
      Nat.le_refl _⟩

@[simp] theorem run_current (src : Source) (tokens : List Token) :
    current.run src tokens = .ok (tokens.headD src.eof, tokens) := rfl

@[simp] theorem run_following (src : Source) (tokens : List Token) :
    following.run src tokens = .ok (tokens.tail.headD src.eof, tokens) := rfl

@[simp] theorem run_remaining (src : Source) (tokens : List Token) :
    remaining.run src tokens = .ok (tokens, tokens) := rfl

@[simp] theorem run_skip (n : Nat) (src : Source) (tokens : List Token) :
    (skip n).run src tokens = .ok ((), tokens.drop n) := rfl

@[simp] theorem run_advance (src : Source) (tokens : List Token) :
    advance.run src tokens = .ok (tokens.headD src.eof, tokens.drop 1) := rfl

/-- What a message says about a token that was not sought. -/
def found (t : Token) : Found :=
  if t.kind = .eof then .endOfInput else .text t.value

/-- Reads a token of the given kind. -/
def expect (kind : TokenKind) (sought : Sought) : Parser Token := do
  let t ← current
  if t.kind = kind then advance
  else fail (.expected sought (found t)) t

/-- Reads the next token if it is of the given kind. -/
def accept? (kind : TokenKind) : Parser (Option Token) := do
  let t ← current
  if t.kind = kind then
    skip 1
    return some t
  else return none

def accepts (kind : TokenKind) : Parser Bool := do
  return (← accept? kind).isSome

def expectEnd : Parser Unit := do
  let t ← current
  unless t.kind = .eof do fail (.trailing t.value) t

/-- Reads a name, which a soft keyword may be. -/
def expectName (sought : Sought) : Parser Token := do
  if ← isName (← current) then advance else expect .ident sought

/-- Reads items up to a token of the kind `close`, which stays unread. Between two items stands a
comma, and one may stand after the last item. The items end early before a token of which `stops`
holds. Each item changes the state that is handed on. -/
def separated (close : TokenKind) (stops : TokenKind → Bool) (sought : Sought)
    (item : σ → Parser σ) (s : σ) : Parser σ :=
  fun src tokens =>
    let t := tokens.headD src.eof
    if t.kind = close || stops t.kind then .ok ⟨s, tokens, Nat.le_refl _⟩
    else
      match item s src tokens with
      | .error e => .error e
      | .ok ⟨s', rest, h⟩ =>
        let u := rest.headD src.eof
        if u.kind = close then .ok ⟨s', rest, h⟩
        else
          match rest, h with
          | [], _ => .error (.fault (.expected sought (found u)) u.position)
          | v :: more, h =>
            if v.kind = .comma then
              match separated close stops sought item s' src more with
              | .error e => .error e
              | .ok r => .ok (r.weaken (Nat.le_of_succ_le h))
            else .error (.fault (.expected sought (found u)) u.position)
termination_by _ tokens => tokens.length

end Parser

end FieldComposition
