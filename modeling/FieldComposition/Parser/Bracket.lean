import FieldComposition.Composition
import FieldComposition.Parser

/-!
# Brackets

Host text inside an invocation is known only by its brackets. `capture` reads it up to a token
that may follow it and stands inside no bracket; each bracket is closed by its own counterpart.
Angle brackets nest as well, in types everywhere and elsewhere only after `::`. `toClose?` finds
the end of a bracket by counting, whatever the kinds of the brackets inside.
-/

namespace FieldComposition

namespace Token

/-- The number of tokens before the one that closes the bracket around them, when `depth` more
brackets are open. -/
def toClose? (depth : Nat) : List Token → Option Nat
  | [] => none
  | t :: rest =>
    if t.kind.isOpener then (toClose? (depth + 1) rest).map (· + 1)
    else if t.kind.isCloser then
      match depth with
      | 0 => some 0
      | outer + 1 => (toClose? outer rest).map (· + 1)
    else (toClose? depth rest).map (· + 1)

/-- The index of the token that closes the bracket at the front of the list. -/
def matchingClose? : List Token → Option Nat
  | [] => none
  | _ :: rest => (toClose? 0 rest).map (· + 1)

end Token

namespace Parser

/-- What a captured text may be and where it ends. -/
structure CaptureRule where
  stops : List TokenKind
  sought : Sought
  /-- Whether every `<` opens a bracket, as in a type. -/
  angles : Bool := false
  deriving Repr

/-- Reads tokens until one that stops the capture. `closers` are the kinds that close the brackets
still open, innermost first, and `last?` is the token read before. The result is the last token
that was read, if any, and the rest. -/
def captureFrom (rule : CaptureRule) (first : Token) (closers : List TokenKind)
    (last? : Option Token) : List Token → Except ReadError (Option Token × List Token)
  | [] =>
    if closers.isEmpty then .ok (last?, [])
    else .error (.fault (.unclosedIn rule.sought) first.position)
  | t :: rest =>
    if closers.isEmpty && rule.stops.contains t.kind then .ok (last?, t :: rest)
    else if let some closer := t.kind.closer? then
      captureFrom rule first (closer :: closers) (some t) rest
    else if t.kind.isCloser then
      match closers with
      | [] => .error (.fault (.unbalancedIn t.value rule.sought) t.position)
      | closer :: outer =>
        if closer = t.kind then captureFrom rule first outer (some t) rest
        else .error (.fault (.mismatchedIn t.value rule.sought) t.position)
    else if t.kind = .less && (rule.angles || (last?.map Token.kind) == some .pathSep) then
      captureFrom rule first (.greater :: closers) (some t) rest
    else
      match t.kind, closers with
      | .greater, .greater :: outer => captureFrom rule first outer (some t) rest
      | .doubleGreater, .greater :: .greater :: outer =>
        captureFrom rule first outer (some t) rest
      | .doubleGreater, .greater :: outer =>
        -- The first half closes a list; the second one is a token of its own.
        if outer.isEmpty && rule.stops.contains .greater then
          .ok (some t.halves.1, t.halves.2 :: rest)
        else captureFrom rule first outer (some t.halves.2) rest
      | _, _ => captureFrom rule first closers (some t) rest

theorem captureFrom_length_le {rule : CaptureRule} {first : Token} {closers : List TokenKind}
    {last? : Option Token} {tokens : List Token} {result : Option Token × List Token}
    (h : captureFrom rule first closers last? tokens = .ok result) :
    result.2.length ≤ tokens.length := by
  induction tokens generalizing closers last? with
  | nil =>
    unfold captureFrom at h
    split at h
    · injection h with h
      simp [← h]
    · simp at h
  | cons t rest ih =>
    unfold captureFrom at h
    repeat' split at h
    all_goals first
      | exact Nat.le_succ_of_le (ih h)
      | (injection h with h; simp [← h])
      | simp at h

/-- Host text up to a token that may follow it. -/
def capture (rule : CaptureRule) : Parser Expression :=
  fun src tokens =>
    let first := tokens.headD src.eof
    match h : captureFrom rule first [] none tokens with
    | .error e => .error e
    | .ok (none, _) => .error (.fault (.expected rule.sought (found first)) first.position)
    | .ok (some last, rest) =>
      .ok ⟨⟨Text.slice src.text first.start last.stop, first.position⟩, rest,
        captureFrom_length_le h⟩

/-- The text of a bracketed part that starts with the token `first` before the bracket. -/
def bracketed (first : Token) (fault : SyntaxFault) : Parser String := do
  let tokens ← remaining
  match Token.matchingClose? tokens with
  | none => fail fault (← current)
  | some index =>
    skip index
    textBetween first (← advance)

end Parser

end FieldComposition
