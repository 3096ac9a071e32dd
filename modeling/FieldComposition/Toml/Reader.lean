import FieldComposition.Reading
import FieldComposition.Toml

/-!
# Readers of characters

A reader takes characters from the front of a list and leaves the rest, which is never longer than
what it was given. Where a text is malformed another reader may be tried (`attempt`, `firstOf`), but
a number with too many digits ends all reading.
-/

namespace FieldComposition.Toml

def Reader (α : Type) : Type :=
  (cs : List Char) → Except Fault (Reading Char α cs.length)

namespace Reader

variable {α β : Type}

protected def pure (a : α) : Reader α :=
  fun cs => .ok (.stay a cs)

protected def bind (p : Reader α) (f : α → Reader β) : Reader β :=
  fun cs =>
    match p cs with
    | .error fault => .error fault
    | .ok r => (f r.value r.rest).map (·.weaken r.length_le)

instance : Monad Reader where
  pure := Reader.pure
  bind := Reader.bind

def failWith (fault : Fault) : Reader α :=
  fun _ => .error fault

def fail : Reader α :=
  failWith .malformed

/-- The next character, which stays unread. -/
def peek : Reader (Option Char) :=
  fun cs => .ok (.stay cs.head? cs)

/-- Reads up to a number of characters. -/
def take (n : Nat) : Reader (List Char) :=
  fun cs => .ok ⟨cs.take n, cs.drop n, (List.drop_sublist n cs).length_le⟩

def skip (n : Nat) : Reader Unit := do
  let _ ← take n

def takeWhile (p : Char → Bool) : Reader (List Char) :=
  fun cs => .ok ⟨cs.takeWhile p, cs.dropWhile p, (List.dropWhile_sublist p).length_le⟩

/-- Whether a text comes next. -/
def sees (text : List Char) : Reader Bool :=
  fun cs => .ok (.stay (text.isPrefixOf cs) cs)

/-- Reads a text if it comes next. -/
def accepts (text : List Char) : Reader Bool := do
  if ← sees text then
    skip text.length
    return true
  else return false

def expect (text : List Char) : Reader Unit := do
  unless ← accepts text do fail

/-- Reads something if it comes next, and nothing otherwise. -/
def attempt (p : Reader α) : Reader (Option α) :=
  fun cs =>
    match p cs with
    | .ok r => .ok (r.map some)
    | .error .malformed => .ok (.stay none cs)
    | .error fault => .error fault

/-- The first of several readers that reads something. -/
def firstOf : List (Reader α) → Reader α
  | [] => fail
  | p :: more => fun cs =>
    match p cs with
    | .error .malformed => firstOf more cs
    | result => result

/-- What a reader reads, with its text. -/
def withText (p : Reader α) : Reader (α × String) :=
  fun cs =>
    (p cs).map fun r => r.map fun a => (a, String.ofList (cs.take (cs.length - r.rest.length)))

end Reader

end FieldComposition.Toml
