import FieldComposition.Number.Reading
import FieldComposition.Value

/-!
# Integers in raw values

The integer that a raw value stands for: an integer, a truth value, a real without a fraction, or a
text. Spaces around the digits of a text, a sign, leading zeros and single underscores are allowed,
and a point with zeros behind it.
-/

namespace FieldComposition.StandIn

/-- Why a value is no integer. -/
inductive IntegerFault where
  | notANumber
  | unreadable
  | fractional
  deriving DecidableEq, Repr

namespace IntegerFault

def rule : IntegerFault → String
  | notANumber => "int_type"
  | unreadable => "int_parsing"
  | fractional => "int_from_float"

def message : IntegerFault → String
  | notANumber => "Input should be a valid integer"
  | unreadable => "Input should be a valid integer, unable to parse string as an integer"
  | fractional => "Input should be a valid integer, got a number with a fractional part"

end IntegerFault

/-- A text without its leading zeros, between which underscores may stand. What follows them is a
digit or a point, or else nothing; in the last two cases one character before it stays. -/
def dropLeadingZeros? : List Char → Option (List Char)
  | [] => none
  | c :: rest =>
    if c = '0' then
      let zeros := rest.takeWhile fun d => d == '0' || d == '_'
      match rest.drop zeros.length with
      | [] => some [zeros.getLastD c]
      | d :: more =>
        if d.isDigit then some (d :: more)
        else if d = '.' then some (zeros.getLastD c :: d :: more)
        else none
    else if c.isDigit || c = '-' then some (c :: rest)
    else none

/-- A text without a point that only zeros follow. -/
def dropZeroFraction (cs : List Char) : List Char :=
  let whole := cs.takeWhile (· != '.')
  let fraction := cs.drop (whole.length + 1)
  if fraction.all (· == '0') then whole else cs

def integerOfText (text : String) : Except IntegerFault Int :=
  let unsigned? := match Number.trim text.toList with
    | '+' :: '-' :: _ => none
    | '+' :: rest => some rest
    | cs => some cs
  let read? := do
    let kept ← dropLeadingZeros? (← unsigned?)
    let whole := dropZeroFraction kept
    Number.readSigned? ((Number.dropUnderscores? whole).getD whole)
  match read? with
  | some n => .ok n
  | none => .error .unreadable

def integerOfReal (x : Number.Binary64) : Except IntegerFault Int :=
  match x.toInt? with
  | some n => .ok n
  | none => .error .fractional

def integerOf : Value → Except IntegerFault Int
  | .int n => .ok n
  | .bool b => .ok b.toInt
  | .real x => integerOfReal x
  | .text s => integerOfText s
  | _ => .error .notANumber

end FieldComposition.StandIn
