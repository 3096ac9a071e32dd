import FieldComposition.Number.Reading
import FieldComposition.Toml
import FieldComposition.Toml.Digits

/-!
# Numbers

Integers in four bases and real numbers. A decimal number does not start with a zero unless that
is its whole integer part, and a decimal integer has `maxDigits` digits at most.
-/

namespace FieldComposition.Toml

open Reader

/-- A whole number after its base is known. -/
def radixInteger (mark : Char) (base : Nat) (isDigit : Char → Bool) : Reader Value := do
  expect ['0', mark]
  return .integer (radixValue base (← digits isDigit) : Nat)

def sign : Reader Bool := do
  if ← accepts ['-'] then return true
  else
    let _ ← accepts ['+']
    return false

/-- The whole part of a decimal number: zero, or digits that do not start with a zero. -/
def wholePart : Reader (List Char) := do
  if ← accepts ['0'] then return ['0'] else digits Char.isDigit

def fractionPart : Reader (List Char) := do
  expect ['.']
  digits Char.isDigit

/-- The most digits of a decimal integer that is converted. -/
def maxDigits : Nat :=
  4300

/-- An integer by its decimal digits. -/
def decimalInteger (negative : Bool) (digits : List Char) : Reader Value := do
  if maxDigits < digits.length then failWith (.overlong digits.length)
  let size : Int := Number.digitsValue digits
  return .integer (if negative then -size else size)

def exponentPart : Reader Int := do
  unless ← accepts ['e'] do expect ['E']
  let negative ← sign
  let size : Int := Number.digitsValue (← digits Char.isDigit)
  return if negative then -size else size

/-- A decimal number; with a fraction or an exponent it is real. -/
def decimal : Reader Value := do
  let negative ← sign
  let whole ← wholePart
  let fraction ← attempt fractionPart
  let exponent ← attempt exponentPart
  if fraction.isNone && exponent.isNone then decimalInteger negative whole
  else
    let places := fraction.getD []
    return .real (.ofDecimal negative (Number.digitsValue (whole ++ places))
      (exponent.getD 0 - places.length))

def specialReal : Reader Value := do
  let negative ← sign
  if ← accepts ['i', 'n', 'f'] then return .real (.infinite negative)
  expect ['n', 'a', 'n']
  return .real .nan

def number : Reader Value :=
  firstOf
    [radixInteger 'x' 16 isHexDigit, radixInteger 'b' 2 fun c => c == '0' || c == '1',
      radixInteger 'o' 8 fun c => '0' ≤ c && c ≤ '7', decimal, specialReal]

end FieldComposition.Toml
