import FieldComposition.Number.Binary64

/-!
# Decimal forms

Decimal digits of a binary number to a given number of places, behind the point (`fixed`) or in
all (`significant`). Both are exact: the nearest decimal with that many digits, a tie to the even
one.
-/

namespace FieldComposition.Number

/-- A number a hundred times as large. -/
def Binary64.hundredfold : Binary64 → Binary64
  | finite isNegative mantissa exponent =>
    let (num, den) := scaleBinary mantissa 1 (-exponent)
    ofRatio isNegative (100 * num) den
  | x => x

/-- The integer nearest to `num / den * 10 ^ places`, a tie to the even one. -/
def scaleDecimal (num den : Nat) (places : Int) : Nat :=
  if 0 ≤ places then divideToEven (num * Nat.pow 10 places.toNat) den
  else divideToEven num (den * Nat.pow 10 (-places).toNat)

/-- Decimal digits with their point: the first `point` of the digits stand before it. A point that
is not positive stands before the first digit, with zeros between them. -/
structure Decimal where
  digits : List Char
  point : Int
  deriving DecidableEq, Repr

namespace Decimal

/-- A fraction to a number of places behind the point. -/
def fixed (num den places : Nat) : Decimal :=
  let digits := Nat.toDigits 10 (scaleDecimal num den places)
  let digits := List.replicate (places + 1 - digits.length) '0' ++ digits
  ⟨digits, digits.length - places⟩

/-- A fraction to a positive number of places from its first digit on. -/
def significant (num den places : Nat) : Decimal :=
  if num = 0 then ⟨List.replicate places '0', 1⟩
  else
    let exponent := Binary64.floorLog10 num den
    let n := scaleDecimal num den (places - 1 - exponent)
    -- Rounding up may lead to the next power of ten, which has one digit more.
    if n = Nat.pow 10 places then ⟨Nat.toDigits 10 (n / 10), exponent + 2⟩
    else ⟨Nat.toDigits 10 n, exponent + 1⟩

/-- The fewest digits that lead back to a number. -/
def shortest (mantissa : Nat) (exponent : Int) : Decimal :=
  if mantissa = 0 then ⟨['0'], 1⟩
  else
    let (value, power) := Binary64.shortest mantissa exponent
    let digits := Nat.toDigits 10 value
    ⟨(Binary64.dropZeros digits).1, digits.length + power⟩

/-- A decimal without the zeros at its end; one digit stays. -/
def dropZeros (d : Decimal) : Decimal :=
  let kept := (Binary64.dropZeros d.digits).1
  if kept.isEmpty then ⟨['0'], d.point⟩ else ⟨kept, d.point⟩

def isZero (d : Decimal) : Bool :=
  d.digits.all (· == '0')

/-- The digits before the point, at least one. -/
def whole (d : Decimal) : List Char :=
  if d.point ≤ 0 then ['0']
  else
    let digits := d.digits.take d.point.toNat
    digits ++ List.replicate (d.point.toNat - digits.length) '0'

/-- The digits behind the point. -/
def fraction (d : Decimal) : List Char :=
  List.replicate (-d.point).toNat '0' ++ d.digits.drop d.point.toNat

end Decimal

end FieldComposition.Number
