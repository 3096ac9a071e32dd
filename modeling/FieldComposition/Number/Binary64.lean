/-!
# Binary floating point numbers

The numbers of the 64-bit binary format, as exact dyadic fractions. `ofRatio` rounds a fraction to
the nearest number, a tie to the even mantissa; `shortest` finds the fewest decimal digits that
lead back to a number.
-/

namespace FieldComposition.Number

/-- A number `± mantissa * 2 ^ exponent`, an infinity, or no number. -/
inductive Binary64 where
  | finite (negative : Bool) (mantissa : Nat) (exponent : Int)
  | infinite (negative : Bool)
  | nan
  deriving DecidableEq, Repr

/-- A quotient rounded to the nearest integer, a tie to the even one. -/
def divideToEven (num den : Nat) : Nat :=
  let quotient := num / den
  let twice := 2 * (num % den)
  if twice < den then quotient
  else if den < twice then quotient + 1
  else if quotient % 2 = 0 then quotient else quotient + 1

/-- Numerator and denominator of `num / den / 2 ^ e`. -/
def scaleBinary (num den : Nat) (e : Int) : Nat × Nat :=
  if 0 ≤ e then (num, den * Nat.pow 2 e.toNat) else (num * Nat.pow 2 (-e).toNat, den)

/-- The largest `e` with `2 ^ e ≤ num / den`. -/
def floorLog2 (num den : Nat) : Int :=
  let guess : Int := (Nat.log2 num : Int) - (Nat.log2 den : Int)
  let (n, d) := scaleBinary num den guess
  if d ≤ n then guess else guess - 1

namespace Binary64

/-- The least exponent of a finite number. -/
def minExponent : Int :=
  -1074

/-- The greatest exponent of a finite number. -/
def maxExponent : Int :=
  971

/-- Mantissas stay below this number. -/
def mantissaLimit : Nat :=
  9007199254740992

/-- The number nearest to a fraction. -/
def ofRatio (negative : Bool) (num den : Nat) : Binary64 :=
  if num = 0 then finite negative 0 minExponent
  else
    let exponent := max (floorLog2 num den - 52) minExponent
    let (n, d) := scaleBinary num den exponent
    let mantissa := divideToEven n d
    let (mantissa, exponent) :=
      if mantissa = mantissaLimit then (mantissaLimit / 2, exponent + 1)
      else (mantissa, exponent)
    if maxExponent < exponent then infinite negative else finite negative mantissa exponent

/-- The number nearest to `digits * 10 ^ exponent`; powers beyond the format are not computed. -/
def ofDecimal (negative : Bool) (digits : Nat) (exponent : Int) : Binary64 :=
  if digits = 0 then finite negative 0 minExponent
  else
    let magnitude := exponent + (Nat.log2 digits : Int)
    if 400 < exponent then infinite negative
    else if exponent < 0 && magnitude < -5000 then finite negative 0 minExponent
    else if 0 ≤ exponent then ofRatio negative (digits * Nat.pow 10 exponent.toNat) 1
    else ofRatio negative digits (Nat.pow 10 (-exponent).toNat)

def ofInt (n : Int) : Binary64 :=
  ofRatio (n < 0) n.natAbs 1

def isZero : Binary64 → Bool
  | finite _ mantissa _ => mantissa = 0
  | _ => false

/-- The integer that a number is equal to, if there is one. -/
def toInt? : Binary64 → Option Int
  | finite negative mantissa exponent =>
    let (n, d) := scaleBinary mantissa 1 (-exponent)
    if n % d = 0 then some (if negative then -(n / d : Nat) else (n / d : Nat)) else none
  | _ => none

/-- The part of a number before the point. -/
def truncate? : Binary64 → Option Int
  | finite negative mantissa exponent =>
    let (n, d) := scaleBinary mantissa 1 (-exponent)
    some (if negative then -(n / d : Nat) else (n / d : Nat))
  | _ => none

/-- Equality of values: the zeros are equal, and `nan` differs from itself. -/
def equals : Binary64 → Binary64 → Bool
  | nan, _ => false
  | _, nan => false
  | x, y => x == y || (x.isZero && y.isZero)

def equalsInt (x : Binary64) (n : Int) : Bool :=
  x.toInt? == some n

def abs : Binary64 → Binary64
  | finite _ mantissa exponent => finite false mantissa exponent
  | infinite _ => infinite false
  | nan => nan

/-- The largest `e` with `10 ^ e ≤ num / den`, found among the few candidates that the binary
logarithm leaves. -/
def floorLog10 (num den : Nat) : Int :=
  let guess : Int := (floorLog2 num den * 30103) / 100000
  let reaches (e : Int) : Bool :=
    if 0 ≤ e then den * Nat.pow 10 e.toNat ≤ num else den ≤ num * Nat.pow 10 (-e).toNat
  if reaches (guess + 1) then guess + 1 else if reaches guess then guess else guess - 1

/-- The decimals with a given number of digits next to a fraction, as digits and exponent of ten;
the nearer one comes first. -/
def decimalNeighbours (num den : Nat) (places : Nat) : List (Nat × Int) :=
  let exponent := floorLog10 num den - (places - 1 : Nat)
  let (n, d) :=
    if 0 ≤ exponent then (num, den * Nat.pow 10 exponent.toNat)
    else (num * Nat.pow 10 (-exponent).toNat, den)
  let below := n / d
  if n % d = 0 then [(below, exponent)]
  else if 2 * (n % d) < d || (2 * (n % d) = d && below % 2 = 0) then
    [(below, exponent), (below + 1, exponent)]
  else [(below + 1, exponent), (below, exponent)]

/-- The first decimal with a number of digits among `counts` that leads back to a mantissa and an
exponent. -/
def shortestAmong (mantissa : Nat) (exponent : Int) : List Nat → Nat × Int
  | [] => (mantissa, 0)
  | places :: more =>
    let (num, den) := scaleBinary mantissa 1 (-exponent)
    match (decimalNeighbours num den places).find? fun decimal =>
        ofDecimal false decimal.1 decimal.2 == finite false mantissa exponent with
    | some decimal => decimal
    | none => shortestAmong mantissa exponent more

/-- The fewest decimal digits that lead back to a number, and the power of ten they count. -/
def shortest (mantissa : Nat) (exponent : Int) : Nat × Int :=
  shortestAmong mantissa exponent (List.range' 1 17)

/-- Digits without the zeros at their end, and how many these are. -/
def dropZeros : List Char → List Char × Nat
  | cs =>
    let kept := (cs.reverse.dropWhile (· == '0')).reverse
    (kept, cs.length - kept.length)

/-- The digits with a point after the first `point` of them, filled up with zeros. -/
def positional (digits : List Char) (point : Int) : List Char :=
  if point ≤ 0 then '0' :: '.' :: List.replicate (-point).toNat '0' ++ digits
  else
    let whole := digits.take point.toNat
    let fraction := digits.drop point.toNat
    whole ++ List.replicate (point.toNat - whole.length) '0' ++ '.' ::
      (if fraction.isEmpty then ['0'] else fraction)

/-- One digit, a point if there are more, and a power of ten with a sign and two places. -/
def scientific (digits : List Char) (point : Int) : List Char :=
  let power := point - 1
  let size := Nat.toDigits 10 power.natAbs
  digits.take 1 ++ (if digits.length ≤ 1 then [] else '.' :: digits.drop 1) ++
    ['e', if power < 0 then '-' else '+'] ++ List.replicate (2 - size.length) '0' ++ size

/-- A number by its shortest digits: positional from `0.0001` up to sixteen whole digits, with a
power of ten beyond. -/
def render : Binary64 → String
  | nan => "nan"
  | infinite negative => if negative then "-inf" else "inf"
  | finite negative mantissa exponent =>
    let sign := if negative then ['-'] else []
    if mantissa = 0 then String.ofList (sign ++ ['0', '.', '0'])
    else
      let (value, power) := shortest mantissa exponent
      let (digits, zeros) := dropZeros (Nat.toDigits 10 value)
      let point := digits.length + zeros + power
      let body := if -4 < point && point ≤ 16 then positional digits point
        else scientific digits point
      String.ofList (sign ++ body)

end Binary64

end FieldComposition.Number
