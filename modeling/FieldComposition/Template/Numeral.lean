import FieldComposition.Number.Decimal
import FieldComposition.Template.Spec
import FieldComposition.Value.Printer

/-!
# Numbers in templates

Integers are written in one of four bases or as the character of a code, reals with a number of
places or with the fewest digits that lead back to them. What a letter makes of a number is a
`Numeral`, which the specification then fits in.
-/

namespace FieldComposition

/-- The parts of a written number. -/
structure Numeral where
  isNegative : Bool := false
  /-- What shows the base of an integer. -/
  mark : String := ""
  /-- The digits that are put into groups. -/
  whole : List Char := []
  groupSize : Nat := 3
  rest : List Char
  deriving DecidableEq, Repr

namespace Numeral

/-- Digits with a sign between groups that are counted from the end. -/
def separate (separator : Char) (size : Nat) : List Char → List Char
  | [] => []
  | c :: rest =>
    if !rest.isEmpty && rest.length % size = 0 then c :: separator :: separate separator size rest
    else c :: separate separator size rest

/-- Digits in groups, with zeros in front of them so that they take at least `least` places. -/
def grouped (separator : Option Char) (size least : Nat) (digits : List Char) : List Char :=
  let filled (count : Nat) := List.replicate (count - digits.length) '0' ++ digits
  match separator with
  | none => filled least
  | some separator => separate separator size (filled (least - (least - 1) / (size + 1)))

/-! ### Integers -/

/-- An integer in a base. -/
def ofInt (base : Nat) (mark : String) (n : Int) : Numeral where
  isNegative := n < 0
  mark
  whole := Nat.toDigits base n.natAbs
  groupSize := if base = 10 then 3 else 4
  rest := []

/-- A number with capital letters. -/
def toUpper (n : Numeral) : Numeral :=
  { n with mark := n.mark.toUpper, whole := n.whole.map Char.toUpper,
           rest := n.rest.map Char.toUpper }

/-- The greatest code of a character. -/
def greatestCode : Nat :=
  0x10FFFF

/-- The character of a code; half a surrogate pair, which is none here, gives the replacement
character. -/
def ofCode (code : Nat) : Numeral where
  rest := [if code.isValidChar then Char.ofNat code else '\uFFFD']

/-! ### Reals -/

/-- What follows the digits before the point. -/
def behindWhole (isAlternate : Bool) (fraction : List Char) : List Char :=
  if fraction.isEmpty && !isAlternate then [] else '.' :: fraction

/-- A decimal that is written without a power of ten. -/
def positional (isAlternate : Bool) (d : Number.Decimal) : Numeral where
  whole := d.whole
  rest := behindWhole isAlternate d.fraction

/-- A decimal as one digit and its power of ten, which has a sign and at least two places. -/
def scientific (isAlternate : Bool) (d : Number.Decimal) : Numeral :=
  let power := d.point - 1
  let size := Nat.toDigits 10 power.natAbs
  { whole := d.digits.take 1
    rest := behindWhole isAlternate (d.digits.drop 1) ++
      ['e', if power < 0 then '-' else '+'] ++ List.replicate (2 - size.length) '0' ++ size }

/-- A decimal that is written with a power of ten if its point is far from its digits. -/
def general (isAlternate : Bool) (limit : Int) (d : Number.Decimal) : Numeral :=
  if d.point ≤ -4 || limit < d.point then scientific isAlternate d
  else positional isAlternate d

/-- The same where a number without a power of ten has a digit behind its point. -/
def generalWithPoint (isAlternate : Bool) (limit : Int) (d : Number.Decimal) : Numeral :=
  let n := general isAlternate limit d
  if n.rest.isEmpty || n.rest = ['.'] then { n with rest := ['.', '0'] } else n

/-- A fraction by a letter, or without one, and whether all its digits are zeros. -/
def ofFraction (spec : FormatSpec) (mantissa : Nat) (exponent : Int) : Numeral × Bool :=
  let (num, den) := Number.scaleBinary mantissa 1 (-exponent)
  let precision := spec.precision.getD 6
  let positive := if precision = 0 then 1 else precision
  let trimmed (d : Number.Decimal) := if spec.isAlternate then d else d.dropZeros
  match spec.letter with
  | none =>
    match spec.precision with
    | none =>
      let d := Number.Decimal.shortest mantissa exponent
      (generalWithPoint spec.isAlternate 16 d, d.isZero)
    | some _ =>
      let d := trimmed (.significant num den positive)
      (generalWithPoint spec.isAlternate (positive - 1) d, d.isZero)
  | some letter =>
    if letter = 'e' || letter = 'E' then
      let d := Number.Decimal.significant num den (precision + 1)
      (scientific spec.isAlternate d, d.isZero)
    else if letter = 'g' || letter = 'G' || letter = 'n' then
      let d := trimmed (.significant num den positive)
      (general spec.isAlternate positive d, d.isZero)
    else
      let d := Number.Decimal.fixed num den precision
      (positional spec.isAlternate d, d.isZero)

/-- Letters by which a real is written. -/
def realLetters : List Char :=
  ['e', 'E', 'f', 'F', 'g', 'G', 'n', '%']

/-- A real by a letter, or without one. A capital letter makes capitals of all, and as a percentage
it is a hundred times as large. -/
def ofReal (spec : FormatSpec) (x : Number.Binary64) : Numeral :=
  let isPercentage := spec.letter == some '%'
  let n : Numeral := match if isPercentage then x.hundredfold else x with
    | .nan => { rest := ['n', 'a', 'n'] }
    | .infinite isNegative => { isNegative, rest := ['i', 'n', 'f'] }
    | .finite isNegative mantissa exponent =>
      let (n, isZero) := ofFraction spec mantissa exponent
      { n with isNegative := isNegative && !(isZero && spec.dropsZeroSign) }
  if isPercentage then { n with rest := n.rest ++ ['%'] }
  else if (spec.letter.getD 'r').isUpper then n.toUpper
  else n

end Numeral

namespace FormatSpec

/-- Fits a number in: its sign, its groups of digits, and what fills it up to the width. -/
def applyToNumeral (spec : FormatSpec) (n : Numeral) : String :=
  let sign := if n.isNegative then "-" else match spec.sign with
    | some .plus => "+"
    | some .blank => " "
    | _ => ""
  let front := sign ++ n.mark
  let alignment := spec.alignment.getD (if spec.padsNumber then .afterSign else .right)
  -- Zeros behind the sign belong to the digits, so that they are put into groups as well.
  let least := if spec.fill = '0' && alignment = .afterSign then
      spec.width - (front.length + n.rest.length)
    else 0
  let digits := if n.whole.isEmpty then []
    else Numeral.grouped spec.separator n.groupSize least n.whole
  spec.pad alignment front (String.ofList (digits ++ n.rest))

/-- The greatest number of places that a real is written with. -/
def greatestPrecision : Nat :=
  2147483647

def applyToReal (spec : FormatSpec) (x : Number.Binary64) : Except TemplateFault String :=
  if spec.letter.all Numeral.realLetters.contains &&
      spec.precision.all (· ≤ greatestPrecision) then
    .ok (spec.applyToNumeral (.ofReal spec x))
  else .error .malformed

/-- An integer as the character of that code. -/
def applyToCode (spec : FormatSpec) (n : Int) : Except TemplateFault String :=
  if spec.sign.isSome || spec.isAlternate then .error .malformed
  else if 0 ≤ n && n ≤ Numeral.greatestCode then
    .ok (spec.applyToNumeral (.ofCode n.toNat))
  else .error .tooLarge

def applyToInt (spec : FormatSpec) (n : Int) : Except TemplateFault String :=
  let letter := spec.letter.getD 'd'
  let inBase (base : Nat) (mark : String) : Numeral :=
    .ofInt base (if spec.isAlternate then mark else "") n
  if Numeral.realLetters.contains letter && letter ≠ 'n' then
    match Number.Binary64.ofInt n with
    | .infinite _ => .error .tooLarge
    | x => spec.applyToReal x
  else if spec.precision.isSome || spec.dropsZeroSign then .error .malformed
  else match letter with
    | 'd' | 'n' =>
      if (Value.int n).isWritable then .ok (spec.applyToNumeral (inBase 10 ""))
      else .error .overlong
    | 'b' => .ok (spec.applyToNumeral (inBase 2 "0b"))
    | 'o' => .ok (spec.applyToNumeral (inBase 8 "0o"))
    | 'x' => .ok (spec.applyToNumeral (inBase 16 "0x"))
    | 'X' => .ok (spec.applyToNumeral (inBase 16 "0x").toUpper)
    | 'c' => spec.applyToCode n
    | _ => .error .malformed

end FormatSpec

/-- A value as a specification, which may be empty, asks for it. -/
def Value.format (spec : List Char) (v : Value) : Except TemplateFault String :=
  if spec.isEmpty then
    if v.isWritable then .ok v.display else .error .overlong
  else match v with
    | text s => do (← FormatSpec.ofChars spec).applyToText s
    | int n => do (← FormatSpec.ofChars spec).applyToInt n
    | bool b => do (← FormatSpec.ofChars spec).applyToInt b.toInt
    | real x => do (← FormatSpec.ofChars spec).applyToReal x
    | _ => .error .unformattable

end FieldComposition
