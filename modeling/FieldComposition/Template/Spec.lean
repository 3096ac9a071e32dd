import FieldComposition.Text.Numerals
import FieldComposition.Value

/-!
# Format specifications

How a value is fitted into a template: a fill character and an alignment, a sign, a zero that
pads numbers, a width, a sign between groups of digits, a precision, and a letter for the kind of
writing. A specification is read without regard to what it is applied to (`FormatSpec.ofChars`).
-/

namespace FieldComposition

inductive Alignment where
  | left | right | center
  /-- The padding stands between a sign and its number. -/
  | afterSign
  deriving DecidableEq, Repr

def Alignment.ofChar? : Char → Option Alignment
  | '<' => some .left
  | '>' => some .right
  | '^' => some .center
  | '=' => some .afterSign
  | _ => none

/-- What is put before a number that is not negative. -/
inductive SignStyle where
  | none | plus | blank
  deriving DecidableEq, Repr

structure FormatSpec where
  fill : Char := ' '
  alignment : Option Alignment := none
  sign : Option SignStyle := none
  /-- Whether a zero loses its sign. -/
  dropsZeroSign : Bool := false
  /-- Whether the base of an integer is marked, and the point of a real always written. -/
  isAlternate : Bool := false
  /-- Whether a zero asks for a number to be padded behind its sign. -/
  padsNumber : Bool := false
  width : Nat := 0
  separator : Option Char := none
  precision : Option Nat := none
  letter : Option Char := none
  deriving DecidableEq, Repr

/-- Why a template cannot be filled in. -/
inductive TemplateFault where
  /-- A brace stands alone, or a field is not written as it has to be. -/
  | malformed
  | noArgument
  | unknownName
  | noField
  | access (fault : Value.AccessFault)
  /-- The value takes no specification. -/
  | unformattable
  /-- An integer has too many digits to be written. -/
  | overlong
  /-- An integer is too large for a real, or is no character. -/
  | tooLarge
  deriving DecidableEq, Repr

/-- Widths, indexes and argument numbers stay below this number, which takes 63 bits. -/
def templateNumberLimit : Nat :=
  9223372036854775808

/-- A number in decimal digits of any script, if the text holds nothing else. -/
def templateNumber? (cs : List Char) : Except TemplateFault (Option Nat) :=
  match cs.mapM Text.digitValue? with
  | none => .ok none
  | some digits =>
    let n := digits.foldl (fun n d => 10 * n + d) 0
    if digits.isEmpty then .ok none
    else if n < templateNumberLimit then .ok (some n)
    else .error .malformed

namespace FormatSpec

/-- A fill character and an alignment, or an alignment alone, and what follows them. -/
def readAlignment : List Char → Option Char × Option Alignment × List Char
  | [] => (none, none, [])
  | [c] =>
    match Alignment.ofChar? c with
    | some alignment => (none, some alignment, [])
    | none => (none, none, [c])
  | c :: d :: rest =>
    match Alignment.ofChar? d with
    | some alignment => (some c, some alignment, rest)
    | none =>
      match Alignment.ofChar? c with
      | some alignment => (none, some alignment, d :: rest)
      | none => (none, none, c :: d :: rest)

def readSign : List Char → Option SignStyle × List Char
  | '+' :: rest => (some .plus, rest)
  | '-' :: rest => (some .none, rest)
  | ' ' :: rest => (some .blank, rest)
  | cs => (none, cs)

/-- Whether a character comes first, and what follows it. -/
def readMark (mark : Char) : List Char → Bool × List Char
  | c :: rest => if c = mark then (true, rest) else (false, c :: rest)
  | [] => (false, [])

/-- The number that comes first, and what follows it. -/
def readNumber (cs : List Char) : Except TemplateFault (Option Nat × List Char) := do
  let digits := cs.takeWhile Text.isDecimalDigit
  return (← templateNumber? digits, cs.drop digits.length)

/-- The sign between groups of digits; there are two of them, and only one is used. -/
def readSeparator (cs : List Char) : Except TemplateFault (Option Char × List Char) := do
  let (hasComma, rest) := readMark ',' cs
  let (hasUnderscore, rest) := readMark '_' rest
  if hasUnderscore && (hasComma || rest.head? == some ',') then throw .malformed
  return (if hasComma then some ',' else if hasUnderscore then some '_' else none, rest)

/-- A point with a number behind it. -/
def readPrecision (cs : List Char) : Except TemplateFault (Option Nat × List Char) := do
  let (hasPoint, rest) := readMark '.' cs
  if !hasPoint then return (none, rest)
  let (precision, rest) ← readNumber rest
  if precision.isNone then throw .malformed
  return (precision, rest)

/-- Whether groups of digits can be kept apart in numbers that are written by a letter. -/
def takesSeparator (separator : Char) : Option Char → Bool
  | none => true
  | some letter =>
    ['d', 'e', 'E', 'f', 'F', 'g', 'G', '%'].contains letter ||
      (separator == '_' && ['b', 'o', 'x', 'X'].contains letter)

/-- A specification from its text. A zero before the width only pads when no fill is given. -/
def ofChars (cs : List Char) : Except TemplateFault FormatSpec := do
  let (fill, alignment, rest) := readAlignment cs
  let (sign, rest) := readSign rest
  let (dropsZeroSign, rest) := readMark 'z' rest
  let (isAlternate, rest) := readMark '#' rest
  let padsNumber := fill.isNone && rest.head? == some '0'
  let (width, rest) ← readNumber rest
  let (separator, rest) ← readSeparator rest
  let (precision, rest) ← readPrecision rest
  let letter ← match rest with
    | [] => pure none
    | [letter] => pure (some letter)
    | _ => throw .malformed
  if !separator.all fun c => takesSeparator c letter then throw .malformed
  return {
    fill := fill.getD (if padsNumber then '0' else ' '), alignment, sign, dropsZeroSign,
    isAlternate, padsNumber, width := width.getD 0, separator, precision, letter }

/-- Fills a text up to the width; a sign stands before it. -/
def pad (spec : FormatSpec) (alignment : Alignment) (sign body : String) : String :=
  let gap := spec.width - (sign.length + body.length)
  let filling (n : Nat) := "".pushn spec.fill n
  match alignment with
  | .left => sign ++ body ++ filling gap
  | .right => filling gap ++ sign ++ body
  | .center => filling (gap / 2) ++ sign ++ body ++ filling (gap - gap / 2)
  | .afterSign => sign ++ filling gap ++ body

/-- A text, of which the precision says how many characters are kept. -/
def applyToText (spec : FormatSpec) (text : String) : Except TemplateFault String :=
  if spec.sign.isSome || spec.dropsZeroSign || spec.isAlternate || spec.separator.isSome ||
      spec.alignment == some .afterSign || (spec.letter.getD 's') ≠ 's' then
    .error .malformed
  else
    let kept := match spec.precision with
      | some n => String.ofList (text.toList.take n)
      | none => text
    .ok (spec.pad (spec.alignment.getD .left) "" kept)

end FormatSpec

end FieldComposition
