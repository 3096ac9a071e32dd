import FieldComposition.Number.Binary64
import FieldComposition.Text.Blank
import FieldComposition.Text.Numerals

/-!
# Reading numbers leniently

Integers and reals from text: blanks around a number, a sign and single underscores between digits
are allowed.
-/

namespace FieldComposition.Number

/-- Blanks of the Unicode property `White_Space`. -/
def isSpace (c : Char) : Bool :=
  Text.isBlank c && !(0x1c ≤ c.toNat && c.toNat ≤ 0x1f)

/-- A text without the spaces around it. -/
def trim (cs : List Char) : List Char :=
  ((cs.dropWhile isSpace).reverse.dropWhile isSpace).reverse

def digitsValue (digits : List Char) : Nat :=
  digits.foldl (fun n c => 10 * n + (c.toNat - '0'.toNat)) 0

/-- A number that is written with decimal digits alone. -/
def readDigits? (cs : List Char) : Option Nat :=
  if !cs.isEmpty && cs.all Char.isDigit then some (digitsValue cs) else none

/-- Whether two underscores stand side by side. -/
def hasDoubleUnderscore : List Char → Bool
  | '_' :: '_' :: _ => true
  | [] => false
  | _ :: rest => hasDoubleUnderscore rest

/-- A text without its underscores, which stand alone and inside it. -/
def dropUnderscores? (cs : List Char) : Option (List Char) :=
  if cs.head? == some '_' || cs.getLast? == some '_' || hasDoubleUnderscore cs then none
  else some (cs.filter (· != '_'))

def readSigned? : List Char → Option Int
  | '-' :: digits => (readDigits? digits).map fun n => -(n : Int)
  | '+' :: digits => (readDigits? digits).map Int.ofNat
  | digits => (readDigits? digits).map Int.ofNat

/-- The exponent at the end of a number: `e`, a sign and digits. -/
def readExponent? : List Char → Option Int
  | [] => some 0
  | c :: rest => if c = 'e' || c = 'E' then readSigned? rest else none

/-- A decimal number without a sign: digits, a point, digits and an exponent, where digits stand
on at least one side of the point. -/
def readDecimal? (negative : Bool) (cs : List Char) : Option Binary64 := do
  let whole := cs.takeWhile Char.isDigit
  let rest := cs.drop whole.length
  let (fraction, rest) := match rest with
    | '.' :: more => (more.takeWhile Char.isDigit, more.dropWhile Char.isDigit)
    | _ => ([], rest)
  if whole.isEmpty && fraction.isEmpty then none
  else
    let exponent ← readExponent? rest
    return .ofDecimal negative (digitsValue (whole ++ fraction)) (exponent - fraction.length)

/-- A real number: a decimal one, an infinity or `nan`, with a sign or without. -/
def readReal? (cs : List Char) : Option Binary64 :=
  let (negative, rest) := match cs with
    | '-' :: rest => (true, rest)
    | '+' :: rest => (false, rest)
    | _ => (false, cs)
  let word := String.ofList (rest.map Char.toLower)
  if word = "inf" || word = "infinity" then some (.infinite negative)
  else if word = "nan" then some .nan
  else readDecimal? negative rest

/-- A real number from a text. -/
def realOfText? (text : String) : Option Binary64 :=
  (readReal? (trim text.toList)).or ((dropUnderscores? text.toList).bind readReal?)

/-- An integer as a program writes it: spaces around it, a sign, and digits of any script with
single underscores between them. -/
def integerLiteral? (text : String) : Option Int := do
  let (negative, rest) := match trim text.toList with
    | '-' :: rest => (true, rest)
    | '+' :: rest => (false, rest)
    | cs => (false, cs)
  let digits ← (← dropUnderscores? rest).mapM Text.digitValue?
  if digits.isEmpty then none
  else
    let n := digits.foldl (fun (n : Nat) d => 10 * n + d) 0
    return if negative then -(n : Int) else n

end FieldComposition.Number
