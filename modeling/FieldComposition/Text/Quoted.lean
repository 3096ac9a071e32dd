import FieldComposition.Text.Printable

/-!
# Quoted text

A text is quoted with single quotes, or with double quotes when it holds a single quote and no
double quote. The backslash, the quote in use, line ends and tabs get a short escape; characters
that cannot be printed are written by their code point.
-/

namespace FieldComposition.Text

/-- Hexadecimal digits of a number, filled up with zeros to a width. -/
def hexDigits (width n : Nat) : List Char :=
  let digits := Nat.toDigits 16 n
  List.replicate (width - digits.length) '0' ++ digits

/-- A character by its code point, in the shortest of the three escapes that holds it. -/
def codeEscape (c : Char) : List Char :=
  let code := c.toNat
  if code < 0x100 then '\\' :: 'x' :: hexDigits 2 code
  else if code < 0x10000 then '\\' :: 'u' :: hexDigits 4 code
  else '\\' :: 'U' :: hexDigits 8 code

def quotedChar (quote c : Char) : List Char :=
  if c = quote || c = '\\' then ['\\', c]
  else if c = '\n' then ['\\', 'n']
  else if c = '\r' then ['\\', 'r']
  else if c = '\t' then ['\\', 't']
  else if isPrintable c then [c]
  else codeEscape c

/-- The quote that surrounds a text. -/
def quoteFor (cs : List Char) : Char :=
  if cs.contains '\'' && !cs.contains '"' then '"' else '\''

def quotedChars (cs : List Char) : List Char :=
  let quote := quoteFor cs
  quote :: cs.flatMap (quotedChar quote) ++ [quote]

def quoted (text : String) : String :=
  String.ofList (quotedChars text.toList)

/-- A text in which all characters beyond the first 128 are written by their code points. -/
def ascii (text : String) : String :=
  String.ofList (text.toList.flatMap fun c => if c.toNat < 0x80 then [c] else codeEscape c)

end FieldComposition.Text
