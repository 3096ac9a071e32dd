import FieldComposition.Text.Blank

/-!
# Lines

Two notions of a line are at work. Locations count lines by the newline character alone
(`newlineParts`, `sourceLine?`). Emitted code is indented line by line where a line ends at any
line boundary of Unicode (`lines`); a line that holds only blanks is left alone (`indent`).
-/

namespace FieldComposition.Text

/-- The parts of a text between its newline characters; there is always at least one. -/
def newlineParts : List Char → List (List Char)
  | [] => [[]]
  | c :: rest =>
    if c = '\n' then [] :: newlineParts rest
    else match newlineParts rest with
      | [] => [[c]]
      | part :: parts => (c :: part) :: parts

/-- The line of a text with the given number, counted from one. -/
def sourceLine? (text : String) (line : Int) : Option String :=
  if 1 ≤ line then ((newlineParts text.toList)[(line - 1).toNat]?).map String.ofList else none

/-- Characters that end a line; a carriage return and a newline end one line together. -/
def isLineEnd (c : Char) : Bool :=
  c == '\n' || c == '\r' || c == '\x0b' || c == '\x0c' || c == '\x1c' || c == '\x1d' ||
    c == '\x1e' || c == '\u0085' || c == '\u2028' || c == '\u2029'

/-- The lines of a text, each with its line end. -/
def lines : List Char → List (List Char)
  | [] => []
  | '\r' :: '\n' :: rest => ['\r', '\n'] :: lines rest
  | c :: rest =>
    if isLineEnd c then [c] :: lines rest
    else match lines rest with
      | [] => [[c]]
      | line :: more => (c :: line) :: more

theorem flatten_lines (cs : List Char) : (lines cs).flatten = cs := by
  fun_induction lines cs with
  | case1 => rfl
  | case2 rest ih => simp [ih]
  | case3 c rest _ _ ih => simp [ih]
  | case4 c rest _ _ h ih => simp_all
  | case5 c rest _ _ line more h ih => simp_all

/-- Puts a margin before every line that holds more than blanks. -/
def indentLines (margin cs : List Char) : List Char :=
  ((lines cs).map fun line => if line.all isBlank then line else margin ++ line).flatten

def indent (margin text : String) : String :=
  String.ofList (indentLines margin.toList text.toList)

/-- Carriage returns, alone or before a newline, read as newlines. -/
def universalNewlines : List Char → List Char
  | [] => []
  | '\r' :: '\n' :: rest => '\n' :: universalNewlines rest
  | c :: rest => (if c = '\r' then '\n' else c) :: universalNewlines rest

/-- A text as it is read from a file or from the input. -/
def withNewlines (text : String) : String :=
  String.ofList (universalNewlines text.toList)

end FieldComposition.Text
