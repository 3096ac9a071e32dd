import FieldComposition.Name
import FieldComposition.Number.Reading
import FieldComposition.Text.Lines
import FieldComposition.Token.Lexer

/-!
# Host expressions

The expressions of the caller that can be evaluated: names, members, numbers, plain texts and
constants. They are read from the tokens of the python dialect. Between brackets an expression may
run over several lines; where a line of code consists of it, a line break ends the code
(`Setting`). Names are read in their normal form.
-/

namespace FieldComposition

/-- Why a text is no code. -/
inductive CodeFault where
  | malformed
  /-- A line stands further in than the code before it allows. -/
  | indented
  deriving DecidableEq, Repr

inductive HostExpression where
  | name (name : String)
  | member (owner : HostExpression) (name : String)
  | int (n : Int)
  | real (x : Number.Binary64)
  | text (s : String)
  | bool (b : Bool)
  | nothing
  deriving DecidableEq, Repr

/-- Where an expression stands in code. -/
inductive Setting where
  /-- It is, or starts, a line of code. -/
  | line
  | brackets
  deriving DecidableEq, Repr

namespace HostExpression

/-- The expression that a word is. -/
def ofWord? (word : String) : Option HostExpression :=
  match word with
  | "True" => some (bool true)
  | "False" => some (bool false)
  | "None" => some nothing
  | _ =>
    if Name.isReserved word then none
    else if Text.normalize word = Name.checking then some (bool true)
    else some (name (Text.normalize word))

/-- Whether a number has a point or an exponent. -/
def isReal (literal : String) : Bool :=
  literal.toList.any fun c => c == '.' || c == 'e' || c == 'E'

/-- A decimal number. A whole one only starts with a zero if it is zero. -/
def ofNumber? (literal : String) : Option HostExpression := do
  if isReal literal then return real (← Number.realOfText? literal)
  let n ← Number.integerLiteral? literal
  if literal.toList.head? == some '0' && n ≠ 0 then none else return int n

/-- The character that a letter stands for behind a backslash. -/
def escaped? : Char → Option Char
  | 'a' => some '\x07'
  | 'b' => some '\x08'
  | 'f' => some '\x0c'
  | 'n' => some '\n'
  | 'r' => some '\r'
  | 't' => some '\t'
  | 'v' => some '\x0b'
  | c => if ['\\', '\'', '"'].contains c then some c else none

/-- The text between quotes, with its escapes read. A backslash at the end of a line hides the
line end, and one before any other character stands for itself. -/
def unescape : List Char → List Char
  | '\\' :: '\n' :: rest => unescape rest
  | '\\' :: c :: rest =>
    match escaped? c with
    | some d => d :: unescape rest
    | none => '\\' :: c :: unescape rest
  | c :: rest => c :: unescape rest
  | [] => []

/-- Whether a line ends inside a text without a backslash before its end. -/
def breaksLine : List Char → Bool
  | '\\' :: _ :: rest => breaksLine rest
  | c :: rest => c == '\n' || breaksLine rest
  | [] => false

/-- The text that a string token stands for. Only with tripled quotes it runs over line ends. -/
def ofString? (token : String) : Option HostExpression :=
  let cs := Text.universalNewlines token.toList
  let isTripled := 6 ≤ cs.length && cs[1]? == cs[0]? && cs[2]? == cs[0]?
  let quotes := if isTripled then 3 else 1
  let inner := (cs.drop quotes).take (cs.length - 2 * quotes)
  if !isTripled && breaksLine inner then none
  else some (text (String.ofList (unescape inner)))

/-- Whether a token is a word that may be a name. -/
def isWord (t : Token) : Bool :=
  t.kind == .ident || t.kind.isSoftKeyword

/-- The expression that a token is by itself. -/
def ofToken? (t : Token) : Option HostExpression :=
  match t.kind with
  | .number => ofNumber? t.value
  | .string => ofString? t.value
  | _ => if isWord t then ofWord? t.value else none

/-- Whether a character ends a line of code. -/
def isLineBreak (c : Char) : Bool :=
  c == '\n' || c == '\r'

/-- The characters between two tokens of a text. -/
def between (text : List Char) (first second : Token) : List Char :=
  (text.drop first.stop).take (second.start - first.stop)

/-- Checks that the characters between an expression and what goes on with it do not end it. -/
def checkGap (setting : Setting) (gap : List Char) : Except CodeFault Unit :=
  if setting = .brackets || !gap.any isLineBreak then .ok ()
  else if (gap.getLast?).all isLineBreak then .error .malformed
  else .error .indented

/-- Members of an expression, one of the other, up to the end of a text; `last` is the token
before them. The point of a member does not touch a whole number, which it would make real. -/
def membersOf (setting : Setting) (text : List Char) (owner : HostExpression) (last : Token) :
    List Token → Except CodeFault HostExpression
  | point :: word :: rest => do
    let before := between text last point
    checkGap setting before
    if point.kind ≠ .dot || !isWord word || Name.isReserved word.value then throw .malformed
    if last.kind = .number && !isReal last.value && before.isEmpty then throw .malformed
    if setting = .line && (between text point word).any isLineBreak then throw .malformed
    membersOf setting text (member owner (Text.normalize word.value)) word rest
  | [t] => if t.kind = .eof then .ok owner else .error .malformed
  | [] => .error .malformed

/-- The expression that a text of the caller is. -/
def ofText (setting : Setting) (text : String) : Except CodeFault HostExpression :=
  match Tokens.ofText (.dialect .python) text with
  | .error _ => .error .malformed
  | .ok tokens =>
    match tokens.toList with
    | [] => .error .malformed
    | t :: rest =>
      match ofToken? t with
      | some start => membersOf setting text.toList start t rest
      | none => .error .malformed

end HostExpression

end FieldComposition
