import FieldComposition.Error
import FieldComposition.Text.Identifier
import FieldComposition.Token

/-!
# From characters to tokens

`lexemeAt` decides what starts at one character: blanks or a comment to skip, a token, or
nothing that the language knows. `scan` repeats it to the end of the text. Each token holds the
characters it was read from, its offsets, and the position that the characters before it lead to.
-/

namespace FieldComposition

/-- What starts at a character: its kind, if it is a token, and how many characters follow. -/
structure Lexeme where
  kind? : Option TokenKind
  more : Nat
  deriving DecidableEq, Repr

namespace Lexeme

def keyword? : String → Option TokenKind
  | "in" => some .wordIn
  | "mut" => some .wordMut
  | "fn" => some .wordFn
  | "for" => some .wordFor
  | "struct" => some .wordStruct
  | "where" => some .wordWhere
  | "pub" => some .wordPub
  | _ => none

/-- Operators of several characters, a longer one before those it starts with. -/
def longOperators : List (List Char × TokenKind) :=
  [(['.', '.', '.'], .op), (['.', '.', '='], .op), (['.', '.'], .dotDot), ([':', ':'], .pathSep),
   (['-', '>'], .arrow), (['>', '>'], .doubleGreater), (['=', '>'], .op), (['=', '='], .op),
   (['!', '='], .op), (['<', '='], .op), (['>', '='], .op), (['*', '*'], .op), (['/', '/'], .op),
   (['&', '&'], .op), (['|', '|'], .op), (['<', '<'], .op), ([':', '='], .op)]

def shortOperator? : Char → Option TokenKind
  | '{' => some .openBrace
  | '}' => some .closeBrace
  | '[' => some .openBracket
  | ']' => some .closeBracket
  | '(' => some .openParen
  | ')' => some .closeParen
  | ',' => some .comma
  | ':' => some .colon
  | '.' => some .dot
  | '&' => some .amp
  | '+' => some .plus
  | '>' => some .greater
  | '<' => some .less
  | '=' => some .assign
  | c => if ['-', '*', '/', '%', '!', '^', '|', '~', '@', '?', '$', ';', '#'].contains c
    then some .op else none

def operator? (c : Char) (rest : List Char) : Option Lexeme :=
  match longOperators.find? fun entry => entry.1.isPrefixOf (c :: rest) with
  | some (spelling, kind) => some ⟨some kind, spelling.length - 1⟩
  | none => (shortOperator? c).map fun kind => ⟨some kind, 0⟩

/-- The blanks that separate tokens. -/
def isLayout (c : Char) : Bool :=
  c == ' ' || c == '\t' || c == '\r' || c == '\n'

/-- The number of characters up to and including the first three quotes in a row. -/
def toTripleQuote? (quote : Char) : List Char → Option Nat
  | [] => none
  | c :: rest =>
    if [quote, quote, quote].isPrefixOf (c :: rest) then some 3
    else (toTripleQuote? quote rest).map (· + 1)

/-- The number of characters up to and including the first quote that no backslash escapes. -/
def toQuote? (oneLine : Bool) (quote : Char) : List Char → Option Nat
  | [] => none
  | '\\' :: _ :: rest => (toQuote? oneLine quote rest).map (· + 2)
  | c :: rest =>
    if c = '\\' then none
    else if c = quote then some 1
    else if c = '\n' && oneLine then none
    else (toQuote? oneLine quote rest).map (· + 1)

/-- The length of the rest of a string whose first quote has been read. -/
def stringRest? (host : Host) (quote : Char) (rest : List Char) : Option Nat :=
  if [quote, quote].isPrefixOf rest then (toTripleQuote? quote (rest.drop 2)).map (· + 2)
  else toQuote? host.endsStringsAtNewline quote rest

def isNumberPart (c : Char) : Bool :=
  c.isDigit || c.isAlpha || c == '_'

/-- The length of the rest of a number: digits, letters and at most one decimal point. -/
def numberRest (rest : List Char) : Nat :=
  let whole := rest.takeWhile isNumberPart
  match rest.drop whole.length with
  | '.' :: d :: fraction =>
    if d.isDigit then whole.length + 2 + (fraction.takeWhile isNumberPart).length
    else whole.length
  | _ => whole.length

/-- The length of the rest of a lifetime whose quote has been read. -/
def lifetimeRest? (host : Host) (rest : List Char) : Option Nat :=
  if host.hasLifetimes then
    match rest with
    | [] => none
    | c :: more =>
      let tail := more.takeWhile Text.isWordChar
      if Text.isWordStart c && (more.drop tail.length).head? != some '\''
      then some (tail.length + 1) else none
  else none

/-- A word is an identifier or a keyword. -/
def word (c : Char) (rest : List Char) : Except SyntaxFault Lexeme :=
  let tail := rest.takeWhile Text.isWordChar
  let spelling := String.ofList (c :: tail)
  if Text.isIdentifier (c :: tail) then
    .ok ⟨some ((keyword? spelling).getD .ident), tail.length⟩
  else .error (.invalidIdentifier spelling)

/-- What starts at the character `c`, which `rest` follows. -/
def read (host : Host) (c : Char) (rest : List Char) : Except SyntaxFault Lexeme :=
  if isLayout c then .ok ⟨none, 0⟩
  else if host.commentMark.isPrefixOf (c :: rest) then
    .ok ⟨none, (rest.takeWhile (· != '\n')).length⟩
  else if let some more := (if c = '\'' then lifetimeRest? host rest else none) then
    .ok ⟨some .lifetime, more⟩
  else if c = '"' || c = '\'' then
    match stringRest? host c rest with
    | some more => .ok ⟨some .string, more⟩
    | none => .error .unterminatedString
  else if c.isDigit then .ok ⟨some .number, numberRest rest⟩
  else if Text.isWordStart c then word c rest
  else match operator? c rest with
    | some lexeme => .ok lexeme
    | none => .error (.unexpectedCharacter c)

end Lexeme

/-- The tokens of a text and the token that stands for its end. -/
structure Tokens where
  body : List Token
  eof : Token
  deriving DecidableEq, Repr

namespace Tokens

def toList (tokens : Tokens) : List Token :=
  tokens.body ++ [tokens.eof]

/-- The tokens of a text that starts at an offset and a position. -/
def scan (host : Host) (offset : Nat) (position : Position) :
    List Char → Except ReadError Tokens
  | [] => .ok ⟨[], ⟨.eof, "", offset, offset, position⟩⟩
  | c :: rest =>
    match Lexeme.read host c rest with
    | .error fault => .error (.fault fault position)
    | .ok lexeme =>
      let taken := c :: rest.take lexeme.more
      let stop := offset + taken.length
      match scan host stop (position.advance taken) (rest.drop lexeme.more) with
      | .error error => .error error
      | .ok tokens =>
        match lexeme.kind? with
        | none => .ok tokens
        | some kind =>
          .ok ⟨⟨kind, String.ofList taken, offset, stop, position⟩ :: tokens.body, tokens.eof⟩
termination_by cs => cs.length
decreasing_by simp only [List.length_drop, List.length_cons]; omega

/-- The tokens of a text. -/
def ofText (host : Host) (text : String) : Except ReadError Tokens :=
  scan host 0 .start text.toList

end Tokens

namespace Token

/-- A token with its kind, its quoted text and its position. -/
def render (t : Token) : String :=
  "Token(" ++ t.kind.name ++ ", " ++ Text.quoted t.value ++ ", " ++ t.position.render ++ ")"

end Token

end FieldComposition
