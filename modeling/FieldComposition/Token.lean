import FieldComposition.Position

/-!
# Tokens

The tokens of an invocation. Keywords and brackets have kinds of their own; every operator that
the grammar does not use is an `op`, which only passes through host expressions.
-/

namespace FieldComposition

inductive TokenKind where
  | ident | number | string | lifetime
  | wordIn | wordMut | wordFn | wordFor | wordStruct | wordWhere | wordPub
  | openBrace | closeBrace | openBracket | closeBracket | openParen | closeParen
  | comma | colon | pathSep | dot | dotDot | arrow | amp | plus | greater | less | assign
  /-- The two closing angle brackets that end two lists at once. -/
  | doubleGreater
  | op
  | eof
  deriving DecidableEq, Repr

namespace TokenKind

def name : TokenKind → String
  | ident => "ident"
  | number => "number"
  | string => "string"
  | lifetime => "lifetime"
  | wordIn => "in"
  | wordMut => "mut"
  | wordFn => "fn"
  | wordFor => "for"
  | wordStruct => "struct"
  | wordWhere => "where"
  | wordPub => "pub"
  | openBrace => "lbrace"
  | closeBrace => "rbrace"
  | openBracket => "lbracket"
  | closeBracket => "rbracket"
  | openParen => "lparen"
  | closeParen => "rparen"
  | comma => "comma"
  | colon => "colon"
  | pathSep => "path_sep"
  | dot => "dot"
  | dotDot => "dotdot"
  | arrow => "arrow"
  | amp => "amp"
  | plus => "plus"
  | greater => "gt"
  | less => "lt"
  | assign => "assign"
  | doubleGreater => "shr"
  | op => "op"
  | eof => "eof"

/-- The kind that closes a bracket of this kind. -/
def closer? : TokenKind → Option TokenKind
  | openBrace => some closeBrace
  | openBracket => some closeBracket
  | openParen => some closeParen
  | _ => none

def isOpener (kind : TokenKind) : Bool :=
  kind.closer?.isSome

def isCloser : TokenKind → Bool
  | closeBrace | closeBracket | closeParen => true
  | _ => false

/-- Words of the grammar that a host may still use as names. -/
def isSoftKeyword : TokenKind → Bool
  | wordMut | wordFn | wordStruct | wordWhere | wordPub => true
  | _ => false

/-- Symbols that can only be a mistyped modifier where an entry starts. -/
def isModifierLike : TokenKind → Bool
  | op | doubleGreater | less | assign | colon | dot | pathSep | arrow => true
  | _ => false

end TokenKind

/-- A token with the offsets of its text, the second one excluded, and its position. -/
structure Token where
  kind : TokenKind
  value : String
  start : Nat
  stop : Nat
  position : Position
  deriving DecidableEq, Repr

namespace Token

/-- The two closing angle brackets that a `doubleGreater` token is made of. -/
def halves (t : Token) : Token × Token :=
  (⟨.greater, ">", t.start, t.start + 1, t.position⟩,
   ⟨.greater, ">", t.start + 1, t.stop, ⟨t.position.line, t.position.column + 1⟩⟩)

end Token

end FieldComposition
