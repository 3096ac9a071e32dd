/-!
# Host languages

Invocations are embedded in a host language, whose expressions and types they carry along. The
host decides how a comment starts, whether lifetimes exist, whether a quoted string may run over
a line end and whether the words of the grammar may be used as names. Code is emitted in one of
two dialects.
-/

namespace FieldComposition

/-- The languages that code can be emitted in. -/
inductive Dialect where
  | python
  | rust
  deriving DecidableEq, Repr

namespace Dialect

def name : Dialect → String
  | python => "python"
  | rust => "rust"

/-- The dialects in the order in which they are listed. -/
def all : List Dialect :=
  [python, rust]

def ofName? (name : String) : Option Dialect :=
  all.find? (·.name == name)

end Dialect

/-- The language around an invocation; of one that is not a dialect only comments are known. -/
inductive Host where
  | dialect (d : Dialect)
  | other
  deriving DecidableEq, Repr

namespace Host

def ofName (name : String) : Host :=
  match Dialect.ofName? name with
  | some d => .dialect d
  | none => .other

/-- The characters that start a comment, which ends before the next newline. -/
def commentMark : Host → List Char
  | .dialect .rust => ['/', '/']
  | _ => ['#']

def hasLifetimes : Host → Bool
  | .dialect .rust => true
  | _ => false

/-- Whether a string in single-character quotes must end on its line. -/
def endsStringsAtNewline : Host → Bool
  | .dialect .python => true
  | _ => false

/-- Whether the words of the grammar, `in` and `for` apart, may also be names. -/
def hasSoftKeywords : Host → Bool
  | .dialect .python => true
  | _ => false

end Host

end FieldComposition
