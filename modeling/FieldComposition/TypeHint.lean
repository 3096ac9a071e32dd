import FieldComposition.Value

/-!
# Declared types

The types that fields and parameters declare, and what is wrong with a value that stands for none
of a type. The conversion itself is the work of a package.
-/

namespace FieldComposition

/-- A type that a field or a parameter declares. -/
inductive TypeHint where
  | int
  | real
  | text
  | bool
  | optionalInt
  | list
  | intList
  | textList
  | intDict
  | any
  /-- A type variable, which stands for whatever it is given. -/
  | generic
  /-- A reference to a type that does not exist. -/
  | unresolved
  deriving DecidableEq, Repr

/-- Whether values are converted to a type at all. -/
def TypeHint.converts (hint : TypeHint) : Bool :=
  hint ≠ any && hint ≠ generic

/-- What is wrong with a value: the way to it by keys and indexes, and the rule that is broken. -/
structure ValueIssue where
  way : List String
  rule : String
  deriving DecidableEq, Repr

end FieldComposition
