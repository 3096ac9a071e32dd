import FieldComposition.Host
import FieldComposition.Text.Identifier

/-!
# Settings

The options that every expansion depends on, and the checks that their fields have to pass
(`Settings.IsValid`). A package makes settings of raw values and says of every field that is wrong
what is wrong with it (`FieldIssue`).
-/

namespace FieldComposition

structure Settings where
  dialect : Dialect := .python
  /-- The name that emitted code uses for the runtime module. -/
  runtimeAlias : String := "_fs"
  /-- What the names of bound sources start with. -/
  bindingStem : String := "__"
  anonTypeName : String := "Anon"
  indent : Nat := 4
  deriving DecidableEq, Repr

/-- What is wrong with one field of a table of raw values, with the rule that is broken. -/
structure FieldIssue where
  field : String
  rule : String
  message : String
  deriving DecidableEq, Repr

namespace Settings

def tab (s : Settings) : String :=
  "".pushn ' ' s.indent

/-- What is wrong with a text that has to be an identifier, if anything is. -/
def identifierFault? (value : String) : Option String :=
  if Text.isIdentifier value.toList then none
  else some ("'" ++ value ++ "' is not a valid identifier")

/-- What is wrong with a stem, if anything is. A stem is not empty and gives an identifier when a
letter is put behind it. -/
def stemFault? (value : String) : Option String :=
  if value ≠ "" && Text.isIdentifier (value.toList ++ ['x']) then none
  else some ("'" ++ value ++ "' cannot prefix an identifier")

def leastIndent : Nat :=
  1

def greatestIndent : Nat :=
  8

/-- Settings whose fields pass their checks. -/
structure IsValid (s : Settings) : Prop where
  runtimeAlias : identifierFault? s.runtimeAlias = none
  bindingStem : stemFault? s.bindingStem = none
  anonTypeName : identifierFault? s.anonTypeName = none
  leastIndent_le : leastIndent ≤ s.indent
  le_greatestIndent : s.indent ≤ greatestIndent

instance (s : Settings) : Decidable s.IsValid :=
  decidable_of_iff
    (identifierFault? s.runtimeAlias = none ∧ stemFault? s.bindingStem = none ∧
      identifierFault? s.anonTypeName = none ∧ leastIndent ≤ s.indent ∧ s.indent ≤ greatestIndent)
    ⟨fun h => ⟨h.1, h.2.1, h.2.2.1, h.2.2.2.1, h.2.2.2.2⟩,
      fun h => ⟨h.1, h.2, h.3, h.4, h.5⟩⟩

end Settings

end FieldComposition
