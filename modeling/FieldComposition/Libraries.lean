import FieldComposition.RecordClass
import FieldComposition.Settings

/-!
# Libraries

What the program takes from packages: making settings of raw values, converting values to declared
types, making instances of models, and laying out values for a reader. All that uses one of these
has the libraries for a parameter. What is only known of them from their documents is stated as a
property, such as `Libraries.ChecksSettings`.
-/

namespace FieldComposition

structure Libraries where
  /-- Settings of values by the names of their fields, or what is wrong with the values. -/
  makeSettings : List (String × Value) → Except (List FieldIssue) Settings
  /-- The text of an error about such values and what is wrong with them. -/
  describeIssues : List (String × Value) → List FieldIssue → String
  /-- The value of a declared type that a value stands for. -/
  convert : TypeHint → Value → Except (List ValueIssue) Value
  /-- The fields of an instance of a model, from the fields it declares and those it is given. -/
  makeModel : List FieldDecl → List (String × Value) →
    Except ConstructionFault (List (String × Value))
  /-- A value as a text of one or more lines. -/
  layout : Value → String

/-- Settings are made only if they pass the checks of their fields. -/
def Libraries.ChecksSettings (lib : Libraries) : Prop :=
  ∀ values settings, lib.makeSettings values = .ok settings → settings.IsValid

namespace RecordClass

/-- Converts a value to the type that is declared for a name; without one the value stays. -/
def into (lib : Libraries) (c : RecordClass) (name : String) (v : Value) :
    Except (List ValueIssue) Value :=
  match c.hints.find? (·.1 == name) with
  | some (_, hint) => if hint.converts then lib.convert hint v else .ok v
  | none => .ok v

/-- The fields of the record that a constructor makes of the fields it is given, in the construction
with a number. -/
def construct (lib : Libraries) (c : RecordClass) (occasion : Nat)
    (given : List (String × Value)) : Except ConstructionFault (List (String × Value)) :=
  match c.style with
  | .dataclass | .namedTuple => c.constructExact occasion given
  | .model => lib.makeModel c.fields given
  | .plain | .callable => .ok given

/-- The fields of a record that takes what it is not given from a base. -/
def update (lib : Libraries) (c : RecordClass) (occasion : Nat)
    (base : String → Except ConstructionFault (Option Value)) (given : List (String × Value)) :
    Except ConstructionFault (List (String × Value)) := do
  c.construct lib occasion (← c.complete base given)

end RecordClass

end FieldComposition
