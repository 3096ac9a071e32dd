import FieldComposition.Number.Binary64

/-!
# TOML values

What a configuration file holds. Tables keep the order in which their keys were written.
-/

namespace FieldComposition.Toml

inductive Value where
  | string (s : String)
  | integer (n : Int)
  | real (x : Number.Binary64)
  | boolean (b : Bool)
  /-- A date, a time or both, as written. -/
  | moment (text : String)
  | array (items : List Value)
  | table (entries : List (String × Value))
  deriving Repr

abbrev Table : Type :=
  List (String × Value)

/-- Why a text is not read. -/
inductive Fault where
  | malformed
  /-- An integer has more decimal digits than are converted. -/
  | overlong (digits : Nat)
  deriving DecidableEq, Repr

end FieldComposition.Toml
