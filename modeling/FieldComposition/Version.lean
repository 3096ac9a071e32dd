import FieldComposition.Toml.Document

/-!
# Versions

The version of this program, and the one that a project file declares for it.
-/

namespace FieldComposition

namespace Version

/-- The name that a project file has to give for its version to count. -/
def distribution : String :=
  "fieldspread"

def current : String :=
  "0.3.0"

/-- Why a project file declares nothing. -/
inductive Fault where
  /-- The project of the file is no table. -/
  | projectNotATable
  /-- An integer in the file has too many digits. -/
  | overlongInteger (digits : Nat)
  deriving DecidableEq, Repr

/-- The version that the text of a project file declares for this program. -/
def declared (text : String) : Except Fault (Option Toml.Value) :=
  match Toml.parse text with
  | .error .malformed => .ok none
  | .error (.overlong digits) => .error (.overlongInteger digits)
  | .ok document =>
    match document.get? "project" with
    | none => .ok none
    | some (.table project) =>
      match Toml.Table.get? project "name" with
      | some (.string name) =>
        .ok (if name = distribution then Toml.Table.get? project "version" else none)
      | _ => .ok none
    | some _ => .error .projectNotATable

end Version

end FieldComposition
