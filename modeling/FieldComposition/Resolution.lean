import FieldComposition.FieldTable
import FieldComposition.Parser.Invocation

/-!
# Resolution of a field list

From the text of a field list to its field table, with errors placed in the text.
-/

namespace FieldComposition

/-- Reads a field list and resolves it; the file only names the text. -/
def FieldTable.ofText (allowBase allowMutable : Bool) (host : Host) (file text : String) :
    Except Error FieldTable := do
  let c ← (Composition.ofText allowBase allowMutable host text).mapError (·.locate file text)
  c.resolve.mapError (·.locate file (some text))

end FieldComposition
