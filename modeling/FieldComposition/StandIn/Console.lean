import FieldComposition.CommandLine.Display
import FieldComposition.StandIn.Width

/-!
# A console

What a command shows, as plain lines without styles.
-/

namespace FieldComposition.StandIn

open CommandLine

/-- The widest cell of every column. -/
def columnWidths (t : TextTable) : List Nat :=
  (t.columns :: t.rows).foldl
    (fun widths row => (widths.zip row).map fun (n, cell) => max n (width cell))
    (t.columns.map fun _ => 0)

/-- A row with its cells below each other, two blanks apart. -/
def tableLine (widths : List Nat) (row : List String) : String :=
  let cells := (widths.zip row).map fun (n, cell) => cell.pushn ' ' (n - width cell)
  String.ofList (("  ".intercalate cells).toList.reverse.dropWhile (· == ' ')).reverse

/-- What is shown, as plain lines. -/
def shownLines : Display → List String
  | .text spans => [String.join (spans.map (·.text))]
  | .table t => t.title :: (t.columns :: t.rows).map (tableLine (columnWidths t))
  | .code _ body => [body]

end FieldComposition.StandIn
