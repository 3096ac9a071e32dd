import FieldComposition.Emission.Code
import FieldComposition.Invocation

/-!
# Expansions

The code that an invocation stands for: import lines, statements that may span several lines, and
a trailing expression if the invocation has a value. A `Draft` is an expansion whose indentation
is not fixed yet.
-/

namespace FieldComposition

structure Expansion where
  entryPoint : EntryPoint
  dialect : String
  imports : List String := []
  statements : List String := []
  expression : Option String := none
  deriving DecidableEq, Repr

namespace Expansion

/-- Import lines with one more behind them, unless it is there already. -/
def addLine (lines : List String) (line : String) : List String :=
  if lines.contains line then lines else lines ++ [line]

def addImport (e : Expansion) (line : String) : Expansion :=
  { e with imports := addLine e.imports line }

def addStatement (e : Expansion) (statement : String) : Expansion :=
  { e with statements := e.statements ++ [statement] }

/-- The whole code, its parts set apart by blank lines. -/
def render (e : Expansion) : String :=
  let imports := if e.imports.isEmpty then [] else ["\n".intercalate e.imports]
  "\n\n".intercalate (imports ++ e.statements ++ e.expression.toList) ++ "\n"

end Expansion

/-- The parts of an expansion as pieces of code, in the order in which they are added. -/
structure Draft where
  /-- The import lines that are asked for, each as often as it is needed. -/
  imports : List String := []
  statements : List Code := []
  expression : Option Code := none
  deriving DecidableEq, Repr

namespace Draft

def layout (d : Draft) (tab : String) (entryPoint : EntryPoint) (dialect : String) : Expansion :=
  let imported := d.imports.foldl Expansion.addImport { entryPoint, dialect }
  let stated := (d.statements.map (·.render tab)).foldl Expansion.addStatement imported
  { stated with expression := d.expression.map (·.render tab) }

/-- The import lines that an expansion is left with. -/
def importLines (d : Draft) : List String :=
  d.imports.foldl Expansion.addLine []

theorem layout_eq (d : Draft) (tab : String) (entryPoint : EntryPoint) (dialect : String) :
    d.layout tab entryPoint dialect =
      { entryPoint, dialect, imports := d.importLines,
        statements := d.statements.map (·.render tab),
        expression := d.expression.map (·.render tab) } := by
  have himports (lines : List String) (e : Expansion) : lines.foldl Expansion.addImport e =
      { e with imports := lines.foldl Expansion.addLine e.imports } := by
    induction lines generalizing e with
    | nil => rfl
    | cons line lines ih => exact ih _
  have hstatements (statements : List String) (e : Expansion) :
      statements.foldl Expansion.addStatement e =
        { e with statements := e.statements ++ statements } := by
    induction statements generalizing e with
    | nil => simp
    | cons statement statements ih => simp [ih, Expansion.addStatement]
  simp [layout, himports, hstatements, importLines]

theorem statements_layout (d : Draft) (tab : String) (entryPoint : EntryPoint)
    (dialect : String) :
    (d.layout tab entryPoint dialect).statements = d.statements.map (·.render tab) := by
  rw [layout_eq]

end Draft

end FieldComposition
