import FieldComposition.Toml.Literal

/-!
# TOML documents

A document is a list of statements, one a line. `Draft.add` gives them their meaning: a header
opens a table once, an array header starts another table of an array, and a pair adds a key that
is not there yet to the table that was opened last. Nothing is added to arrays and inline tables.
Each statement is added before the next line is read (`Draft.read`), so the first fault counts.
-/

namespace FieldComposition.Toml

inductive Statement where
  | pair (key : List String) (value : Value)
  | header (key : List String)
  | arrayHeader (key : List String)
  deriving Repr

/-- A header in single or double brackets. -/
def headerStatement : Reader Statement := do
  if ← Reader.accepts ['[', '['] then
    spaces
    let path ← key
    Reader.expect [']', ']']
    return .arrayHeader path
  else
    Reader.skip 1
    spaces
    let path ← key
    Reader.expect [']']
    return .header path

def pairStatement : Reader Statement := do
  let path ← keyAndEquals
  return .pair path (← (value : Reader Value))

/-- A line without its end: a statement, a comment, both or neither. -/
def lineStatement : Reader (Option Statement) := do
  spaces
  let statement ← match ← Reader.peek with
    | none | some '\n' | some '#' => pure none
    | some '[' => some <$> headerStatement
    | some _ => some <$> pairStatement
  spaces
  if ← Reader.sees ['#'] then comment
  return statement

/-- A document that is being built. -/
structure Draft where
  root : Table := []
  /-- The key of the table that pairs are added to. -/
  current : List String := []
  /-- Tables that no header may open again. -/
  opened : List (List String) := []
  /-- Tables that dotted keys made, which no header after this one may open. -/
  dotted : List (List String) := []
  /-- Arrays and inline tables, to which nothing can be added. -/
  closed : List (List String) := []

namespace Draft

/-- What is known at a header: tables that dotted keys made count as opened. -/
def settle (d : Draft) : Draft :=
  { d with opened := d.opened ++ d.dotted, dotted := [] }

def openTable (d : Draft) (path : List String) : Option Draft :=
  if d.opened.contains path || isInside d.closed path then none
  else (alterAt true some path d.root).map fun root =>
    { d with root, current := path, opened := path :: d.opened }

/-- Adds an empty table to the array that a key holds, which may be new. -/
def appendTable (key : String) (t : Table) : Option Table :=
  match t.get? key with
  | none => some (t.put key (.array [.table []]))
  | some (.array items) => some (t.put key (.array (items ++ [.table []])))
  | some _ => none

/-- Starts another table of an array; what was known about the table before it is forgotten. -/
def openArrayTable (d : Draft) (path : List String) : Option Draft :=
  if isInside d.closed path then none
  else
    let isElsewhere (other : List String) := !path.isPrefixOf other
    match path.getLast? with
    | none => none
    | some last =>
      (alterAt true (appendTable last) path.dropLast d.root).map fun root =>
        { d with root, current := path, opened := path :: d.opened.filter isElsewhere,
                 closed := d.closed.filter isElsewhere }

/-- The tables on the way from the current one to the value of a dotted key. -/
def tablesOnWay (d : Draft) (path : List String) : List (List String) :=
  (List.range (path.length - 1)).map fun i => d.current ++ path.take (i + 1)

def addPair (d : Draft) (path : List String) (value : Value) : Option Draft :=
  let way := d.tablesOnWay path
  let parent := d.current ++ path.dropLast
  if way.any d.opened.contains || isInside d.closed parent then none
  else
    match path.getLast? with
    | none => none
    | some last =>
      (alterAt true (addKey last value) parent d.root).map fun root =>
        { d with root, dotted := d.dotted ++ way,
                 closed := if value.isClosed then (d.current ++ path) :: d.closed else d.closed }

def add (d : Draft) : Statement → Option Draft
  | .pair path value => d.addPair path value
  | .header path => d.settle.openTable path
  | .arrayHeader path => d.settle.openArrayTable path

/-- The document after the lines of a text. -/
def read (d : Draft) (cs : List Char) : Except Fault Draft :=
  match lineStatement cs with
  | .error fault => .error fault
  | .ok ⟨statement, rest, _h⟩ =>
    match statement.elim (some d) d.add with
    | none => .error .malformed
    | some d =>
      match rest with
      | [] => .ok d
      | c :: rest => if c = '\n' then d.read rest else .error .malformed
termination_by cs.length
decreasing_by
  simp only [List.length_cons] at _h
  omega

end Draft

/-- The table that a text describes. -/
def parse (text : String) : Except Fault Table :=
  (Draft.read {} text.toList).map (·.root)

end FieldComposition.Toml
