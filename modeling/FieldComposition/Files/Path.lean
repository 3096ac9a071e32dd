/-!
# Paths

A path names a place in a file tree by the names on the way to it, from the top of the tree or from
the current directory. Empty names and single dots are dropped when a path is read; a double dot
stays, since what it leads to may depend on the tree.
-/

namespace FieldComposition

structure Path where
  absolute : Bool
  parts : List String
  deriving DecidableEq, Repr

namespace Path

def ofText (text : String) : Path where
  absolute := text.toList.head? == some '/'
  parts := (text.splitOn "/").filter fun part => part ≠ "" && part ≠ "."

def render (p : Path) : String :=
  let names := "/".intercalate p.parts
  if p.absolute then "/" ++ names else if p.parts.isEmpty then "." else names

/-- The last name of a path. -/
def name (p : Path) : String :=
  p.parts.getLastD ""

/-- A path as seen from a directory. -/
def inside (directory p : Path) : Path :=
  if p.absolute then p else { directory with parts := directory.parts ++ p.parts }

/-- The names of a path from the top without double dots, each of which takes back the name before
it. -/
def resolveParts (parts : List String) : List String :=
  parts.foldl (fun done part => if part = ".." then done.dropLast else done ++ [part]) []

def resolve (p : Path) : Path :=
  { p with parts := resolveParts p.parts }

/-- The names of a directory and of all directories around it, the innermost one first. -/
def around (parts : List String) : List (List String) :=
  (List.range (parts.length + 1)).map fun n => parts.take (parts.length - n)

end Path

end FieldComposition
