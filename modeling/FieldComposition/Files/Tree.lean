import FieldComposition.Files.Path
import FieldComposition.Text.Lines
import FieldComposition.Text.Quoted

/-!
# File trees

The files that a program may read, each with its text. A directory is there because it holds a file
or another directory, or because it is listed. Every step of a path but the last has to lead to a
directory (`FileTree.read`).
-/

namespace FieldComposition

structure FileTree where
  /-- The texts of the files by the names that lead to them from the top. -/
  files : List (List String × String) := []
  directories : List (List String) := []
  deriving Repr

/-- Why a file cannot be read. -/
inductive FileFault where
  | missing
  | isDirectory
  | notADirectory
  deriving DecidableEq, Repr

namespace FileFault

/-- The number that the system gives to a fault. -/
def number : FileFault → Nat
  | missing => 2
  | notADirectory => 20
  | isDirectory => 21

def reason : FileFault → String
  | missing => "No such file or directory"
  | notADirectory => "Not a directory"
  | isDirectory => "Is a directory"

def message (fault : FileFault) (path : Path) : String :=
  "[Errno " ++ toString fault.number ++ "] " ++ fault.reason ++ ": " ++ Text.quoted path.render

end FileFault

namespace FileTree

/-- The text of the file at a place, as a program reads it: all line ends become newlines. -/
def text? (t : FileTree) (place : List String) : Option String :=
  (t.files.find? (·.1 == place)).map fun file => Text.withNewlines file.2

def isDirectory (t : FileTree) (place : List String) : Bool :=
  place.isEmpty || t.directories.any (place.isPrefixOf ·) ||
    t.files.any fun file => file.1 != place && place.isPrefixOf file.1

/-- The place that the rest of a path leads to from a place. -/
def follow (t : FileTree) (place : List String) : List String → Except FileFault (List String)
  | [] => .ok place
  | part :: rest =>
    if t.isDirectory place then
      t.follow (if part = ".." then place.dropLast else place ++ [part]) rest
    else if (t.text? place).isSome then .error .notADirectory
    else .error .missing

/-- The text of the file that a path from the top leads to. -/
def read (t : FileTree) (path : Path) : Except FileFault String := do
  let place ← t.follow [] path.parts
  match t.text? place with
  | some text => return text
  | none => throw (if t.isDirectory place then .isDirectory else .missing)

end FileTree

end FieldComposition
