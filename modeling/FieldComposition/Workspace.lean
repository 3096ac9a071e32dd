import FieldComposition.Files.Tree

/-!
# Workspaces

What a program sees of the world around it: a file tree, the directory it was started in and the
variables of its environment.
-/

namespace FieldComposition

structure Workspace where
  tree : FileTree := {}
  /-- The current directory, from the top of the tree. -/
  directory : Path := ⟨true, []⟩
  environment : List (String × String) := []
  deriving Repr

namespace Workspace

/-- The text of the file at a path, which may start from the current directory. -/
def read (w : Workspace) (path : Path) : Except FileFault String :=
  w.tree.read (w.directory.inside path)

/-- The value of a variable that is set. -/
def env? (w : Workspace) (name : String) : Option String :=
  (w.environment.find? (·.1 == name)).map (·.2)

end Workspace

end FieldComposition
