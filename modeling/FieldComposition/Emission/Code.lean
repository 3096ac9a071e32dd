import FieldComposition.Text.Lines

/-!
# Pieces of code

Emitted code is built from pieces before it becomes text, so that the words of a template, the
text of the caller and the indentation stay apart. `render` lays the pieces out with a given tab.
-/

namespace FieldComposition

inductive Code where
  /-- Words of a template. -/
  | text (s : String)
  /-- Text of the caller, which is only moved. -/
  | host (s : String)
  | append (first second : Code)
  /-- Code one level deeper. -/
  | indented (body : Code)
  deriving DecidableEq, Repr

namespace Code

instance : Append Code := ⟨append⟩

instance : Coe String Code := ⟨text⟩

def render (tab : String) : Code → String
  | text s => s
  | host s => s
  | append first second => first.render tab ++ second.render tab
  | indented body => Text.indent tab (body.render tab)

/-- Pieces one after the other with a separator between them. -/
def joined (separator : String) : List Code → Code
  | [] => text ""
  | [piece] => piece
  | piece :: rest => piece ++ text separator ++ joined separator rest

/-- Pieces on lines of their own. -/
def stacked (pieces : List Code) : Code :=
  joined "\n" pieces

def indentedLines (pieces : List Code) : Code :=
  indented (stacked pieces)

/-- A body between two lines, one level deeper than these. -/
def enclosed (first : Code) (body : List Code) (last : Code) : Code :=
  stacked [first, indentedLines body, last]

/-- A body in braces after a head. -/
def braced (head : Code) (body : List Code) : Code :=
  enclosed (head ++ text " \x7b") body (text "\x7d")

/-- A block of statements in braces. -/
def block (statements : List Code) : Code :=
  enclosed (text "\x7b") statements (text "\x7d")

/-- The pieces of the caller, in order. -/
def hostPieces : Code → List String
  | text _ => []
  | host s => [s]
  | append first second => first.hostPieces ++ second.hostPieces
  | indented body => body.hostPieces

end Code

end FieldComposition
