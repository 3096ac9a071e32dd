/-!
# Positions in a text

A position is a line and a column, both counted from one. The position after a text is a
function of that text alone: a newline starts the next line, any other character moves one
column on (`advance_append`).
-/

namespace FieldComposition

structure Position where
  line : Int
  column : Int
  deriving DecidableEq, Repr

namespace Position

/-- The position of the first character of a text. -/
def start : Position :=
  ⟨1, 1⟩

def step (p : Position) (c : Char) : Position :=
  if c = '\n' then ⟨p.line + 1, 1⟩ else ⟨p.line, p.column + 1⟩

/-- The position that is reached from `p` by reading a text. -/
def advance (p : Position) (cs : List Char) : Position :=
  cs.foldl step p

@[simp] theorem advance_nil (p : Position) : p.advance [] = p := rfl

@[simp] theorem advance_cons (p : Position) (c : Char) (cs : List Char) :
    p.advance (c :: cs) = (p.step c).advance cs := rfl

theorem advance_append (p : Position) (cs ds : List Char) :
    p.advance (cs ++ ds) = (p.advance cs).advance ds :=
  List.foldl_append

/-- A position as `line:column`. -/
def render (p : Position) : String :=
  toString p.line ++ ":" ++ toString p.column

end Position

end FieldComposition
