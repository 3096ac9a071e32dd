import FieldComposition.Text.CharSet

/-!
# Blank characters
-/

namespace FieldComposition.Text

/-- White space of any script, together with the four information separators. -/
def blanks : CharSet := ⟨
  [(0x9, 0xD), (0x1C, 0x20), (0x85, 0x85), (0xA0, 0xA0), (0x1680, 0x1680), (0x2000, 0x200A),
   (0x2028, 0x2029), (0x202F, 0x202F), (0x205F, 0x205F), (0x3000, 0x3000)]⟩

def isBlank (c : Char) : Bool :=
  blanks.contains c

/-- A text without the blanks around it. -/
def strip (cs : List Char) : List Char :=
  ((cs.dropWhile isBlank).reverse.dropWhile isBlank).reverse

end FieldComposition.Text
