import FieldComposition.StandIn.Width.Table

/-!
# Width of a text

The number of columns that a text takes on a terminal. Every character has a width of its own
(`charWidth`); a joiner also hides the character behind it, and a picture selector widens the
character before it.
-/

namespace FieldComposition.StandIn

open Text

/-- The joiner, which draws the characters around it as one. -/
def joiner : Char :=
  '\u200d'

/-- The selector that shows the character before it as a picture. -/
def pictureSelector : Char :=
  '\ufe0f'

/-- The columns of one character; control characters take none. -/
def charWidth (c : Char) : Nat :=
  if c.toNat < 0x20 || (0x7F ≤ c.toNat && c.toNat < 0xA0) then 0
  else if c.toNat < 0xA9 then 1
  else if zeroWidth.contains c then 0
  else if doubleWidth.contains c then 2
  else 1

/-- The columns of characters. `last?` is the character before them that a selector may still
widen, and `isHidden` tells whether a joiner hides the first of them. -/
def widthFrom (isHidden : Bool) (last? : Option Char) : List Char → Nat
  | [] => 0
  | c :: rest =>
    if isHidden then widthFrom false last? rest
    else if c = joiner then widthFrom true last? rest
    else if c = pictureSelector then
      (if last?.any widenable.contains then 1 else 0) + widthFrom false none rest
    else charWidth c + widthFrom false (if charWidth c = 0 then last? else some c) rest

/-- The columns of a text. -/
def width (text : String) : Nat :=
  widthFrom false none text.toList

end FieldComposition.StandIn
