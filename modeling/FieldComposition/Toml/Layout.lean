import FieldComposition.Toml.Digits

/-!
# Layout of a document

What stands between the parts of a document and means nothing: blanks, comments and, inside
arrays, line ends.
-/

namespace FieldComposition.Toml

open Reader

def isSpace (c : Char) : Bool :=
  c == ' ' || c == '\t'

/-- Control characters, which stand in no comment and no string; the tab is none of them. -/
def isIllegal (c : Char) : Bool :=
  (c.toNat < 32 && c != '\t') || c.toNat == 127

def isIllegalInLines (c : Char) : Bool :=
  isIllegal c && c != '\n'

def spaces : Reader Unit := do
  let _ ← takeWhile isSpace

/-- The rest of a line that is a comment. -/
def comment : Reader Unit := do
  let body ← takeWhile (· != '\n')
  if body.any isIllegal then fail

/-- Blanks, line ends and comments, inside an array. -/
def arrayLayout (inComment : Bool) (cs : List Char) :
    Except Fault (Reading Char Unit cs.length) :=
  match cs with
  | [] => .ok (.stay () [])
  | c :: rest =>
    if inComment then
      if c = '\n' then (arrayLayout false rest).map (·.behind c)
      else if isIllegal c then .error .malformed
      else (arrayLayout true rest).map (·.behind c)
    else if isSpace c || c = '\n' then (arrayLayout false rest).map (·.behind c)
    else if c = '#' then (arrayLayout true rest).map (·.behind c)
    else .ok (.stay () (c :: rest))

end FieldComposition.Toml
