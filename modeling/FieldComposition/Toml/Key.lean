import FieldComposition.Toml.Quoted

/-!
# Keys

A key is a list of parts with points between them; a part is a bare word or a string on one line.
-/

namespace FieldComposition.Toml

open Reader

def isBareKeyChar (c : Char) : Bool :=
  c.isAlphanum || c == '-' || c == '_'

def keyPart : Reader String := do
  match ← peek with
  | some '"' => lineString (basicRest false)
  | some '\'' => lineString literalRest
  | _ =>
    let name ← takeWhile isBareKeyChar
    if name.isEmpty then fail
    return String.ofList name

/-- The parts of a key after the first one, each after a point. -/
def keyParts (cs : List Char) : Except Fault (Reading Char (List String) cs.length) :=
  match cs with
  | [] => .ok (.stay [] [])
  | c :: rest =>
    if c = '.' then
      match (do spaces; let part ← keyPart; spaces; return part : Reader String) rest with
      | .error fault => .error fault
      | .ok r =>
        (keyParts r.rest).map fun s =>
          (s.map (r.value :: ·)).weaken (Nat.le_succ_of_le r.length_le)
    else .ok (.stay [] (c :: rest))
termination_by cs.length
decreasing_by
  have := r.length_le
  simp only [List.length_cons]
  omega

/-- A dotted key. -/
def key : Reader (List String) := do
  let first ← keyPart
  spaces
  return first :: (← (keyParts : Reader (List String)))

/-- A key and the equals sign after it. -/
def keyAndEquals : Reader (List String) := do
  let path ← key
  expect ['=']
  spaces
  return path

end FieldComposition.Toml
