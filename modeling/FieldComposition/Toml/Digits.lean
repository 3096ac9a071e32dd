import FieldComposition.Toml.Reader

/-!
# Digits

Runs of digits in some base, in which single underscores may stand.
-/

namespace FieldComposition.Toml

open Reader

def isHexDigit (c : Char) : Bool :=
  c.isDigit || ('a' ≤ c && c ≤ 'f') || ('A' ≤ c && c ≤ 'F')

/-- The value of a digit, of which letters of either case follow the nine. -/
def digitOf (c : Char) : Nat :=
  if c.isDigit then c.toNat - '0'.toNat else c.toLower.toNat - 'a'.toNat + 10

def radixValue (base : Nat) (digits : List Char) : Nat :=
  digits.foldl (fun n c => base * n + digitOf c) 0

/-- Digits after a first one; single underscores may stand between digits. -/
def moreDigits (isDigit : Char → Bool) (cs : List Char) :
    Except Fault (Reading Char (List Char) cs.length) :=
  match cs with
  | [] => .ok (.stay [] [])
  | c :: rest =>
    if isDigit c then
      (moreDigits isDigit rest).map fun r => (r.map (c :: ·)).behind c
    else
      match rest with
      | d :: more =>
        if c = '_' && isDigit d then
          (moreDigits isDigit more).map fun r => ((r.map (d :: ·)).behind d).behind c
        else .ok (.stay [] (c :: d :: more))
      | [] => .ok (.stay [] [c])

/-- Digits of which there is at least one. -/
def digits (isDigit : Char → Bool) : Reader (List Char) := do
  match ← peek with
  | some c => if isDigit c then moreDigits isDigit else fail
  | none => fail

end FieldComposition.Toml
