import FieldComposition.Text.NormalForm.Composite
import FieldComposition.Text.NormalForm.Equivalent
import FieldComposition.Text.NormalForm.Mark

/-!
# Normal forms of names

Two names are the same name if they have the same normal form: other forms of a character are
read as the character itself, composites are taken apart, marks are put in order, and what can be
composed is composed again. A name of ASCII characters is its own normal form
(`normalize_eq_self`).
-/

namespace FieldComposition.Text

namespace NormalForm

/-! ### Syllables of Hangul

A syllable is a lead, a vowel and perhaps a tail, and all combinations are numbered through. -/

def firstLead : Nat := 0x1100

def firstVowel : Nat := 0x1161

/-- The code point before the first tail; the tails are counted from one. -/
def tailBase : Nat := 0x11A7

def firstSyllable : Nat := 0xAC00

def leadCount : Nat := 19

def vowelCount : Nat := 21

/-- The number of tails, with the missing one. -/
def tailCount : Nat := 28

/-- The parts of a syllable. -/
def syllableParts? (c : Char) : Option (List Char) :=
  if firstSyllable ≤ c.toNat && c.toNat < firstSyllable + leadCount * vowelCount * tailCount then
    let index := c.toNat - firstSyllable
    let lead := Char.ofNat (firstLead + index / (vowelCount * tailCount))
    let vowel := Char.ofNat (firstVowel + index / tailCount % vowelCount)
    let tail := index % tailCount
    some ([lead, vowel] ++ if tail = 0 then [] else [Char.ofNat (tailBase + tail)])
  else none

/-- The syllable of a lead and a vowel, or of a syllable without a tail and a tail. -/
def syllable? (first second : Char) : Option Char :=
  let f := first.toNat
  let s := second.toNat
  if firstLead ≤ f && f < firstLead + leadCount &&
      firstVowel ≤ s && s < firstVowel + vowelCount then
    some (Char.ofNat
      (firstSyllable + ((f - firstLead) * vowelCount + (s - firstVowel)) * tailCount))
  else if firstSyllable ≤ f && f < firstSyllable + leadCount * vowelCount * tailCount &&
      (f - firstSyllable) % tailCount = 0 && tailBase < s && s < tailBase + tailCount then
    some (Char.ofNat (f + (s - tailBase)))
  else none

/-! ### Taking apart -/

/-- How often a character can be taken apart, at most. -/
def maxDepth : Nat :=
  5

/-- The characters that a character stands for or is composed of, taken apart up to a depth. -/
def partsOf : Nat → Char → List Char
  | 0, c => [c]
  | depth + 1, c =>
    match parts? c with
    | some (letter, mark) => partsOf depth letter ++ partsOf depth mark
    | none =>
      match equivalent? c with
      | some forms => forms.flatMap (partsOf depth)
      | none => [c]

/-- The characters that a character stands for, none of which stands for others. -/
def decompose (c : Char) : List Char :=
  if c.toNat < 0x80 then [c]
  else (syllableParts? c).getD (partsOf maxDepth c)

/-! ### Order of marks -/

/-- Puts a mark behind all marks at the front of lower classes than its own. -/
def insertMark (mark : Char) : List Char → List Char
  | [] => [mark]
  | c :: rest =>
    if 0 < markClass c && markClass c < markClass mark then c :: insertMark mark rest
    else mark :: c :: rest

/-- Characters with every run of marks in the order of their classes. -/
def reorder : List Char → List Char
  | [] => []
  | c :: rest => if markClass c = 0 then c :: reorder rest else insertMark c (reorder rest)

/-! ### Composing -/

/-- Composes characters behind a letter. The marks that did not combine with it are `kept`, the
last of them first; a mark only reaches the letter past marks of lower classes. -/
def composeOnto (letter : Char) (kept : List Char) : List Char → List Char
  | [] => letter :: kept.reverse
  | c :: rest =>
    let reaches := kept.head?.all fun mark => markClass mark < markClass c
    match if reaches then (syllable? letter c).or (composite? letter c) else none with
    | some composed => composeOnto composed kept rest
    | none =>
      if markClass c = 0 then letter :: (kept.reverse ++ composeOnto c [] rest)
      else composeOnto letter (c :: kept) rest

/-- Composes what can be composed; marks without a letter before them stay. -/
def compose : List Char → List Char
  | [] => []
  | c :: rest => if markClass c = 0 then composeOnto c [] rest else c :: compose rest

end NormalForm

open NormalForm

/-- The normal form of a name. -/
def normalize (name : String) : String :=
  if name.toList.all (·.toNat < 0x80) then name
  else String.ofList (compose (reorder (name.toList.flatMap decompose)))

theorem normalize_eq_self {name : String} (h : ∀ c ∈ name.toList, c.toNat < 0x80) :
    normalize name = name :=
  if_pos (List.all_eq_true.2 fun c hc => decide_eq_true (h c hc))

end FieldComposition.Text
