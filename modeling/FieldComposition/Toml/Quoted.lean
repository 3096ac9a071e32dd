import FieldComposition.Toml.Layout

/-!
# Strings in quotes

A string stands in single or double quotes, on one line or, in three quotes, on several. Double
quotes know escapes; what an escape leaves unread is the end of what follows it
(`escape?_suffix`), so a string can be read to its end.
-/

namespace FieldComposition.Toml

open Reader

/-- A character by its code point in a number of hexadecimal digits. -/
def hexChar (width : Nat) (cs : List Char) : Option (Char × List Char) :=
  let digits := cs.take width
  if digits.length = width && digits.all isHexDigit then
    let code := radixValue 16 digits
    if code.isValidChar then some (Char.ofNat code, cs.drop width) else none
  else none

/-- What follows a backslash at the end of a line: the line ends, and blanks and empty lines after
it are left out. -/
def continuedLine (c : Char) (rest : List Char) : Option (List Char) :=
  let skipLines := List.dropWhile fun d => isSpace d || d == '\n'
  if c = '\n' then some (skipLines rest)
  else match rest.dropWhile isSpace with
    | [] => some []
    | d :: more => if d = '\n' then some (skipLines more) else none

/-- What a backslash and the character `c` after it stand for, and what is left. -/
def escape? (inLines : Bool) (c : Char) (rest : List Char) : Option (List Char × List Char) :=
  if inLines && (isSpace c || c = '\n') then (continuedLine c rest).map fun left => ([], left)
  else
    match c with
    | 'u' => (hexChar 4 rest).map fun (char, left) => ([char], left)
    | 'U' => (hexChar 8 rest).map fun (char, left) => ([char], left)
    | 'b' => some (['\x08'], rest)
    | 't' => some (['\t'], rest)
    | 'n' => some (['\n'], rest)
    | 'f' => some (['\x0c'], rest)
    | 'r' => some (['\r'], rest)
    | '"' => some (['"'], rest)
    | '\\' => some (['\\'], rest)
    | _ => none

theorem continuedLine_suffix {c : Char} {rest left : List Char}
    (h : continuedLine c rest = some left) : left <:+ rest := by
  unfold continuedLine at h
  split at h
  · injection h with h
    exact h ▸ List.dropWhile_suffix _
  · have hspaces : rest.dropWhile isSpace <:+ rest := List.dropWhile_suffix _
    split at h
    · injection h with h
      exact h ▸ List.nil_suffix
    · rename_i d more hdrop
      rw [hdrop] at hspaces
      split at h
      · injection h with h
        have hmore : left <:+ more := h ▸ List.dropWhile_suffix _
        exact (hmore.trans (List.suffix_cons d more)).trans hspaces
      · simp at h

theorem hexChar_suffix {width : Nat} {cs left : List Char} {c : Char}
    (h : hexChar width cs = some (c, left)) : left <:+ cs := by
  unfold hexChar at h
  simp only at h
  split at h
  · split at h
    · injection h with h
      injection h with _ h
      exact h ▸ List.drop_suffix _ _
    · simp at h
  · simp at h

/-- What an escape leaves is the end of what follows its backslash and character. -/
theorem escape?_suffix {inLines : Bool} {c : Char} {rest chars left : List Char}
    (h : escape? inLines c rest = some (chars, left)) : left <:+ rest := by
  unfold escape? at h
  split at h
  · obtain ⟨after, hafter, heq⟩ := Option.map_eq_some_iff.1 h
    injection heq with _ heq
    exact heq ▸ continuedLine_suffix hafter
  · split at h
    case _ =>
      obtain ⟨⟨char, after⟩, hafter, heq⟩ := Option.map_eq_some_iff.1 h
      injection heq with _ heq
      exact heq ▸ hexChar_suffix hafter
    case _ =>
      obtain ⟨⟨char, after⟩, hafter, heq⟩ := Option.map_eq_some_iff.1 h
      injection heq with _ heq
      exact heq ▸ hexChar_suffix hafter
    all_goals simp_all

/-- The rest of a string with escapes, up to its closing quotes. -/
def basicRest (inLines : Bool) (cs : List Char) :
    Except Fault (Reading Char (List Char) cs.length) :=
  match cs with
  | [] => .error .malformed
  | c :: rest =>
    if c = '"' then
      if !inLines then .ok ⟨[], rest, Nat.le_succ _⟩
      else if ['"', '"'].isPrefixOf rest then
        .ok ⟨[], rest.drop 2, by simp only [List.length_drop, List.length_cons]; omega⟩
      else (basicRest inLines rest).map fun r => (r.map (c :: ·)).behind c
    else if c = '\\' then
      match rest with
      | [] => .error .malformed
      | d :: more =>
        match h : escape? inLines d more with
        | none => .error .malformed
        | some (chars, left) =>
          have := (escape?_suffix h).length_le
          (basicRest inLines left).map fun r =>
            (r.map (chars ++ ·)).weaken (by simp only [List.length_cons]; omega)
    else if isIllegal c && !(inLines && c = '\n') then .error .malformed
    else (basicRest inLines rest).map fun r => (r.map (c :: ·)).behind c
termination_by cs.length
decreasing_by all_goals simp only [List.length_cons]; omega

/-- The rest of a string without escapes that ends in one quote. -/
def literalRest : Reader (List Char) := do
  let body ← takeWhile (· != '\'')
  expect ['\'']
  if body.any isIllegal then fail
  return body

/-- The rest of a string without escapes that ends in three quotes. -/
def literalLinesRest (cs : List Char) : Except Fault (Reading Char (List Char) cs.length) :=
  match cs with
  | [] => .error .malformed
  | c :: rest =>
    if ['\'', '\'', '\''].isPrefixOf (c :: rest) then
      .ok ⟨[], rest.drop 2, by simp only [List.length_drop, List.length_cons]; omega⟩
    else if isIllegalInLines c then .error .malformed
    else (literalLinesRest rest).map fun r => (r.map (c :: ·)).behind c

/-- Up to two quotes before the three that end a string belong to it. -/
def lastQuotes (quote : Char) : Reader (List Char) := do
  if ← accepts [quote, quote] then return [quote, quote]
  else if ← accepts [quote] then return [quote]
  else return []

/-- A string over several lines; a line end right after the opening quotes is left out. -/
def linesString (quote : Char) (body : Reader (List Char)) : Reader String := do
  skip 3
  let _ ← accepts ['\n']
  let chars ← body
  return String.ofList (chars ++ (← lastQuotes quote))

def lineString (body : Reader (List Char)) : Reader String := do
  skip 1
  return String.ofList (← body)

/-- A string in quotes, in three or in one. -/
def quotedString (quote : Char) (lines line : Reader (List Char)) : Reader String := do
  if ← sees [quote, quote, quote] then linesString quote lines else lineString line

end FieldComposition.Toml
