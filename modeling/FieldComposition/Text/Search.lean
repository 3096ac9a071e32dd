/-!
# Parts of a text

Where a separator occurs in a text, and the parts before and after it.
-/

namespace FieldComposition.Text

/-- The parts before and after the first occurrence of a separator. -/
def cutAtFirst? (separator : List Char) : List Char → Option (List Char × List Char)
  | [] => none
  | c :: rest =>
    if separator.isPrefixOf (c :: rest) then some ([], (c :: rest).drop separator.length)
    else (cutAtFirst? separator rest).map fun parts => (c :: parts.1, parts.2)

/-- The parts before and after the last occurrence of a separator. -/
def cutAtLast? (separator : List Char) : List Char → Option (List Char × List Char)
  | [] => none
  | c :: rest =>
    match cutAtLast? separator rest with
    | some parts => some (c :: parts.1, parts.2)
    | none =>
      if separator.isPrefixOf (c :: rest) then some ([], (c :: rest).drop separator.length)
      else none

/-- Whether a text occurs in another one. -/
def occursIn (part text : List Char) : Bool :=
  part.isEmpty || (cutAtFirst? part text).isSome

/-- The characters of a text from one offset to another, the second one excluded. -/
def slice (text : String) (start stop : Nat) : String :=
  String.ofList ((text.toList.drop start).take (stop - start))

end FieldComposition.Text
