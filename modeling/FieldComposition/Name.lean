import FieldComposition.Text.NormalForm

/-!
# Names in emitted code

A word of emitted code is a name unless the dialect reserves it, and two words are the same name if
they have the same normal form. A word is compared with the reserved ones as it is written, so
that another form of a reserved word is a name.
-/

namespace FieldComposition.Name

/-- Words of the python dialect that are no names. -/
def reservedWords : List String :=
  ["False", "None", "True", "and", "as", "assert", "async", "await", "break", "class", "continue",
   "def", "del", "elif", "else", "except", "finally", "for", "from", "global", "if", "import",
   "in", "is", "lambda", "nonlocal", "not", "or", "pass", "raise", "return", "try", "while",
   "with", "yield"]

def isReserved (word : String) : Bool :=
  reservedWords.contains word

/-- The name that is always true and never bound. -/
def checking : String :=
  "__debug__"

/-- A name as it is known inside a class: one that starts with two underscores and does not end
with them is bound to the class, whose own leading underscores do not count. -/
def inClass (className name : String) : String :=
  let stem := className.toList.dropWhile (· == '_')
  let mark := ['_', '_']
  if mark.isPrefixOf name.toList && !mark.isSuffixOf name.toList && !stem.isEmpty then
    String.ofList ('_' :: stem) ++ name
  else name

/-- Whether names are all different, as they are written. -/
def areDistinct (names : List String) : Bool :=
  names.eraseDups.length == names.length

end FieldComposition.Name
