/-!
# What is shown

A command shows lines of marked text, tables and code on a console.
-/

namespace FieldComposition.CommandLine

inductive TextStyle where
  | bold | dim
  deriving DecidableEq, Repr

def TextStyle.tag : TextStyle → String
  | bold => "bold"
  | dim => "dim"

/-- A piece of text in one style. -/
structure Span where
  text : String
  style : Option TextStyle := none
  deriving DecidableEq, Repr

/-- A piece of text with tags around it that name its style. -/
def Span.tagged (s : Span) : String :=
  match s.style with
  | some style => "[" ++ style.tag ++ "]" ++ s.text ++ "[/" ++ style.tag ++ "]"
  | none => s.text

structure TextTable where
  title : String
  columns : List String
  rows : List (List String)
  deriving DecidableEq, Repr

inductive Display where
  | text (spans : List Span)
  | table (t : TextTable)
  | code (language text : String)
  deriving DecidableEq, Repr

end FieldComposition.CommandLine
