import FieldComposition.Host
import FieldComposition.Invocation
import FieldComposition.SyntaxFault
import FieldComposition.Text.Lines

/-!
# Errors

An error says what is wrong with an invocation or with a request to expand it. Errors that arise
at a place of a text carry a `Location`, whose rendering shows the line and marks the column.
-/

namespace FieldComposition

/-- A place in a named text, with the line it lies on when there is one. -/
structure Location where
  file : String
  position : Position
  snippet : Option String
  deriving DecidableEq, Repr

namespace Location

def inText (file text : String) (position : Position) : Location :=
  ⟨file, position, Text.sourceLine? text position.line⟩

/-- What precedes the line in a snippet: its number, at least four places wide. -/
def gutter (l : Location) : String :=
  let number := toString l.position.line
  "".pushn ' ' (4 - number.length) ++ number ++ " | "

/-- The line with its number, and a mark below the column. -/
def renderSnippet (l : Location) (line : String) : String :=
  let indentation := (l.gutter.length + l.position.column - 1).toNat
  l.gutter ++ line ++ "\n" ++ "".pushn ' ' indentation ++ "^^^"

def render (l : Location) : String :=
  let place := l.file ++ ":" ++ l.position.render
  match l.snippet with
  | some line => if line = "" then place else place ++ "\n" ++ l.renderSnippet line
  | none => place

end Location

inductive Error where
  | malformed (fault : SyntaxFault) (location : Location)
  | duplicateField (field first second : String) (location : Option Location)
  | unknownDialect (name : String)
  | unknownEntryPoint (name : String)
  | noBackend (entryPoint : EntryPoint) (dialect : String)
  | wrongForm (backend expected given : String)
  | notEvaluable (dialect : String)
  | unresolvedReference (entryPoint : EntryPoint) (name : String)
  deriving DecidableEq, Repr

namespace Error

/-- The family that an error belongs to. -/
def family : Error → String
  | malformed .. => "FieldSyntaxError"
  | duplicateField .. => "DuplicateFieldError"
  | unresolvedReference .. => "UnresolvedReferenceError"
  | _ => "BackendError"

def message : Error → String
  | malformed fault _ => fault.message
  | duplicateField field first second _ =>
    "Duplicate field `" ++ field ++ "`: claimed by " ++ first ++ " and by " ++ second
  | unknownDialect name =>
    "Unknown dialect '" ++ name ++ "'; expected one of " ++
      ", ".intercalate (Dialect.all.map Dialect.name)
  | unknownEntryPoint name => "Unknown invocation kind: " ++ name
  | noBackend entryPoint dialect =>
    "No " ++ entryPoint.name ++ " backend for dialect '" ++ dialect ++ "'"
  | wrongForm backend expected given => backend ++ " expects " ++ expected ++ ", got " ++ given
  | notEvaluable dialect => "Only python expansions can be evaluated, not " ++ dialect
  | unresolvedReference entryPoint name =>
    "Unresolved reference in " ++ entryPoint.name ++ " expansion: name '" ++ name ++
      "' is not defined"

def location? : Error → Option Location
  | malformed _ location => some location
  | duplicateField _ _ _ location => location
  | _ => none

/-- The place of an error, if it has one, above its message. -/
def render (e : Error) : String :=
  match e.location? with
  | some location => location.render ++ "\n" ++ e.message
  | none => e.message

end Error

/-- Why an invocation cannot be read, and where. -/
inductive ReadError where
  | fault (fault : SyntaxFault) (position : Position)
  /-- A field is named a second time in a list of field names. -/
  | repeatedName (name : String) (first second : Position)
  deriving DecidableEq, Repr

/-- A read error within the text it arose in. -/
def ReadError.locate (file text : String) : ReadError → Error
  | fault f position => .malformed f (.inText file text position)
  | repeatedName name first second =>
    .duplicateField name ("field list entry at " ++ first.render)
      ("field list entry at " ++ second.render) (some (.inText file text second))

end FieldComposition
