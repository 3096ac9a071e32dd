import FieldComposition.Emission.Record

/-!
# Assertions

Both sides of an assertion are evaluated once. The python dialect compares field by field and
reports all mismatches together; the rust dialect compares two structs of references to the
fields. The table is that of the expected record, when the assertion has one.
-/

namespace FieldComposition

namespace Python

/-- The expected value, with the code that it needs before it. -/
def expectedValue (settings : Settings) (a : Assertion) (t : FieldTable) : Script × Computation :=
  match a.expected with
  | .value expression _ => ({}, .host expression.text)
  | .record _ =>
    let record := anonRecord settings t
    (record, record.result.getD (.host ""))

def assertion (settings : Settings) (a : Assertion) (t : FieldTable) : Script :=
  let left := settings.bindingStem ++ "actual"
  let right := settings.bindingStem ++ "expected"
  let checks := settings.bindingStem ++ "checks"
  let (before, expected) := expectedValue settings a t
  let lines := [.assign left (.host a.actual.text), .assign right expected,
      .assign checks (.fieldChecks left right)] ++
    a.fields.map (fun field => .check checks left right field) ++
    [.report checks a.formatArgs]
  { imports := .runtime :: before.imports, blocks := before.blocks ++ [lines] }

end Python

namespace Rust

/-- References to the compared fields of one side. -/
def projection (side : String) (fields : List String) : Code :=
  Code.enclosed (.text ("let " ++ side ++ " = Fields \x7b"))
    (fields.map fun field => .text (field ++ ": &(" ++ side ++ "." ++ field ++ "),"))
    (.text "\x7d;")

def assertion (settings : Settings) (a : Assertion) (t : FieldTable) : Draft :=
  let fields := a.fields
  let (before, right) := match a.expected with
    | .value expression _ => ([], Code.host expression.text)
    | .record _ => ([letBinding "right" (anonRecord settings t), .text ""], .text "right")
  let generics := ", ".intercalate ("'a" :: fields)
  let fieldsType := Code.braced (.text ("struct Fields<" ++ generics ++ ">"))
    (fields.map fun field => .text (field ++ ": &'a " ++ field ++ ","))
  let args := [.text "left", .text "right"] ++ a.formatArgs.map fun arg => Code.host arg.text
  { statements := [Code.block (before ++
      [allowNaming, .text "#[derive(Debug, PartialEq, Eq)]", fieldsType, .text "",
       letBinding "left" (.text "&" ++ .host a.actual.text), projection "left" fields, .text "",
       letBinding "right" (.text "&" ++ right), projection "right" fields, .text "",
       .text "assert_eq!(" ++ Code.joined ", " args ++ .text ");"])] }

end Rust

end FieldComposition
