import FieldComposition.Emission.Term
import FieldComposition.Expansion

/-!
# Scripts

The python code of an expansion, as data: imports, blocks of lines and a resulting value. A script
is written as an expansion (`Script.draft`); the names its lines assign and the modules they use
can be read off it.
-/

namespace FieldComposition.Python

/-- The modules that emitted code imports. -/
inductive Module where
  | runtime | dataclasses | typing
  deriving DecidableEq, Repr

def Module.name : Module → String
  | runtime => "fieldspread.runtime"
  | dataclasses => "dataclasses"
  | typing => "typing"

/-- The line that imports a module; only the runtime module goes by another name. -/
def Module.importLine (runtimeName : String) (m : Module) : String :=
  if m = .runtime then "import " ++ m.name ++ " as " ++ runtimeName else "import " ++ m.name

/-- A field that a constructor is given. -/
structure Keyword where
  name : String
  value : Term
  deriving DecidableEq, Repr

/-- What a name is assigned or a script results in. -/
inductive Computation where
  | term (t : Term)
  /-- A value that is a text of the caller. -/
  | host (text : String)
  | construct (callee : String) (keywords : List Keyword)
  /-- A construction that takes the other fields from a base. -/
  | update (callee base : String) (keywords : List Keyword)
  | fieldChecks (left right : String)
  deriving DecidableEq, Repr

/-- A call with its arguments on lines of their own. -/
def call (callee : Code) (args : List Code) : Code :=
  if args.isEmpty then callee ++ .text "()"
  else Code.enclosed (callee ++ .text "(") (args.map (· ++ .text ",")) (.text ")")

namespace Computation

def keyword (runtimeName : String) (k : Keyword) : Code :=
  .text (k.name ++ "=") ++ k.value.code runtimeName

def code (runtimeName : String) : Computation → Code
  | term t => t.code runtimeName
  | host text => .host text
  | construct callee keywords => call (.text callee) (keywords.map (keyword runtimeName))
  | update callee base keywords =>
    call (.text (runtimeName ++ ".struct_update"))
      (.text callee :: .host base :: keywords.map (keyword runtimeName))
  | fieldChecks left right =>
    .text (runtimeName ++ ".FieldChecks(" ++ left ++ ", " ++ right ++ ")")

end Computation

/-- A field of a class with its type and the default that is evaluated for every instance. -/
structure Field where
  name : String
  type : String
  default : Option Expression := none
  deriving DecidableEq, Repr

/-- A method with one line that returns a call. -/
structure Method where
  parameters : List String
  returnType : Option String
  callee : String
  args : List Term
  deriving DecidableEq, Repr

/-- A data class; with `typeParameters` it is generic over them. -/
structure ClassDef where
  name : String
  typeParameters : Option (List String)
  fields : List Field
  method : Option Method := none
  deriving DecidableEq, Repr

namespace ClassDef

def head (d : ClassDef) : String :=
  match d.typeParameters with
  | some params =>
    "class " ++ d.name ++ "(typing.Generic[" ++ ", ".intercalate params ++ "]):"
  | none => "class " ++ d.name ++ ":"

def fieldLine (f : Field) : Code :=
  let declared := Code.text (f.name ++ ": " ++ f.type)
  match f.default with
  | some default =>
    declared ++ .text " = dataclasses.field(default_factory=lambda: " ++ .host default.text ++
      .text ")"
  | none => declared

def methodLines (runtimeName : String) (m : Method) : List Code :=
  let returns := match m.returnType with
    | some type => " -> " ++ type
    | none => ""
  [.indented (.text ("def call(" ++ ", ".intercalate m.parameters ++ ")" ++ returns ++ ":")),
   .indented (.indented
     (.text ("return " ++ m.callee ++ "(") ++ Code.joined ", " (m.args.map (·.code runtimeName)) ++
       .text ")"))]

def lines (runtimeName : String) (d : ClassDef) : List Code :=
  let method := match d.method with
    | some m => (if d.fields.isEmpty then [] else [.text ""]) ++ methodLines runtimeName m
    | none => []
  [.text "@dataclasses.dataclass", .text d.head] ++
    d.fields.map (fun f => .indented (fieldLine f)) ++ method

end ClassDef

inductive Line where
  | blank
  | typeVariable (name : String)
  | classDef (d : ClassDef)
  | assign (name : String) (value : Computation)
  /-- Compares one field of two values. -/
  | check (checks left right field : String)
  | report (checks : String) (args : List Expression)
  deriving DecidableEq, Repr

namespace Line

/-- The name that a line assigns, definitions of types apart. -/
def assigned? : Line → Option String
  | assign name _ => some name
  | _ => none

def code (runtimeName : String) : Line → List Code
  | blank => [.text ""]
  | typeVariable name => [.text (name ++ " = typing.TypeVar(\"" ++ name ++ "\")")]
  | classDef d => d.lines runtimeName
  | assign name value => [.text (name ++ " = ") ++ value.code runtimeName]
  | check checks left right field =>
    [.text (checks ++ ".check(\"" ++ field ++ "\", " ++ left ++ "." ++ field ++ ", " ++ right ++
      "." ++ field ++ ")")]
  | report checks args =>
    [.text (checks ++ ".report(") ++ Code.joined ", " (args.map fun arg => .host arg.text) ++
      .text ")"]

end Line

/-- Python code; every block of lines is one statement of the expansion. -/
structure Script where
  /-- The modules that are asked for, each as often as a line needs it. -/
  imports : List Module := []
  blocks : List (List Line) := []
  result : Option Computation := none
  deriving DecidableEq, Repr

namespace Script

/-- The names that the lines assign, in order. -/
def assigned (s : Script) : List String :=
  s.blocks.flatten.filterMap Line.assigned?

def draft (runtimeName : String) (s : Script) : Draft where
  imports := s.imports.map (·.importLine runtimeName)
  statements := s.blocks.map fun block => Code.stacked (block.flatMap (·.code runtimeName))
  expression := s.result.map (·.code runtimeName)

end Script

end FieldComposition.Python
