import FieldComposition.Emission.Script
import FieldComposition.Evaluation.Builtin
import FieldComposition.Libraries

/-!
# Objects

What a name can stand for when emitted code is run: a value, something built in, a function of the
runtime module, a class of records, an imported module, a type variable, or checks that go on.
Objects have members (`Object.member?`) and can be called. What a run constructs it constructs on
one occasion: a default that is made does not change within a run.
-/

namespace FieldComposition

/-- The functions of the runtime module that emitted code calls. -/
inductive Function where
  | clone | into | structUpdate | fieldChecks
  deriving DecidableEq, Repr

namespace Function

def name : Function → String
  | clone => "clone"
  | into => "into"
  | structUpdate => "struct_update"
  | fieldChecks => "FieldChecks"

def all : List Function :=
  [clone, into, structUpdate, fieldChecks]

def ofName? (name : String) : Option Function :=
  all.find? (·.name == name)

end Function

/-- Where a class of records comes from. -/
inductive ClassOrigin where
  /-- It was there before the code. -/
  | given
  /-- The code declares it, generic over the types of its fields. -/
  | emitted
  deriving DecidableEq, Repr

namespace ClassOrigin

/-- The module that a class is listed under. -/
def module : ClassOrigin → String
  | given => Value.recordModule
  | emitted => "builtins"

/-- The classes that a class extends, the common one of all classes apart. -/
def parents : ClassOrigin → List String
  | given => []
  | emitted => [classForm "typing" "Generic"]

end ClassOrigin

inductive Object where
  | value (v : Value)
  | builtin (b : Builtin)
  | function (f : Function)
  | recordClass (c : RecordClass) (origin : ClassOrigin)
  | library (m : Python.Module)
  | typeVariable (name : String)
  /-- A part that every value of a class has, as the class itself holds it. -/
  | part (className name : String)
  | checks (c : FieldChecks)

namespace Object

def symbol (form : String) : Object :=
  value (.symbol form)

/-- How a member of a class is shown that its values have each for themselves. -/
def memberForm (sort className name : String) : String :=
  "<" ++ sort ++ " '" ++ name ++ "' of '" ++ className ++ "' objects>"

/-- An object as the value of a field; what is no value is only named there. -/
def toValue : Object → Value
  | value v => v
  | builtin b => .symbol b.form
  | function .fieldChecks => .symbol (classForm Python.Module.runtime.name "FieldChecks")
  | function f => .symbol ("<function " ++ f.name ++ ">")
  | recordClass c origin => .symbol (classForm origin.module c.name)
  | library m => .symbol ("<module '" ++ m.name ++ "'>")
  | typeVariable name => .symbol ("~" ++ name)
  | part className name => .symbol (memberForm "attribute" className name)
  | checks _ => .symbol "<FieldChecks object>"

/-- What a name stands for everywhere, if it is known everywhere. -/
def builtin? (name : String) : Option Object :=
  ((Value.lookup? name Builtin.constants).map value).or ((Builtin.find? name).map builtin)

/-! ### Members -/

/-- The class of all classes. -/
def metaclass : Object :=
  builtin (.type "type")

/-- The class that an object belongs to. -/
def classOf : Object → Object
  | value (.record name fields) =>
    recordClass (RecordClass.ofFields name (fields.map (·.1))) .given
  | value v => builtin (.type v.className)
  | builtin (.type _) | recordClass .. | function .fieldChecks => metaclass
  | builtin (.function _) => builtin (.type "builtin_function_or_method")
  | function _ => builtin (.type "function")
  | library _ => builtin (.type "module")
  | typeVariable _ => symbol (classForm "typing" "TypeVar")
  | part .. => symbol (classForm "builtins" "getset_descriptor")
  | checks _ => function .fieldChecks

/-- A name that a class or function has, under the module that declares it. -/
def naming? (module name : String) : String → Option Object
  | "__name__" | "__qualname__" => some (value (.text name))
  | "__module__" => some (value (.text module))
  | _ => none

/-- A member of a class that acts on a value of it. -/
def method (className name : String) : Object :=
  symbol (memberForm "method" className name)

/-- The operation of a name, if it is one of those that a class has. -/
def operation? (operations : List String) (className name : String) : Option Object :=
  if operations.contains name then some (method className name) else none

/-- The classes that a class extends, the nearest first. -/
def lineage? (self : Value) (parents : List String) : String → Option Object
  | "__mro__" => some (value (.tuple (self :: parents.map .symbol)))
  | "__bases__" => some (value (.tuple ((parents.take 1).map .symbol)))
  | "__base__" => some (value ((parents.head?.map .symbol).getD .nothing))
  | _ => none

/-- The common class of everything. -/
def rootForm : String :=
  classForm "builtins" "object"

/-- The classes that the class of plain values extends. -/
def plainParents : String → List String
  | "object" => []
  | "bool" => [classForm "builtins" "int", rootForm]
  | _ => [rootForm]

def builtinMember? (b : Builtin) (name : String) : Option Object :=
  let own? := match b with
    | .type className =>
      let part? := if (Value.partNames className).contains name then
          some (part (if className = "bool" then "int" else className) name)
        else none
      let lineage? := if (Builtin.classNames ++ ["NoneType"]).contains className then
          lineage? (.symbol b.form) (plainParents className) name
        else none
      (lineage?.or part?).or
        (operation? (Value.operationsOf className ++ RecordClass.commonMembers) className name)
    | .function _ => operation? ("__call__" :: Value.commonOperations) b.name name
  (naming? "builtins" b.name name).or own?

/-- The members of a class of records; the defaults of its fields are none. -/
def classMember? (c : RecordClass) (origin : ClassOrigin) (name : String) : Option Object :=
  let self := Value.symbol (classForm origin.module c.name)
  let own? := match name with
    | "__match_args__" => some (value (.tuple (c.fieldNames.map .text)))
    | "__hash__" => some (value .nothing)
    | _ =>
      if RecordClass.hasMember (origin = .emitted) name || Value.recordOperations.contains name then
        some (method c.name name)
      else none
  ((naming? origin.module c.name name).or
    (lineage? self (origin.parents ++ [rootForm]) name)).or own?

/-- What a module makes available, as far as emitted code uses it. -/
def libraryMember? (m : Python.Module) (name : String) : Option Object :=
  match m, name with
  | m, "__name__" => some (value (.text m.name))
  | .runtime, "TypeVar" | .typing, "TypeVar" => some (symbol (classForm "typing" "TypeVar"))
  | .runtime, name => (Function.ofName? name).map function
  | .typing, "Generic" => some (symbol (classForm "typing" "Generic"))
  | .typing, "Any" => some (symbol "typing.Any")
  | .dataclasses, "dataclass" => some (symbol "<function dataclass>")
  | _, _ => none

def partMember? (className given : String) : String → Option Object
  | "__name__" => some (value (.text given))
  | "__qualname__" => some (value (.text (className ++ "." ++ given)))
  | "__objclass__" => (Builtin.find? className).map builtin
  | _ => none

def checksMember? (c : FieldChecks) : String → Option Object
  | "actual" => some (value c.actual)
  | "expected" => some (value c.expected)
  | "checked" => some (value (.list (c.checked.map .text)))
  | "passed" => some (value (.bool c.passed))
  | "mismatches" => some (value (.list
      (c.mismatches.map fun m => .tuple [.text m.name, m.actual, m.expected])))
  | _ => none

/-- What an object has under a name. -/
def member? (o : Object) (name : String) : Option Object :=
  if name = "__class__" then some o.classOf
  else
    let own? := match o with
      | value v => (v.member? name).map value
      | builtin b => builtinMember? b name
      | function f => naming? Python.Module.runtime.name f.name name
      | recordClass c origin => classMember? c origin name
      | library m => libraryMember? m name
      | typeVariable given => if name = "__name__" then some (value (.text given)) else none
      | part className given => partMember? className given name
      | checks c => checksMember? c name
    own?.or (operation? Value.commonOperations o.classOf.toValue.render name)

def member (o : Object) (name : String) : Except EvaluationFault Object :=
  match o.member? name with
  | some o => .ok o
  | none => .error .noMember

/-! ### Calls -/

/-- A copy that shares nothing; modules and the parts of a class cannot be copied. -/
def cloned : Object → Except EvaluationFault Object
  | library _ | part .. => .error .badCall
  | o => .ok o

/-- Converts a value to the type that an object declares for a name, if it declares any. -/
def convertFor (lib : Libraries) (target : Object) (name : String) (o : Object) :
    Except EvaluationFault Object :=
  match target with
  | recordClass c _ =>
    match c.into lib name o.toValue with
    | .ok v => .ok (value v)
    | .error issues => .error (.invalid issues)
  | _ => .ok o

/-- The occasion on which a run constructs. -/
def runOccasion : Nat :=
  0

/-- What something built in makes of values by name. Only a dictionary takes names of its own. -/
def constructBuiltin (b : Builtin) (fields : List (String × Value)) :
    Except EvaluationFault Object :=
  if b = .type "dict" then .ok (value (.dict fields))
  else if fields.isEmpty then
    match b.empty? with
    | some v => .ok (value v)
    | none => .error .badCall
  else .error .badCall

/-- Makes a record of a class from fields by name. -/
def construct (lib : Libraries) (callee : Object) (fields : List (String × Value)) :
    Except EvaluationFault Object :=
  match callee with
  | recordClass c _ =>
    match c.construct lib runOccasion fields with
    | .ok fields => .ok (value (.record c.name fields))
    | .error fault => .error (.construction fault)
  | builtin b => constructBuiltin b fields
  | _ => .error .badCall

/-- Makes a record of a class from some fields and a base. -/
def update (lib : Libraries) (callee base : Object) (fields : List (String × Value)) :
    Except EvaluationFault Object :=
  match callee with
  | recordClass c _ =>
    match c.complete (fun name => .ok ((base.member? name).map toValue)) fields with
    | .ok fields => construct lib callee fields
    | .error fault => .error (.construction fault)
  | _ => construct lib callee fields

/-- Makes a record of a class from values in the order of its fields. -/
def constructInOrder (lib : Libraries) (c : RecordClass) (origin : ClassOrigin)
    (values : List Value) : Except EvaluationFault Object :=
  if c.placedParameters.length < values.length then .error .badCall
  else construct lib (recordClass c origin) (c.placedParameters.zip values)

def call (lib : Libraries) (callee : Object) (args : List Object) :
    Except EvaluationFault Object :=
  match callee, args with
  | builtin (.type "type"), [o] => .ok o.classOf
  | builtin b, [o] => (b.apply o.toValue).map value
  | function .clone, [o] => o.cloned
  | function .into, [o, target, value (.text name)] => convertFor lib target name o
  | function .fieldChecks, [left, right] => .ok (checks ⟨left.toValue, right.toValue, []⟩)
  | recordClass c origin, args => constructInOrder lib c origin (args.map toValue)
  | _, _ => .error .badCall

end Object

end FieldComposition
