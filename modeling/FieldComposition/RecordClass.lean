import FieldComposition.Text.NormalForm
import FieldComposition.TypeHint
import FieldComposition.Value.Member

/-!
# Record classes

A class declares fields with types and defaults, and its style decides what its constructor makes
of the fields it is given. A field that is not given has its default: a value, or what a function
makes at each construction. A class may also take values that it does not store, and may finish new
objects in its own way.
-/

namespace FieldComposition

/-- How a class, or something else that declares types, treats the fields it is given. -/
inductive Style where
  /-- Takes exactly its fields, as they are. -/
  | dataclass
  /-- Converts its fields, and ignores all others. -/
  | model
  | namedTuple
  /-- Takes whatever it is given. -/
  | plain
  /-- A function, whose parameters have types. -/
  | callable
  deriving DecidableEq, Repr

/-- Why a constructor refuses the fields it is given. -/
inductive ConstructionFault where
  /-- A field is missing, one is not known, or one cannot have its value. -/
  | badFields
  | invalid (issues : List ValueIssue)
  /-- The class has a field of a type that does not exist. -/
  | incomplete
  /-- A field cannot be set, or nothing sets it: the constructor does not take it, and it has no
  default. -/
  | unset
  /-- Code of the class itself fails, or code that reads a member of a base. -/
  | raised
  deriving DecidableEq, Repr

/-- What stands for a field that is not given. -/
inductive Default where
  | value (v : Value)
  /-- A function makes the value. Which one may depend on what it made before, so that it is told
  the number of the construction. -/
  | made (make : Nat → Except ConstructionFault Value)

/-- The value of a default in the construction with a number. -/
def Default.at (d : Default) (occasion : Nat) : Except ConstructionFault Value :=
  match d with
  | value v => .ok v
  | made make => make occasion

structure FieldDecl where
  name : String
  hint : TypeHint
  default : Option Default := none
  /-- Whether the constructor takes the field. -/
  isInit : Bool := true
  /-- Whether the constructor takes it only by its name. -/
  isNamedOnly : Bool := false
  /-- Whether it is only passed on when a new object is finished, and not stored. -/
  isPassedOn : Bool := false

structure RecordClass where
  style : Style
  name : String
  fields : List FieldDecl
  /-- What the class itself does with a new object: its fields afterwards, from the number of the
  construction, its fields so far and the values that are passed on. -/
  finish : Option (Nat → List (String × Value) → List (String × Value) →
    Except ConstructionFault (List (String × Value))) := none
  /-- Whether objects are compared by their fields; if not, every object differs from all others. -/
  comparesFields : Bool := true

namespace RecordClass

/-- What every class has, apart from the operations that every value has. -/
def commonMembers : List String :=
  ["__base__", "__bases__", "__basicsize__", "__call__", "__class__", "__dict__",
   "__dictoffset__", "__flags__", "__instancecheck__", "__itemsize__", "__module__", "__mro__",
   "__name__", "__or__", "__prepare__", "__qualname__", "__ror__", "__subclasscheck__",
   "__subclasses__", "__text_signature__", "__weakrefoffset__", "mro"]

/-- What a class of records has beside that when its fields are collected. -/
def classMembers : List String :=
  ["__annotations__", "__dataclass_params__", "__weakref__"]

/-- What a class has beside that if it is generic. -/
def genericMembers : List String :=
  ["__class_getitem__", "__orig_bases__", "__parameters__", "__slots__", "_is_protocol"]

/-- The members of every class that can change. -/
def changingMembers : List String :=
  ["__annotations__", "__dict__"]

/-- Whether a class has a member of a name before it has fields. -/
def hasMember (isGeneric : Bool) (name : String) : Bool :=
  (Value.commonOperations ++ commonMembers ++ classMembers).contains name ||
    (isGeneric && genericMembers.contains name)

/-- The default of a field. If a class of records declares none, a member of its name that every
class has is taken for one; of that only the name is known here. -/
def defaultOf? (c : RecordClass) (f : FieldDecl) : Option Default :=
  if c.style = .dataclass && hasMember false f.name then
    f.default.or (some (.value (.symbol ("<member " ++ f.name ++ ">"))))
  else f.default

/-- The fields that objects of a class have. -/
def storedFields (c : RecordClass) : List FieldDecl :=
  c.fields.filter fun f => !f.isPassedOn

/-- The declared types; a single one that does not exist hides all of them. -/
def hints (c : RecordClass) : List (String × TypeHint) :=
  if c.fields.any (·.hint == .unresolved) then [] else c.fields.map fun f => (f.name, f.hint)

/-- The names of the fields that a constructor is known to take. -/
def fieldNames (c : RecordClass) : List String :=
  match c.style with
  | .dataclass => (c.storedFields.filter (·.isInit)).map (·.name)
  | .model | .namedTuple => c.fields.map (·.name)
  | .plain | .callable =>
    (c.hints.map (·.1)).filter fun name => name.toList.head? != some '_'

/-- The fields and other values that a constructor takes which takes exactly these. -/
def parameterFields (c : RecordClass) : List FieldDecl :=
  if c.style = .dataclass then c.fields.filter (·.isInit) else c.fields

/-- The names by which such a constructor knows them. -/
def parameters (c : RecordClass) : List String :=
  c.parameterFields.map fun f => Text.normalize f.name

/-- Those among them that go by their places as well. -/
def placedParameters (c : RecordClass) : List String :=
  match c.style with
  | .dataclass | .namedTuple =>
    (c.parameterFields.filter fun f => !f.isNamedOnly).map fun f => Text.normalize f.name
  | .model | .plain | .callable => []

/-- Such a constructor takes what it is given if it knows all of it, and if nothing is missing. -/
def accepts (c : RecordClass) (given : List (String × Value)) : Bool :=
  (given.all fun field => c.parameters.contains field.1) &&
    c.parameterFields.all fun f =>
      (Value.lookup? (Text.normalize f.name) given).isSome || (c.defaultOf? f).isSome

/-- The value that a field of a new object starts with. -/
def initialValue (c : RecordClass) (occasion : Nat) (given : List (String × Value))
    (f : FieldDecl) : Except ConstructionFault Value :=
  let given? := if f.isInit then Value.lookup? (Text.normalize f.name) given else none
  match given?, c.defaultOf? f with
  | some v, _ => .ok v
  | none, some d => d.at occasion
  | none, none => .error .unset

/-- The class of an object is only set to another class, and references to it are not set at all,
unless the class has declared something else under their names. -/
def assignmentFault? (f : FieldDecl) : Option ConstructionFault :=
  if f.default.isSome then none
  else if f.name = "__class__" then some .badFields
  else if f.name = "__weakref__" then some .unset
  else none

/-- A field of a new object. -/
def storeField (c : RecordClass) (occasion : Nat) (given : List (String × Value))
    (f : FieldDecl) : Except ConstructionFault (String × Value) := do
  let v ← c.initialValue occasion given f
  match assignmentFault? f with
  | some fault => throw fault
  | none => return (f.name, v)

/-- The values that are passed on when a new object is finished. -/
def passedOn (c : RecordClass) (occasion : Nat) (given : List (String × Value)) :
    Except ConstructionFault (List (String × Value)) :=
  (c.fields.filter (·.isPassedOn)).mapM fun f => do
    return (f.name, ← c.initialValue occasion given f)

/-- The fields of an object that is constructed from exactly its fields: each is stored, and then
the class finishes the object. -/
def constructExact (c : RecordClass) (occasion : Nat) (given : List (String × Value)) :
    Except ConstructionFault (List (String × Value)) :=
  if c.accepts given then do
    let stored ← c.storedFields.mapM (c.storeField occasion given)
    match c.finish with
    | none => return stored
    | some finish => finish occasion stored (← c.passedOn occasion given)
  else .error .badFields

/-- The given fields, and behind them those that only the base has. A base is told by what its
members are when they are read, which may fail. -/
def complete (c : RecordClass) (base : String → Except ConstructionFault (Option Value))
    (given : List (String × Value)) : Except ConstructionFault (List (String × Value)) := do
  let missing := c.fieldNames.filter fun name => !given.any (·.1 == name)
  let found ← missing.mapM fun name => do
    return (← base name).map fun v => (name, v)
  return given ++ found.filterMap id

/-- The class of records with the given fields. -/
def ofFields (name : String) (fields : List String) : RecordClass :=
  { style := .dataclass, name, fields := fields.map fun field => { name := field, hint := .any } }

end RecordClass

end FieldComposition
