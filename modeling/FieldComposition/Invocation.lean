import FieldComposition.Composition
import FieldComposition.Text.Blank
import FieldComposition.Text.Search

/-!
# Invocations

The entry points and what each of them reads: a struct update, an anonymous record, a rebinding,
an argument holder or an assertion that fields are equal.
-/

namespace FieldComposition

/-- The entry points; `clone` is a rebinding that clones every name. -/
inductive EntryPoint where
  | spread | anon | slet | clone | fnStruct | assertFieldsEq
  deriving DecidableEq, Repr

namespace EntryPoint

def all : List EntryPoint :=
  [spread, anon, slet, clone, fnStruct, assertFieldsEq]

def name : EntryPoint → String
  | spread => "spread"
  | anon => "anon"
  | slet => "slet"
  | clone => "clone"
  | fnStruct => "fn_struct"
  | assertFieldsEq => "assert_fields_eq"

def ofName? (name : String) : Option EntryPoint :=
  all.find? (·.name == name)

end EntryPoint

/-- A generic parameter as it is declared, and the name it introduces. -/
structure GenericParam where
  decl : String
  name : String
  deriving DecidableEq, Repr

/-- An argument of a holder; without a type it is generic. -/
structure Argument where
  name : String
  modifier : Modifier := .direct
  type : Option String := none
  default : Option Expression := none
  position : Position := .start
  deriving DecidableEq, Repr

/-- A record of the arguments of one function, with a method that calls it. -/
structure Holder where
  name : String
  visibility : Option String := none
  callByRef : Bool := false
  generics : List GenericParam := []
  whereClause : Option String := none
  callGenerics : List GenericParam := []
  callWhere : Option String := none
  path : String
  receiver : Option Modifier := none
  args : List Argument := []
  returnType : Option String := none
  deriving DecidableEq, Repr

namespace Holder

/-- Whether the holder can be built without arguments. -/
def hasDefaults (h : Holder) : Bool :=
  !h.args.isEmpty && h.args.all (·.default.isSome)

/-- The type that a method path is called on: `T` in `<T as Trait>::method`, otherwise the path
without its last segment. -/
def receiverType (h : Holder) : String :=
  let path := h.path.toList
  let qualified? := if path.head? = some '<' then
      (Text.cutAtFirst? [' ', 'a', 's', ' '] path).map fun parts => Text.strip (parts.1.drop 1)
    else none
  let owner? := ((Text.cutAtLast? [':', ':'] path).or (Text.cutAtLast? ['.'] path)).map (·.1)
  String.ofList ((qualified?.or owner?).getD path)

end Holder

/-- The side that an assertion compares with. -/
inductive Expected where
  | value (expression : Expression) (fields : List String)
  | record (composition : Composition)
  deriving DecidableEq, Repr

structure Assertion where
  actual : Expression
  expected : Expected
  formatArgs : List Expression := []
  deriving DecidableEq, Repr

namespace Assertion

/-- The fields that are compared. -/
def fields (a : Assertion) : List String :=
  match a.expected with
  | .value _ fields => fields
  | .record composition => composition.entries.map Entry.target

end Assertion

inductive Invocation where
  | structUpdate (typePath : Expression) (composition : Composition)
  | anonRecord (composition : Composition)
  | rebinding (composition : Composition)
  | holder (h : Holder)
  | assertion (a : Assertion)
  deriving DecidableEq, Repr

namespace Invocation

/-- The name of an invocation's form. -/
def form : Invocation → String
  | structUpdate .. => "StructUpdate"
  | anonRecord _ => "AnonRecord"
  | rebinding _ => "Rebinding"
  | holder _ => "FnStruct"
  | assertion _ => "AssertFields"

end Invocation

end FieldComposition
