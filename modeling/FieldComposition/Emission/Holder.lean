import FieldComposition.Emission.Record

/-!
# Argument holders

A record with one field for every argument of a function, and a method that calls the function
with the fields, each modified as its argument says. Arguments without a type are generic.
-/

namespace FieldComposition

namespace Python

/-- Whether a generic parameter is a type: neither a lifetime nor a constant. -/
def isTypeParameter (p : GenericParam) : Bool :=
  p.name.toList.head? != some '\'' && !"const ".toList.isPrefixOf p.decl.toList

def typeParameterNames (params : List GenericParam) : List String :=
  (params.filter isTypeParameter).map (·.name)

/-- The type of an argument: as declared, or a type variable of its own. -/
def argumentType (h : Holder) (a : Argument) : String :=
  a.type.getD ("_" ++ h.name ++ "_" ++ a.name)

/-- An argument as the holder's method passes it on. -/
def forwarded (h : Holder) (a : Argument) : Term :=
  .ofModifier a.modifier (.field "self" a.name) (some (h.path, a.name))

def holderClass (h : Holder) (params : List String) : ClassDef where
  name := h.name
  typeParameters := if params.isEmpty then none else some params
  fields := h.args.map fun a => ⟨a.name, argumentType h a, a.default⟩
  method := some
    { parameters := "self" :: (h.receiver.map fun _ => "receiver: " ++ h.receiverType).toList
      returnType := h.returnType
      callee := h.path
      args := (h.receiver.map fun _ => Term.operand (.host "receiver")).toList ++
        h.args.map (forwarded h) }

def holder (h : Holder) : Script :=
  let untyped := (h.args.filter (·.type.isNone)).map (argumentType h)
  let params := typeParameterNames h.generics ++ untyped
  let typeVariables := params ++ typeParameterNames h.callGenerics
  { imports := (if typeVariables.isEmpty then [] else [.typing]) ++ [.dataclasses] ++
      runtimeImports (h.args.map (·.modifier)),
    blocks := (if typeVariables.isEmpty then [] else [typeVariables.map .typeVariable]) ++
      [[.classDef (holderClass h params)]],
    result := some (.host h.name) }

end Python

namespace Rust

/-- Items in angle brackets, or nothing. -/
def angled (items : List String) : String :=
  if items.isEmpty then "" else "<" ++ ", ".intercalate items ++ ">"

def whereText (clause : Option String) : String :=
  match clause with
  | some clause => " where " ++ clause
  | none => ""

/-- The names of the arguments without a type, each of which is a type parameter. -/
def untypedNames (h : Holder) : List String :=
  (h.args.filter (·.type.isNone)).map (·.name)

/-- The generic parameters as an implementation declares them. -/
def declaredGenerics (h : Holder) : String :=
  angled (h.generics.map (·.decl) ++ untypedNames h)

/-- The holder's type with its generic parameters. -/
def holderType (h : Holder) : String :=
  h.name ++ angled (h.generics.map (·.name) ++ untypedNames h)

def holderStruct (h : Holder) : Code :=
  let head := "struct " ++ h.name ++ declaredGenerics h ++ whereText h.whereClause ++ " \x7b"
  let head := match h.visibility with
    | some visibility => visibility ++ " " ++ head
    | none => head
  let fields := h.args.map fun a =>
    Code.text (a.name ++ ": " ++ a.type.getD a.name ++ ",")
  Code.stacked <| (if (untypedNames h).isEmpty then [] else [allowNaming]) ++ [.text head] ++
    (if fields.isEmpty then [] else [Code.indentedLines fields]) ++ [.text "\x7d"]

/-- The implementation that builds a holder from the defaults. -/
def holderDefault (h : Holder) : Code :=
  let fields := h.args.map fun a =>
    Code.text (a.name ++ ": ") ++ .host ((a.default.map (·.text)).getD "") ++ .text ","
  Code.braced
    (.text ("impl" ++ declaredGenerics h ++ " ::core::default::Default for " ++ holderType h ++
      whereText h.whereClause))
    [Code.braced (.text "fn default() -> Self") [Code.braced (.text "Self") fields]]

/-- The implementation with the method that calls the function. -/
def holderCall (h : Holder) : Code :=
  let receiver := h.receiver.map fun m =>
    "__self: " ++ receiverMark m ++ h.receiverType
  let params := (if h.callByRef then "&self" else "self") :: receiver.toList
  let args := (h.receiver.map fun _ => Code.text "__self").toList ++
    h.args.map fun a => (Term.ofModifier a.modifier (.field "self" a.name)).code
  let signature := "pub fn call" ++ angled (h.callGenerics.map (·.decl)) ++ "(" ++
    ", ".intercalate params ++ ") -> " ++ h.returnType.getD "()" ++ whereText h.callWhere
  Code.braced
    (.text ("impl" ++ declaredGenerics h ++ " " ++ holderType h ++ whereText h.whereClause))
    [Code.braced (.text signature)
      [.text (h.path ++ "(") ++ Code.joined ", " args ++ .text ")"]]

def holder (h : Holder) : Draft where
  statements := [holderStruct h] ++ (if h.hasDefaults then [holderDefault h] else []) ++
    [holderCall h]

end Rust

end FieldComposition
