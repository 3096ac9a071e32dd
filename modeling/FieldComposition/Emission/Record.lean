import FieldComposition.Emission.Script
import FieldComposition.Settings

/-!
# Records

Struct updates and anonymous records. The sources of groups are bound once each, then one
constructor receives every field in the order of the table.
-/

namespace FieldComposition

namespace Python

/-- The fields of a plan as keywords of a constructor that `target` names. -/
def keywords (p : Plan) (target : String) : List Keyword :=
  p.initializers.map fun i =>
    ⟨i.target, .ofModifier i.modifier i.operand (some (target, i.target))⟩

/-- One block for every bound source. -/
def bindingBlocks (p : Plan) : List (List Line) :=
  p.bindings.map fun (name, source) => [.assign name (.host source.text)]

/-- The runtime module, asked for once for every modifier that calls into it. -/
def runtimeImports (modifiers : List Modifier) : List Module :=
  modifiers.flatMap fun m => if needsRuntime m then [.runtime] else []

/-- The modules that the values of a plan ask for. -/
def valueImports (p : Plan) : List Module :=
  runtimeImports (p.initializers.map (·.modifier))

/-- A struct update: the constructor by itself, or a call that completes it from the base. -/
def structUpdate (settings : Settings) (typePath : Expression) (t : FieldTable) : Script :=
  let plan := t.plan settings.bindingStem
  let fields := keywords plan typePath.text
  match plan.base with
  | none =>
    { imports := valueImports plan, blocks := bindingBlocks plan,
      result := some (.construct typePath.text fields) }
  | some base =>
    { imports := valueImports plan ++ [.runtime], blocks := bindingBlocks plan,
      result := some (.update typePath.text base.text fields) }

/-- The type variable that stands for the type of one field of an anonymous record. -/
def fieldTypeVariable (settings : Settings) (field : String) : String :=
  "_" ++ settings.anonTypeName ++ "_" ++ field

/-- The class of an anonymous record, generic over the type of every field. -/
def anonType (settings : Settings) (t : FieldTable) : List Line :=
  let typeVariables := t.targets.map (fieldTypeVariable settings)
  let fields := t.targets.map fun field =>
    { name := field, type := fieldTypeVariable settings field }
  typeVariables.map .typeVariable ++
    [.blank, .blank, .classDef ⟨settings.anonTypeName, some typeVariables, fields, none⟩]

/-- An anonymous record: its class and one value of it. -/
def anonRecord (settings : Settings) (t : FieldTable) : Script :=
  let plan := t.plan settings.bindingStem
  let fields := keywords plan settings.anonTypeName
  { imports := .dataclasses :: .typing :: valueImports plan,
    blocks := anonType settings t :: bindingBlocks plan,
    result := some (.construct settings.anonTypeName fields) }

end Python

namespace Rust

/-- Lets a definition use names of fields as types. -/
def allowNaming : Code :=
  .text "#[allow(non_camel_case_types)]"

/-- The field of a literal; its name stands alone when the value is written the same way. -/
def initializer (i : Initializer) : Code :=
  let value := Term.ofModifier i.modifier i.operand
  if value.render = i.target then value.code ++ .text ","
  else .text (i.target ++ ": ") ++ value.code ++ .text ","

def literal (typePath : String) (p : Plan) : Code :=
  let base := p.base.toList.map fun base => Code.text ".." ++ .host base.text
  let fields := p.initializers.map initializer ++ base
  if fields.isEmpty then .text (typePath ++ " \x7b\x7d") else Code.braced (.text typePath) fields

/-- A local that a block binds before its value. -/
def letBinding (name : String) (value : Code) : Code :=
  .text ("let " ++ name ++ " = ") ++ value ++ .text ";"

def bindings (p : Plan) : List Code :=
  p.bindings.map fun (name, source) => letBinding name (.host source.text)

/-- A struct update: a literal, inside a block when there are sources to bind. -/
def structUpdate (settings : Settings) (typePath : Expression) (t : FieldTable) : Code :=
  let plan := t.plan settings.bindingStem
  let value := literal typePath.text plan
  if plan.bindings.isEmpty then value else Code.block (bindings plan ++ [value])

/-- The struct of an anonymous record, generic over the type of every field. -/
def anonType (settings : Settings) (t : FieldTable) : List Code :=
  [allowNaming, .text "#[derive(Copy, Clone, Debug, PartialEq, Eq)]",
   Code.braced
     (.text ("struct " ++ settings.anonTypeName ++ "<" ++ ", ".intercalate t.targets ++ ">"))
     (t.targets.map fun field => .text (field ++ ": " ++ field ++ ","))]

/-- An anonymous record: a block with its struct and one value of it. -/
def anonRecord (settings : Settings) (t : FieldTable) : Code :=
  let plan := t.plan settings.bindingStem
  Code.block (anonType settings t ++ [.text ""] ++ bindings plan ++
    [literal settings.anonTypeName plan])

end Rust

end FieldComposition
