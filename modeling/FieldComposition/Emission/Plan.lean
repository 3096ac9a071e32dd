import FieldComposition.FieldTable

/-!
# Plans

What a record expansion does, before it is written in a dialect: bind the source of every group
once, then give every target its modified value, then fill the rest from the base.
-/

namespace FieldComposition

/-- An unmodified value: text of the caller, or a field of a bound source. -/
inductive Operand where
  | host (text : String)
  | field (owner name : String)
  deriving DecidableEq, Repr

def Operand.text : Operand → String
  | host text => text
  | field owner name => owner ++ "." ++ name

/-- A target with the value it is given. -/
structure Initializer where
  target : String
  modifier : Modifier
  operand : Operand
  deriving DecidableEq, Repr

structure Plan where
  bindings : List (String × Expression)
  initializers : List Initializer
  base : Option Expression
  deriving DecidableEq, Repr

namespace FieldTable

/-- The name of the bound source of a group. -/
def sourceName (t : FieldTable) (stem : String) (group : Group) : String :=
  (t.bindingOf stem group).getD (group.bindingName stem)

/-- The value that a claim starts from. -/
def operand (t : FieldTable) (stem : String) (c : Claim) : Operand :=
  match c.group, c.entry.value with
  | some group, _ => .field (t.sourceName stem group) c.entry.name
  | none, some value => .host value.text
  | none, none => .host c.entry.name

def plan (t : FieldTable) (stem : String) : Plan where
  bindings := t.groups.map fun group => (t.sourceName stem group, group.source)
  initializers := t.claims.map fun c => ⟨c.target, c.entry.modifier, t.operand stem c⟩
  base := t.base

end FieldTable

end FieldComposition
