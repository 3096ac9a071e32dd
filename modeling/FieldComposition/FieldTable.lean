import FieldComposition.Error

/-!
# Field tables

Resolving a composition turns its entries into one ordered table that holds every target once.
A second claim of a target is a `Conflict`, whatever the kinds of the two claims; the base never
takes part, since it only covers what nobody claims. The sources of the groups are bound to
distinct names (`bindingNames`).
-/

namespace FieldComposition

/-- One target and the entry that claims it. -/
structure Claim where
  entry : Entry
  group : Option Group := none
  deriving DecidableEq, Repr

namespace Claim

def target (c : Claim) : String :=
  c.entry.target

def isGrouped (c : Claim) : Bool :=
  c.group.isSome

/-- Where the claim comes from. -/
def origin (c : Claim) : String :=
  match c.group with
  | some group =>
    "`" ++ c.entry.render ++ "` in group from `" ++ group.source.text ++ "` at " ++
      c.entry.position.render
  | none => "field `" ++ c.entry.render ++ "` at " ++ c.entry.position.render

end Claim

/-- The earliest claim of a target and a later one. -/
structure Conflict where
  first : Claim
  second : Claim
  deriving DecidableEq, Repr

/-- A conflict in a named text; without a text, or with an empty one, no line is shown. -/
def Conflict.locate (file : String) (text : Option String) (c : Conflict) : Error :=
  let position := c.second.entry.position
  let snippet := (text.filter (· ≠ "")).bind fun text => Text.sourceLine? text position.line
  .duplicateField c.second.target c.first.origin c.second.origin (some ⟨file, position, snippet⟩)

/-- The targets of a composition in order, with their groups and base. -/
structure FieldTable where
  claims : List Claim := []
  groups : List Group := []
  base : Option Expression := none
  deriving DecidableEq, Repr

namespace FieldTable

def targets (t : FieldTable) : List String :=
  t.claims.map Claim.target

/-- The claim of a target. -/
def get? (t : FieldTable) (target : String) : Option Claim :=
  t.claims.find? (·.target == target)

def contains (t : FieldTable) (target : String) : Bool :=
  t.targets.contains target

/-- Whether a target is filled from the base record. -/
def fallsBackToBase (t : FieldTable) (target : String) : Bool :=
  t.base.isSome && !t.contains target

/-- Appends a suffix to a name until it differs from all names that are taken. Every try is longer
than those before, so a name that has been met can be left out. -/
def freshen (suffix : String) (taken : List String) (name : String) : String :=
  if taken.contains name then freshen suffix (taken.erase name) (name ++ suffix) else name
termination_by taken.length
decreasing_by
  rename_i h
  have hmem : name ∈ taken := by simpa using h
  have := List.length_erase_of_mem hmem
  have := List.length_pos_of_mem hmem
  omega

/-- Names for the sources of groups, the first of which has the given index; `taken` are the names
of the groups before. -/
def bindingNamesFrom (stem : String) (taken : List String) (index : Nat) :
    List Group → List String
  | [] => taken
  | group :: rest =>
    let name := freshen ("_" ++ toString index) taken (group.bindingName stem)
    bindingNamesFrom stem (taken ++ [name]) (index + 1) rest

/-- The names that the sources are bound to, in the order of the groups. -/
def bindingNames (t : FieldTable) (stem : String) : List String :=
  bindingNamesFrom stem [] 0 t.groups

/-- The name that the source of a group is bound to. -/
def bindingOf (t : FieldTable) (stem : String) (group : Group) : Option String :=
  (t.bindingNames stem)[t.groups.idxOf group]?

end FieldTable

namespace Composition

/-- Adds claims to those already made, unless one of them claims a target for a second time. -/
def addClaims (made : List Claim) : List (Entry × Option Group) → Except Conflict (List Claim)
  | [] => .ok made
  | (entry, group) :: rest =>
    let claim : Claim := { entry, group }
    match made.find? (·.target == claim.target) with
    | some first => .error ⟨first, claim⟩
    | none => addClaims (made ++ [claim]) rest

/-- The field table of a composition. -/
def resolve (c : Composition) : Except Conflict FieldTable :=
  match addClaims [] c.claims with
  | .error conflict => .error conflict
  | .ok claims => .ok { claims, groups := c.groups, base := c.base }

end Composition

end FieldComposition
