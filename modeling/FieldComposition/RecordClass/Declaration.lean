import FieldComposition.Name
import FieldComposition.RecordClass
import FieldComposition.Text.Identifier
import FieldComposition.Value.Member

/-!
# Declarations of record classes

A class can be made if its fields have distinct names, none of them a reserved word and each of
them in normal form, and if no field that has to be given follows one that may be left out. A field
also has a default if every class has a member of its name (`classMembers`), and that default must
not be one that can change.
-/

namespace FieldComposition

/-- Why no class can be made of a declaration. -/
inductive DeclarationFault where
  /-- A field has no proper name or one that is taken, or has to be given after one that need
  not. -/
  | badFields
  /-- The default of a field would be shared although it can change. -/
  | sharedDefault
  /-- The parameters of the constructor are not written as names, or one is repeated. -/
  | badParameters
  deriving DecidableEq, Repr

namespace RecordClass

/-- Whether a field need not be given. -/
def isOptional (isGeneric : Bool) (f : FieldDecl) : Bool :=
  f.default.isSome || hasMember isGeneric f.name

/-- Whether a field that has to be given follows one that need not. -/
def requiresAfterOptional (isGeneric : Bool) (fields : List FieldDecl) : Bool :=
  (fields.dropWhile fun f => !isOptional isGeneric f).any fun f => !isOptional isGeneric f

/-- Whether a value can change, so that it cannot be a default of its own. -/
def canChange : Value → Bool
  | .list _ | .dict _ | .record .. => true
  | _ => false

/-- Whether a default would be shared by all objects although it can change. -/
def sharesDefault (f : FieldDecl) : Bool :=
  changingMembers.contains f.name ||
    match f.default with
    | some (.value v) => canChange v
    | _ => false

/-- Whether a value is only passed on but has a default that is made. -/
def makesPassedOn (f : FieldDecl) : Bool :=
  f.isPassedOn &&
    match f.default with
    | some (.made _) => true
    | _ => false

/-- Checks the fields that a constructor takes, and their defaults. -/
def checkFields (isGeneric : Bool) (fields : List FieldDecl) : Except DeclarationFault Unit :=
  let taken := fields.filter (·.isInit)
  let names := taken.map (·.name)
  if fields.any sharesDefault then .error .sharedDefault
  else if fields.any makesPassedOn ||
      requiresAfterOptional isGeneric (taken.filter fun f => !f.isNamedOnly) then
    .error .badFields
  else if names.any Name.isReserved || !Name.areDistinct (names.map Text.normalize) then
    .error .badParameters
  else .ok ()

/-- Checks the names that the code of a constructor spells in normal form: they have to stay apart,
and each is looked up again by the name that was given. -/
def checkSpelling (names : List String) : Except DeclarationFault Unit :=
  if !Name.areDistinct (names.map Text.normalize) then .error .badParameters
  else if names.any fun name => Text.normalize name ≠ name then .error .badFields
  else .ok ()

/-- Checks a class that is made from the names of its fields; only classes that take exactly
their fields are made so. -/
def check (c : RecordClass) : Except DeclarationFault Unit :=
  let names := c.fields.map (·.name)
  if c.style ≠ .dataclass then .ok ()
  else if !Name.areDistinct names ||
      names.any fun name => !Text.isIdentifier name.toList || Name.isReserved name then
    .error .badFields
  else do
    checkFields false c.fields
    checkSpelling names

end RecordClass

namespace Value

mutual

/-- Checks that there can be a class for every record in a value. -/
def checkRecords : Value → Except DeclarationFault Unit
  | list items => checkItems items
  | dict entries => checkEntries entries
  | record name fields => do
    checkEntries fields
    (RecordClass.ofFields name (fields.map (·.1))).check
  | _ => .ok ()

def checkItems : List Value → Except DeclarationFault Unit
  | [] => .ok ()
  | v :: rest => do
    v.checkRecords
    checkItems rest

/-- Checks the values of entries or fields. -/
def checkEntries : List (String × Value) → Except DeclarationFault Unit
  | [] => .ok ()
  | (_, v) :: rest => do
    v.checkRecords
    checkEntries rest

end

end Value

end FieldComposition
