import FieldComposition.Toml

/-!
# Changing tables

How pairs get into tables: a path of keys leads through tables, which are made where they are
missing, and a key is given a value once.
-/

namespace FieldComposition.Toml

namespace Table

def get? (t : Table) (key : String) : Option Value :=
  (t.find? (·.1 == key)).map (·.2)

/-- Gives a key a value, at its place if it is there and at the end if it is new. -/
def put (t : Table) (key : String) (value : Value) : Table :=
  if t.any (·.1 == key) then t.map fun entry => if entry.1 == key then (key, value) else entry
  else t ++ [(key, value)]

end Table

/-- Changes the table that a path of keys leads to, and makes tables that are missing. In an array
of tables the path goes on in the last one, if `intoArrays` allows it. -/
def alterAt (intoArrays : Bool) (change : Table → Option Table) :
    List String → Table → Option Table
  | [], t => change t
  | k :: path, t =>
    match t.get? k with
    | none => (alterAt intoArrays change path []).map fun inner => t.put k (.table inner)
    | some (.table inner) =>
      (alterAt intoArrays change path inner).map fun inner => t.put k (.table inner)
    | some (.array items) =>
      match intoArrays, items.getLast? with
      | true, some (.table inner) =>
        (alterAt intoArrays change path inner).map fun inner =>
          t.put k (.array (items.dropLast ++ [.table inner]))
      | _, _ => none
    | some _ => none

/-- Adds a key that is not there yet. -/
def addKey (key : String) (value : Value) (t : Table) : Option Table :=
  if (t.get? key).isSome then none else some (t ++ [(key, value)])

/-- Whether a value is closed: nothing can be added to it later. -/
def Value.isClosed : Value → Bool
  | array _ | table _ => true
  | _ => false

/-- Whether a key leads into something closed. -/
def isInside (closed : List (List String)) (path : List String) : Bool :=
  closed.any (·.isPrefixOf path)

/-- An inline table that is being read, with the keys of the closed values in it. -/
structure InlineTable where
  entries : Table := []
  closed : List (List String) := []

/-- Adds one pair to an inline table. -/
def InlineTable.add (t : InlineTable) (path : List String) (value : Value) :
    Option InlineTable :=
  if isInside t.closed path then none
  else
    match path.getLast? with
    | none => none
    | some last =>
      (alterAt false (addKey last value) path.dropLast t.entries).map fun entries =>
        ⟨entries, if value.isClosed then path :: t.closed else t.closed⟩

end FieldComposition.Toml
