import FieldComposition.Number.Binary64

/-!
# Values

The values that an expansion computes with when it is run: plain data, and records with named
fields. Numbers of all kinds are compared by what they count (`equals`), dictionaries and records
without regard to the order of their parts.
-/

namespace FieldComposition

inductive Value where
  | nothing
  | bool (b : Bool)
  | int (n : Int)
  | real (x : Number.Binary64)
  | text (s : String)
  | list (items : List Value)
  | dict (entries : List (String × Value))
  | record (name : String) (fields : List (String × Value))
  /-- A thing of which only its written form is known, such as a function. -/
  | symbol (form : String)
  deriving Inhabited, Repr

namespace Value

/-- The value that a key or a field has in a list of pairs. -/
def lookup? (key : String) (pairs : List (String × Value)) : Option Value :=
  (pairs.find? (·.1 == key)).map (·.2)

/-- Equality of values that are neither containers nor records. -/
def equalsPlain : Value → Value → Bool
  | nothing, nothing => true
  | text s, text t => s == t
  | symbol s, symbol t => s == t
  | int m, int n => m == n
  | int m, bool b => m == b.toInt
  | bool b, int n => b.toInt == n
  | bool a, bool b => a == b
  | real x, real y => x.equals y
  | real x, int n => x.equalsInt n
  | int m, real y => y.equalsInt m
  | real x, bool b => x.equalsInt b.toInt
  | bool a, real y => y.equalsInt a.toInt
  | _, _ => false

mutual

/-- Equality of values. A truth value equals the number 0 or 1. -/
def equals : Value → Value → Bool
  | list items, other => match other with
    | list items' => equalsItems items items'
    | _ => false
  | dict entries, other => match other with
    | dict entries' => entries.length == entries'.length && equalsEntries entries entries'
    | _ => false
  | record name fields, other => match other with
    | record name' fields' =>
      name == name' && fields.length == fields'.length && equalsEntries fields fields'
    | _ => false
  | v, other => equalsPlain v other

def equalsItems : List Value → List Value → Bool
  | [], others => others.isEmpty
  | v :: rest, others => match others with
    | v' :: rest' => equals v v' && equalsItems rest rest'
    | [] => false

/-- Whether every entry or field has an equal counterpart under its name. -/
def equalsEntries : List (String × Value) → List (String × Value) → Bool
  | [], _ => true
  | (key, v) :: rest, others =>
    (match lookup? key others with
      | some v' => equals v v'
      | none => false) && equalsEntries rest others

end

/-- A step into a container: a key of a dictionary or an index of a list. -/
inductive Step where
  | key (name : String)
  | index (i : Int)
  deriving DecidableEq, Repr

/-- Why a step into a value, or an addition to it, is not possible. -/
inductive AccessFault where
  | noKey
  | noIndex
  | notIndexable
  | notAppendable
  deriving DecidableEq, Repr

/-- The offset of an index into a list of a given length; negative ones count from its end. -/
def offset? (length : Nat) (i : Int) : Option Nat :=
  let i := if i < 0 then i + length else i
  if 0 ≤ i && i < length then some i.toNat else none

/-- What a step leads to. Texts have characters, which are texts themselves. -/
def step (v : Value) (s : Step) : Except AccessFault Value :=
  match v, s with
  | list items, .index i =>
    match (offset? items.length i).bind (items[·]?) with
    | some item => .ok item
    | none => .error .noIndex
  | text s, .index i =>
    match (offset? s.length i).bind (s.toList[·]?) with
    | some c => .ok (text (String.singleton c))
    | none => .error .noIndex
  | dict entries, .key name =>
    match lookup? name entries with
    | some v => .ok v
    | none => .error .noKey
  | dict _, .index _ => .error .noKey
  | _, _ => .error .notIndexable

/-- The container with another value where a step leads. -/
def replace (v : Value) (s : Step) (new : Value) : Value :=
  match v, s with
  | list items, .index i =>
    match offset? items.length i with
    | some n => list (items.set n new)
    | none => v
  | dict entries, .key name =>
    dict (entries.map fun entry => if entry.1 == name then (name, new) else entry)
  | _, _ => v

/-- Adds an item to the list that a path of steps leads to, and leaves all else as it is. -/
def appendAt (v : Value) (path : List Step) (item : Value) : Except AccessFault Value :=
  match path with
  | [] =>
    match v with
    | list items => .ok (list (items ++ [item]))
    | _ => .error .notAppendable
  | s :: path =>
    match v.step s with
    | .error fault => .error fault
    | .ok inner => (inner.appendAt path item).map (v.replace s)

end Value

end FieldComposition
