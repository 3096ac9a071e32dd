import FieldComposition.Modifier
import FieldComposition.Position

/-!
# Compositions

A composition is one field list: entries that stand alone, groups of entries that share a source,
and an optional base record. Expressions are host text that is moved about and never read.
-/

namespace FieldComposition

/-- Host text with the position it was found at. -/
structure Expression where
  text : String
  position : Position := .start
  deriving DecidableEq, Repr

/-- One field: the name it is read from, how, and where it goes. -/
structure Entry where
  name : String
  modifier : Modifier := .direct
  rename : Option String := none
  value : Option Expression := none
  mutable : Bool := false
  position : Position := .start
  deriving DecidableEq, Repr

namespace Entry

/-- The field that the entry fills. -/
def target (e : Entry) : String :=
  match e.rename with
  | some rename => if rename = "" then e.name else rename
  | none => e.name

/-- An entry as it is written in a field list. -/
def render (e : Entry) : String :=
  let text := (if e.mutable then "mut " else "") ++ e.modifier.render ++ e.modifier.gap ++ e.name
  match e.rename.filter (· ≠ ""), e.value with
  | some rename, _ => rename ++ ": " ++ text
  | none, some value => text ++ ": " ++ value.text
  | none, none => text

end Entry

/-- Fields that are taken from one source, which is evaluated once. -/
structure Group where
  entries : List Entry
  source : Expression
  position : Position := .start
  deriving DecidableEq, Repr

namespace Group

/-- The name its source is bound to, unless an earlier group has taken it. -/
def bindingName (g : Group) (stem : String) : String :=
  stem ++ "_".intercalate (g.entries.map (·.name))

def render (g : Group) : String :=
  "\x7b " ++ ", ".intercalate (g.entries.map Entry.render) ++ " \x7d in " ++ g.source.text

end Group

inductive Item where
  | entry (e : Entry)
  | group (g : Group)
  deriving DecidableEq, Repr

namespace Item

/-- The entries of an item, each with the group it belongs to. -/
def claims : Item → List (Entry × Option Group)
  | entry e => [(e, none)]
  | group g => g.entries.map fun e => (e, some g)

def entries : Item → List Entry
  | entry e => [e]
  | group g => g.entries

def group? : Item → Option Group
  | entry _ => none
  | group g => some g

def entry? : Item → Option Entry
  | entry e => some e
  | group _ => none

end Item

structure Composition where
  items : List Item := []
  base : Option Expression := none
  deriving DecidableEq, Repr

namespace Composition

def entries (c : Composition) : List Entry :=
  c.items.flatMap Item.entries

def groups (c : Composition) : List Group :=
  c.items.filterMap Item.group?

def directEntries (c : Composition) : List Entry :=
  c.items.filterMap Item.entry?

/-- Every entry with its group, in source order. -/
def claims (c : Composition) : List (Entry × Option Group) :=
  c.items.flatMap Item.claims

def isEmpty (c : Composition) : Bool :=
  c.items.isEmpty

end Composition

end FieldComposition
