import FieldComposition.StandIn.Width
import FieldComposition.Value.Printer

/-!
# Laid out values

Where the written form of a value is too wide for a line, `layout` opens its brackets and puts every
part on a line of its own.
-/

namespace FieldComposition.StandIn

open Value

/-- The width that laid out values keep to. -/
def lineWidth : Nat :=
  80

/-- How far the parts of a value stand in from its brackets. -/
def partIndent : Nat :=
  4

/-- The brackets of a value that has parts. -/
def brackets? : Value → Option (String × String)
  | list (_ :: _) => some ("[", "]")
  | dict (_ :: _) => some ("\x7b", "\x7d")
  | record name (_ :: _) => some (name ++ "(", ")")
  | _ => none

/-- What stands before a value: the key or name it belongs to, and what separates the two. -/
structure Label where
  name : String := ""
  separator : String := ""
  deriving DecidableEq, Repr

namespace Label

def text (l : Label) : String :=
  l.name ++ l.separator

/-- The label of a dictionary's entry. -/
def ofKey (key : String) : Label :=
  ⟨Text.quoted key, ": "⟩

/-- The label of a record's field. -/
def ofField (name : String) : Label :=
  ⟨name, "="⟩

def columns (l : Label) : Nat :=
  width l.name + width l.separator

end Label

/-- The columns of parts of given widths on one line, with a comma and a blank between them. -/
def joinedColumns : List Nat → Nat
  | [] => 0
  | [n] => n
  | n :: rest => n + 2 + joinedColumns rest

mutual

/-- The columns of a value on one line. Every piece of the line is measured by itself. -/
def columns : Value → Nat
  | list items => joinedColumns (itemColumns items) + 2
  | dict entries => joinedColumns (entryColumns entries) + 2
  | record name fields => width (name ++ "(") + joinedColumns (fieldColumns fields) + 1
  | v => width v.render

def itemColumns : List Value → List Nat
  | [] => []
  | v :: rest => columns v :: itemColumns rest

def entryColumns : List (String × Value) → List Nat
  | [] => []
  | (key, v) :: rest => ((Label.ofKey key).columns + columns v) :: entryColumns rest

def fieldColumns : List (String × Value) → List Nat
  | [] => []
  | (name, v) :: rest => ((Label.ofField name).columns + columns v) :: fieldColumns rest

end

/-- Whether a labelled value fits on a line, `margin` in and with `reserve` more behind it. -/
def fits (margin reserve : Nat) (label : Label) (v : Value) : Bool :=
  margin + reserve + label.columns + columns v ≤ lineWidth

mutual

/-- The lines of a labelled value with what ends the last of them. -/
def linesOf (margin reserve : Nat) (label : Label) (ending : String) (v : Value) : List String :=
  let start := "".pushn ' ' margin ++ label.text
  match brackets? v with
  | none => [start ++ v.render ++ ending]
  | some (opening, closing) =>
    if fits margin reserve label v then [start ++ v.render ++ ending]
    else [start ++ opening] ++ partLines (margin + partIndent) v ++
      ["".pushn ' ' margin ++ closing ++ ending]
termination_by (sizeOf v, 1)

/-- The lines of the parts of a value; two places are kept free behind each. -/
def partLines (margin : Nat) (v : Value) : List String :=
  match v with
  | list items => itemLines margin items
  | dict entries => entryLines margin entries
  | record _ fields => fieldLines margin fields
  | _ => []
termination_by (sizeOf v, 0)

def itemLines (margin : Nat) : List Value → List String
  | [] => []
  | v :: rest => linesOf margin 2 {} (if rest.isEmpty then "" else ",") v ++ itemLines margin rest
termination_by items => (sizeOf items, 0)

def entryLines (margin : Nat) : List (String × Value) → List String
  | [] => []
  | (key, v) :: rest =>
    linesOf margin 2 (.ofKey key) (if rest.isEmpty then "" else ",") v ++ entryLines margin rest
termination_by entries => (sizeOf entries, 0)

def fieldLines (margin : Nat) : List (String × Value) → List String
  | [] => []
  | (name, v) :: rest =>
    linesOf margin 2 (.ofField name) (if rest.isEmpty then "" else ",") v ++ fieldLines margin rest
termination_by fields => (sizeOf fields, 0)

end

/-- A value on one line if it fits, and else with its parts on lines of their own. -/
def layout (v : Value) : String :=
  "\n".intercalate (linesOf 0 0 {} "" v)

end FieldComposition.StandIn
