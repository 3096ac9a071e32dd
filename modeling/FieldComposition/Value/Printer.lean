import FieldComposition.Text.Quoted
import FieldComposition.Value

/-!
# Written values

A value has one written form (`Value.render`); shown to a reader, a text stands for itself
(`Value.display`). Only integers up to a number of digits are written (`Value.isWritable`).
-/

namespace FieldComposition.Value

mutual

/-- A value on one line. -/
def render : Value → String
  | nothing => "None"
  | bool b => if b then "True" else "False"
  | int n => toString n
  | real x => x.render
  | text s => Text.quoted s
  | list items => "[" ++ ", ".intercalate (renderItems items) ++ "]"
  | dict entries => "\x7b" ++ ", ".intercalate (renderEntries entries) ++ "\x7d"
  | record name fields => name ++ "(" ++ ", ".intercalate (renderFields fields) ++ ")"
  | symbol form => form

def renderItems : List Value → List String
  | [] => []
  | v :: rest => v.render :: renderItems rest

def renderEntries : List (String × Value) → List String
  | [] => []
  | (key, v) :: rest => (Text.quoted key ++ ": " ++ v.render) :: renderEntries rest

def renderFields : List (String × Value) → List String
  | [] => []
  | (name, v) :: rest => (name ++ "=" ++ v.render) :: renderFields rest

end

/-- A value as text: texts stand for themselves. -/
def display : Value → String
  | text s => s
  | v => v.render

/-- The most digits of an integer that is written. -/
def maxDigits : Nat :=
  4300

mutual

/-- Whether no integer in a value has too many digits. -/
def isWritable : Value → Bool
  | int n => (Nat.toDigits 10 n.natAbs).length ≤ maxDigits
  | list items => areWritable items
  | dict entries => haveWritable entries
  | record _ fields => haveWritable fields
  | _ => true

def areWritable : List Value → Bool
  | [] => true
  | v :: rest => v.isWritable && areWritable rest

/-- Whether the values of entries or fields are writable. -/
def haveWritable : List (String × Value) → Bool
  | [] => true
  | (_, v) :: rest => v.isWritable && haveWritable rest

end

end FieldComposition.Value
