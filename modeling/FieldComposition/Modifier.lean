/-!
# Modifiers

A modifier says how the value of a field is obtained from its source: taken as it is, cloned,
borrowed, converted, or passed through a function of the caller. Only the last kind carries a
path, and it always does.
-/

namespace FieldComposition

inductive Modifier where
  | direct
  | clone
  | ref
  | refMut
  | into
  | cloneInto
  | custom (path : String)
  | customRef (path : String)
  | customRefMut (path : String)
  deriving DecidableEq, Repr

namespace Modifier

/-- The modifiers without their paths. -/
inductive Kind where
  | direct | clone | ref | refMut | into | cloneInto | custom | customRef | customRefMut
  deriving DecidableEq, Repr

namespace Kind

def all : List Kind :=
  [direct, clone, ref, refMut, into, cloneInto, custom, customRef, customRefMut]

def name : Kind → String
  | direct => "DIRECT"
  | clone => "CLONE"
  | ref => "REF"
  | refMut => "REF_MUT"
  | into => "INTO"
  | cloneInto => "CLONE_INTO"
  | custom => "CUSTOM"
  | customRef => "CUSTOM_REF"
  | customRefMut => "CUSTOM_REF_MUT"

def ofName? (name : String) : Option Kind :=
  all.find? (·.name == name)

end Kind

def kind : Modifier → Kind
  | direct => .direct
  | clone => .clone
  | ref => .ref
  | refMut => .refMut
  | into => .into
  | cloneInto => .cloneInto
  | custom _ => .custom
  | customRef _ => .customRef
  | customRefMut _ => .customRefMut

/-- The function path of a custom modifier. -/
def path? : Modifier → Option String
  | custom path | customRef path | customRefMut path => some path
  | _ => none

/-- The reasons for which a kind and a path do not make a modifier. -/
inductive Fault where
  | pathMissing (kind : Kind)
  | pathRefused (kind : Kind)
  deriving DecidableEq, Repr

def Fault.message : Fault → String
  | pathMissing kind => "Modifier " ++ kind.name ++ " requires a function path"
  | pathRefused kind => "Modifier " ++ kind.name ++ " does not take a function path"

/-- A custom kind needs a path that is not empty; the other kinds take none. -/
def ofKind (kind : Kind) (path? : Option String) : Except Fault Modifier :=
  let withPath (make : String → Modifier) :=
    match path? with
    | some path => if path = "" then .error (.pathMissing kind) else .ok (make path)
    | none => .error (.pathMissing kind)
  let withoutPath (modifier : Modifier) :=
    if path?.isSome then .error (.pathRefused kind) else .ok modifier
  match kind with
  | .direct => withoutPath direct
  | .clone => withoutPath clone
  | .ref => withoutPath ref
  | .refMut => withoutPath refMut
  | .into => withoutPath into
  | .cloneInto => withoutPath cloneInto
  | .custom => withPath custom
  | .customRef => withPath customRef
  | .customRefMut => withPath customRefMut

def isDirect (m : Modifier) : Bool :=
  m == direct

def isCustom (m : Modifier) : Bool :=
  m.path?.isSome

/-- Whether the value is borrowed rather than moved or copied. -/
def isReference : Modifier → Bool
  | ref | refMut | customRef _ | customRefMut _ => true
  | _ => false

/-- A modifier as it is written before a name. -/
def render : Modifier → String
  | direct => ""
  | clone => "+"
  | ref => "&"
  | refMut => "&mut"
  | into => ">"
  | cloneInto => "+>"
  | custom path => "[" ++ path ++ "]"
  | customRef path => "[" ++ path ++ "]&"
  | customRefMut path => "[" ++ path ++ "]&mut"

/-- The blank that keeps `mut` apart from the name after it. -/
def gap : Modifier → String
  | refMut | customRefMut _ => " "
  | _ => ""

end Modifier

end FieldComposition
