import FieldComposition.Emission.Code
import FieldComposition.Emission.Plan
import FieldComposition.Text.Quoted

/-!
# Modified values

A modifier wraps a value. In the python dialect borrows are dropped, and clones and conversions
are calls into the runtime module; in the rust dialect every modifier is an operator, a method
call or a function call. There a value that is not atomic is put into parentheses first.
-/

namespace FieldComposition

def Operand.code : Operand → Code
  | host text => .host text
  | field owner name => .text (owner ++ "." ++ name)

namespace Python

/-- A value of the python dialect. -/
inductive Term where
  | operand (o : Operand)
  | clone (value : Term)
  /-- A conversion to the type that `target` declares for `field`. -/
  | convert (value : Term) (target field : String)
  | apply (path : String) (value : Term)
  deriving DecidableEq, Repr

namespace Term

/-- A modified operand. Without a target nothing declares a type to convert to, and a conversion
keeps the value. -/
def ofModifier (m : Modifier) (o : Operand) (target? : Option (String × String)) : Term :=
  let convertTo (value : Term) :=
    match target? with
    | some (target, field) => convert value target field
    | none => value
  match m with
  | .direct | .ref | .refMut => operand o
  | .custom path | .customRef path | .customRefMut path => apply path (operand o)
  | .clone => clone (operand o)
  | .into => convertTo (operand o)
  | .cloneInto => convertTo (clone (operand o))

/-- A value where the runtime module goes by the name `runtimeName`. -/
def code (runtimeName : String) : Term → Code
  | operand o => o.code
  | clone value => .text (runtimeName ++ ".clone(") ++ value.code runtimeName ++ .text ")"
  | convert value target field =>
    .text (runtimeName ++ ".into(") ++ value.code runtimeName ++
      .text (", " ++ target ++ ", " ++ Text.quoted field ++ ")")
  | apply path value => .text (path ++ "(") ++ value.code runtimeName ++ .text ")"

/-- A value as text. -/
def render (runtimeName : String) (t : Term) : String :=
  (t.code runtimeName).render ""

end Term

/-- Whether a modifier is rendered as a call into the runtime module when there is a target. -/
def needsRuntime : Modifier → Bool
  | .clone | .into | .cloneInto => true
  | _ => false

end Python

namespace Rust

/-- Characters that end an operand outside brackets. -/
def endsOperand (c : Char) : Bool :=
  [' ', '\t', '\n', '+', '-', '*', '/', '%', '&', '|', '^', '!', '<', '>', '=', '?', ',',
    ';'].contains c

/-- Whether the rest of a text holds together, with the number of brackets that are open (closing
ones may outnumber them) and the quote that has to be closed. -/
def atomicFrom (depth : Int) (quote? : Option Char) : List Char → Bool
  | [] => depth == 0 && quote?.isNone
  | c :: rest =>
    if let some quote := quote? then
      if c = '\\' then atomicFrom depth quote? (rest.drop 1)
      else atomicFrom depth (if c = quote then none else quote?) rest
    else if c = '"' then atomicFrom depth (some c) rest
    else if c = '\'' && rest[1]? == some '\'' then atomicFrom depth none (rest.drop 2)
    else if c = '\'' && rest.head? == some '\\' && 3 ≤ rest.length then
      atomicFrom depth (some c) rest
    else if c = '(' || c = '[' || c = '{' then atomicFrom (depth + 1) none rest
    else if c = ')' || c = ']' || c = '}' then atomicFrom (depth - 1) none rest
    else if depth = 0 && (endsOperand c || (c = '.' && rest.head? == some '.')) then false
    else atomicFrom depth none rest
termination_by cs => cs.length
decreasing_by all_goals simp only [List.length_drop, List.length_cons]; omega

/-- Operators that a text may start with. -/
def unaryOperators : List Char :=
  ['&', '*', '!', '-']

/-- Whether a text binds tighter than a method call or a borrow: paths, field accesses, calls,
indexing and literals do, anything with an operator, a cast or a blank outside brackets does
not. -/
def isAtomic (text : String) : Bool :=
  match text.toList with
  | [] => false
  | c :: rest => !unaryOperators.contains c && atomicFrom 0 none (c :: rest)

/-- A value of the rust dialect. -/
inductive Term where
  | operand (o : Operand)
  | borrow (isMut : Bool) (o : Operand)
  | methods (o : Operand) (calls : List String)
  | apply (path : String) (value : Term)
  deriving DecidableEq, Repr

/-- An operand, in parentheses unless it is atomic. -/
def atom (o : Operand) : Code :=
  if isAtomic o.text then o.code else .text "(" ++ o.code ++ .text ")"

namespace Term

def ofModifier (m : Modifier) (o : Operand) : Term :=
  match m with
  | .direct => operand o
  | .ref => borrow false o
  | .refMut => borrow true o
  | .clone => methods o ["clone"]
  | .into => methods o ["into"]
  | .cloneInto => methods o ["clone", "into"]
  | .custom path => apply path (operand o)
  | .customRef path => apply path (borrow false o)
  | .customRefMut path => apply path (borrow true o)

def code : Term → Code
  | operand o => o.code
  | borrow isMut o => .text (if isMut then "&mut " else "&") ++ atom o
  | methods o calls => atom o ++ .text (String.join (calls.map fun name => "." ++ name ++ "()"))
  | apply path value => .text (path ++ "(") ++ value.code ++ .text ")"

/-- A value as text; values never span indentation levels. -/
def render (t : Term) : String :=
  t.code.render ""

end Term

/-- What precedes the type of a receiver. -/
def receiverMark (m : Modifier) : String :=
  if m.isReference then (if m = .refMut then "&mut " else "&") else ""

end Rust

end FieldComposition
