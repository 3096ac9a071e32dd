import FieldComposition.Template.Numeral
import FieldComposition.Value.Member

/-!
# Message templates

A template is a text with fields in braces that stand for arguments. A field names its argument by
number, or takes the next one if it names none; the two ways do not mix in one template. Steps into
the argument, a conversion and a format specification may follow, and the specification may hold
fields again. A brace that is text is written twice. `Template.fill` works from left to right, so
that the first thing that fails decides the fault.
-/

namespace FieldComposition.Template

/-- A field without its braces, and how many characters it takes with the closing one. -/
structure Field where
  name : List Char
  conversion : Option Char := none
  spec : List Char := []
  size : Nat
  deriving DecidableEq, Repr

/-- The characters of a field's name up to what ends it; an index may hold anything. -/
def nameLength? (inIndex : Bool) : List Char → Option Nat
  | [] => none
  | c :: rest =>
    if inIndex then (nameLength? (c != ']') rest).map (· + 1)
    else if c = '{' then none
    else if c = '}' || c = ':' || c = '!' then some 0
    else (nameLength? (c == '[') rest).map (· + 1)

/-- The characters of a specification up to the brace that closes the field; `depth` of its own
braces are open. -/
def specLength? (depth : Nat) : List Char → Option Nat
  | [] => none
  | c :: rest =>
    if c = '{' then (specLength? (depth + 1) rest).map (· + 1)
    else if c = '}' then
      match depth with
      | 0 => some 0
      | depth + 1 => (specLength? depth rest).map (· + 1)
    else (specLength? depth rest).map (· + 1)

/-- A field whose opening brace has been read. -/
def readField? (cs : List Char) : Option Field := do
  let n ← nameLength? false cs
  let name := cs.take n
  let withSpec (conversion : Option Char) (size : Nat) (rest : List Char) : Option Field := do
    let m ← specLength? 0 rest
    return { name, conversion, spec := rest.take m, size := size + m + 1 }
  match cs.drop n with
  | '}' :: _ => return { name, size := n + 1 }
  | ':' :: rest => withSpec none (n + 1) rest
  | '!' :: c :: '}' :: _ => return { name, conversion := some c, size := n + 3 }
  | '!' :: c :: ':' :: rest => withSpec (some c) (n + 3) rest
  | _ => none

/-- How the fields met so far name their arguments. -/
inductive Numbering where
  | undecided
  | automatic (next : Nat)
  | manual
  deriving DecidableEq, Repr

/-- Whether a character starts a step into an argument. -/
def startsStep (c : Char) : Bool :=
  c == '.' || c == '['

/-- The step that an index in brackets stands for. -/
def stepOf (index : List Char) : Except TemplateFault Value.Step := do
  match ← templateNumber? index with
  | some n => return .index n
  | none => return .key (String.ofList index)

/-- What the steps of a field's name lead to. -/
def access (v : Value) : List Char → Except TemplateFault Value
  | [] => .ok v
  | c :: rest =>
    if c = '.' then
      let name := rest.takeWhile fun d => !startsStep d
      if name.isEmpty then .error .malformed
      else match v.member? (String.ofList name) with
        | some v => access v (rest.drop name.length)
        | none => .error .noField
    else if c = '[' then
      let index := rest.takeWhile (· != ']')
      if index.isEmpty || !rest.contains ']' then .error .malformed
      else do
        let v ← (v.step (← stepOf index)).mapError .access
        access v (rest.drop (index.length + 1))
    else .error .malformed
termination_by cs => cs.length
decreasing_by all_goals simp only [List.length_drop, List.length_cons]; omega

/-- The number of the argument that a field asks for, and the numbering after it. -/
def argumentIndex (numbering : Numbering) (first : List Char) :
    Except TemplateFault (Nat × Numbering) := do
  match ← templateNumber? first, numbering with
  | some _, .automatic _ => throw .malformed
  | some n, _ => return (n, .manual)
  | none, _ =>
    if !first.isEmpty then throw .unknownName
    else match numbering with
      | .undecided => return (0, .automatic 1)
      | .automatic n => return (n, .automatic (n + 1))
      | .manual => throw .malformed

/-- The value that a field stands for, before it is converted. -/
def argument (args : List Value) (numbering : Numbering) (name : List Char) :
    Except TemplateFault (Value × Numbering) := do
  let first := name.takeWhile fun c => !startsStep c
  let (index, numbering) ← argumentIndex numbering first
  match args[index]? with
  | none => .error .noArgument
  | some v => return (← access v (name.drop first.length), numbering)

/-- The text of a value by the letter of a conversion, if there is such a conversion. -/
def converted? (v : Value) : Char → Option String
  | 'r' => some v.render
  | 's' => some v.display
  | 'a' => some (Text.ascii v.render)
  | _ => none

def convert (conversion : Option Char) (v : Value) : Except TemplateFault Value :=
  match conversion with
  | none => .ok v
  | some letter =>
    match converted? v letter with
    | some text => if v.isWritable then .ok (.text text) else .error .overlong
    | none => .error .malformed

/-- Fills in a template whose specifications may hold fields down to a depth. -/
def fillFrom (args : List Value) (depth : Nat) (numbering : Numbering) :
    List Char → Except TemplateFault (String × Numbering)
  | [] => .ok ("", numbering)
  | c :: rest =>
    if (c = '{' || c = '}') && rest.head? == some c then do
      let (text, numbering) ← fillFrom args depth numbering (rest.drop 1)
      return (String.singleton c ++ text, numbering)
    else if c = '{' then
      match readField? rest with
      | none => .error .malformed
      | some field => do
        let (v, numbering) ← argument args numbering field.name
        let v ← convert field.conversion v
        let (spec, numbering) ←
          if field.spec.contains '{' then
            match depth with
            | 0 => .error .malformed
            | depth + 1 => do
              let (spec, numbering) ← fillFrom args depth numbering field.spec
              pure (spec.toList, numbering)
          else .ok (field.spec, numbering)
        let text ← v.format spec
        let (more, numbering) ← fillFrom args depth numbering (rest.drop field.size)
        return (text ++ more, numbering)
    else if c = '}' then .error .malformed
    else do
      let (text, numbering) ← fillFrom args depth numbering rest
      return (String.singleton c ++ text, numbering)
termination_by cs => (depth, cs.length)
decreasing_by
  all_goals first
    | exact Prod.Lex.left _ _ (Nat.lt_succ_self _)
    | (apply Prod.Lex.right; simp only [List.length_drop, List.length_cons]; omega)

/-- A template with its arguments put in. -/
def fill (template : String) (args : List Value) : Except TemplateFault String :=
  (fillFrom args 1 .undecided template.toList).map (·.1)

end FieldComposition.Template
