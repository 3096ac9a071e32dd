import FieldComposition.Emission
import FieldComposition.Evaluation.CodeCheck
import FieldComposition.Evaluation.Object

/-!
# Evaluation

A script is run in a scope of names, once its code has been checked. Imports come first, then
every line in order, then the resulting value, whose code is only checked after the lines have
run; whatever a line needs is evaluated from left to right, what is called before its arguments.
-/

namespace FieldComposition

/-- The objects that names stand for; the order of the names does not matter. -/
structure Scope where
  bindings : List (String × Object) := []

namespace Scope

/-- What is bound to a name as it is written here. -/
def get? (s : Scope) (name : String) : Option Object :=
  (s.bindings.find? (·.1 == name)).map (·.2)

/-- Binds a name as it is written here. -/
def set (s : Scope) (name : String) (o : Object) : Scope :=
  ⟨(name, o) :: s.bindings.filter (·.1 != name)⟩

/-- Binds a word of code, which goes by its normal form. -/
def put (s : Scope) (word : String) (o : Object) : Scope :=
  s.set (Text.normalize word) o

/-- A scope of values and classes by name; later ones hide earlier ones. There has to be a class
for every record in a value. -/
def ofGiven (values : List (String × Value)) (classes : List RecordClass) :
    Except DeclarationFault Scope := do
  values.forM fun (_, v) => v.checkRecords
  classes.forM (·.check)
  let objects := values.map (fun (name, v) => (name, Object.value v)) ++
    classes.map fun c => (c.name, .recordClass c .given)
  return objects.foldl (fun s (name, o) => s.set name o) {}

/-- What a word of code stands for: a binding, or else something that is always known. -/
def lookup (s : Scope) (word : String) : Except EvaluationFault Object :=
  let name := Text.normalize word
  match (s.get? name).or (Object.builtin? name) with
  | some o => .ok o
  | none => .error (.unbound name)

/-- A member of what a word stands for. -/
def member (s : Scope) (owner word : String) : Except EvaluationFault Object := do
  (← s.lookup owner).member (Text.normalize word)

end Scope

def HostExpression.evaluate (s : Scope) : HostExpression → Except EvaluationFault Object
  | name n => s.lookup n
  | member owner n => do (← owner.evaluate s).member n
  | int n => .ok (.value (.int n))
  | real x => .ok (.value (.real x))
  | text t => .ok (.value (.text t))
  | bool b => .ok (.value (.bool b))
  | nothing => .ok (.value .nothing)

namespace Python

/-- The value of a text of the caller. -/
def evaluateHost (s : Scope) (text : String) : Except EvaluationFault Object := do
  let e ← (HostExpression.ofText .brackets text).mapError .code
  e.evaluate s

def evaluateOperand (s : Scope) : Operand → Except EvaluationFault Object
  | .host text => evaluateHost s text
  | .field owner name => s.member owner name

/-- The value of a term where the runtime module goes by the name `runtimeName`. -/
def Term.evaluate (lib : Libraries) (s : Scope) (runtimeName : String) :
    Term → Except EvaluationFault Object
  | operand o => evaluateOperand s o
  | clone t => do
    let f ← s.member runtimeName "clone"
    f.call lib [← t.evaluate lib s runtimeName]
  | convert t target field => do
    let f ← s.member runtimeName "into"
    let o ← t.evaluate lib s runtimeName
    f.call lib [o, ← evaluateHost s target, .value (.text field)]
  | apply path t => do
    let f ← evaluateHost s path
    f.call lib [← t.evaluate lib s runtimeName]

def evaluateKeywords (lib : Libraries) (s : Scope) (runtimeName : String)
    (keywords : List Keyword) : Except EvaluationFault (List (String × Value)) :=
  keywords.mapM fun k => do
    return (Text.normalize k.name, (← k.value.evaluate lib s runtimeName).toValue)

def Computation.evaluate (lib : Libraries) (s : Scope) (runtimeName : String) :
    Computation → Except EvaluationFault Object
  | term t => t.evaluate lib s runtimeName
  | host text => evaluateHost s text
  | construct callee keywords => do
    let callee ← evaluateHost s callee
    callee.construct lib (← evaluateKeywords lib s runtimeName keywords)
  | update callee base keywords => do
    let f ← s.member runtimeName "struct_update"
    let callee ← evaluateHost s callee
    let base ← evaluateHost s base
    let fields ← evaluateKeywords lib s runtimeName keywords
    match f with
    | .function .structUpdate => callee.update lib base fields
    | _ => throw .badCall
  | fieldChecks left right => do
    let f ← s.member runtimeName "FieldChecks"
    f.call lib [← s.lookup left, ← s.lookup right]

/-- The fields of a class, each declared once by the name it has inside the class. A default is
only evaluated for an instance. -/
def ClassDef.fieldDecls (d : ClassDef) : List FieldDecl :=
  let className := Text.normalize d.name
  d.fields.foldl (fun decls f =>
    let name := Name.inClass className (Text.normalize f.name)
    if decls.any (·.name == name) then decls
    else
      let default := f.default.map fun e => Default.value (.symbol e.text)
      decls ++ [{ name, hint := .generic, default }]) []

/-- The class that a definition declares. The types of its fields are not looked up. -/
def ClassDef.evaluate (s : Scope) (d : ClassDef) : Except EvaluationFault RecordClass := do
  let _ ← s.member "dataclasses" "dataclass"
  if let some params := d.typeParameters then
    let _ ← s.member "typing" "Generic"
    let _ ← params.mapM s.lookup
    if !Name.areDistinct (params.map Text.normalize) then throw .badCall
  let fields := d.fieldDecls
  (RecordClass.checkFields d.typeParameters.isSome fields).mapError .declaration
  return { style := .dataclass, name := Text.normalize d.name, fields }

/-- The checks that a name stands for. -/
def lookupChecks (s : Scope) (name : String) : Except EvaluationFault FieldChecks := do
  match ← s.lookup name with
  | .checks c => return c
  | _ => throw .noMember

/-- The scope after a line. -/
def Line.run (lib : Libraries) (runtimeName : String) (s : Scope) :
    Line → Except EvaluationFault Scope
  | blank => .ok s
  | typeVariable name => do
    let _ ← s.member "typing" "TypeVar"
    return s.put name (.typeVariable name)
  | classDef d => do return s.put d.name (.recordClass (← d.evaluate s) .emitted)
  | assign name value => do return s.put name (← value.evaluate lib s runtimeName)
  | check checks left right field => do
    let c ← lookupChecks s checks
    let actual ← s.member left field
    let expected ← s.member right field
    return s.put checks (.checks (c.check field actual.toValue expected.toValue))
  | report checks args => do
    let c ← lookupChecks s checks
    let args ← args.mapM fun arg => do return (← evaluateHost s arg.text).toValue
    (c.report lib.layout (args.headD .nothing) (args.drop 1)).mapError .report
    return s

/-- The value of a script, and the scope that it leaves. -/
def Script.run (lib : Libraries) (runtimeName : String) (s : Scope) (script : Script) :
    Except EvaluationFault (Object × Scope) := do
  (script.checkLines runtimeName).mapError .code
  let s := script.imports.foldl (fun s m => s.put (m.boundName runtimeName) (.library m)) s
  let s ← script.blocks.flatten.foldlM (Line.run lib runtimeName) s
  script.checkResult.mapError .code
  match script.result with
  | none => return (.value .nothing, s)
  | some value => return (← value.evaluate lib s runtimeName, s)

end Python

/-- Why an invocation has no value: it cannot be expanded, or its code fails. -/
inductive EvaluationError where
  | error (e : Error)
  | fault (entryPoint : EntryPoint) (f : EvaluationFault)

/-- Reads one invocation, expands it and runs the code in a scope of the given values and
classes. -/
def evaluate (lib : Libraries) (entryPoint text : String) (dialect : Option String)
    (settings : Settings) (file : String) (values : List (String × Value))
    (classes : List RecordClass) :
    Except EvaluationError (Object × Scope) := do
  let (backend, invocation) ←
    (readInvocation entryPoint text dialect settings file).mapError .error
  let t ← invocation.table.mapError fun conflict => .error (conflict.locate file (some text))
  let fault := EvaluationError.fault backend.entryPoint
  let s ← (Scope.ofGiven values classes).mapError fun f => fault (.declaration f)
  match backend.dialect with
  | .rust => throw (.error (.notEvaluable backend.dialect.name))
  | .python =>
    let script := (Python.script settings invocation t).laidOut settings.tab
    (script.run lib settings.runtimeAlias s).mapError fault

end FieldComposition
