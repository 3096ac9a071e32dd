import FieldComposition.Emission.Assertion
import FieldComposition.Emission.Holder
import FieldComposition.Emission.Rebinding
import FieldComposition.Parser.Invocation

/-!
# Emission

From an invocation to its expansion. Every dialect has one backend for every entry point, and a
backend takes one form of invocation. `expand` runs the whole way from the text of an invocation.
-/

namespace FieldComposition

namespace EntryPoint

/-- The form of invocation that an entry point takes. -/
def form : EntryPoint → String
  | spread => "StructUpdate"
  | anon => "AnonRecord"
  | slet => "Rebinding"
  | clone => "Rebinding"
  | fnStruct => "FnStruct"
  | assertFieldsEq => "AssertFields"

/-- The name of the backend of an entry point, the same in every dialect. -/
def backend : EntryPoint → String
  | spread => "StructUpdateBackend"
  | anon => "AnonRecordBackend"
  | slet => "RebindingBackend"
  | clone => "CloneBackend"
  | fnStruct => "FnStructBackend"
  | assertFieldsEq => "AssertFieldsBackend"

/-- The module that the backend of an entry point is listed under. -/
def backendModule : EntryPoint → String
  | spread | anon => "records"
  | slet | clone => "bindings"
  | fnStruct => "holders"
  | assertFieldsEq => "assertions"

/-- The entry points in the order of their names. -/
def sorted : List EntryPoint :=
  [anon, assertFieldsEq, clone, fnStruct, slet, spread]

end EntryPoint

/-- A backend: a dialect and an entry point. -/
structure Backend where
  dialect : Dialect
  entryPoint : EntryPoint
  deriving DecidableEq, Repr

namespace Backend

/-- All backends, by dialect and entry point. -/
def all : List Backend :=
  Dialect.all.flatMap fun dialect => EntryPoint.sorted.map fun point => ⟨dialect, point⟩

/-- The name a backend is listed under. -/
def path (b : Backend) : String :=
  "fieldspread.backends." ++ b.dialect.name ++ "." ++ b.entryPoint.backendModule ++ "." ++
    b.entryPoint.backend

/-- The backend for the names of a dialect and an entry point. -/
def find (dialect entryPoint : String) : Except Error Backend :=
  match EntryPoint.ofName? entryPoint with
  | none => .error (.unknownEntryPoint entryPoint)
  | some point =>
    match Dialect.ofName? dialect with
    | none => .error (.noBackend point dialect)
    | some d => .ok ⟨d, point⟩

end Backend

namespace Invocation

/-- The field list whose entries an expansion resolves. -/
def composition? : Invocation → Option Composition
  | structUpdate _ c | anonRecord c | rebinding c => some c
  | holder _ => none
  | assertion a => match a.expected with
    | .record c => some c
    | .value .. => none

/-- The field table of an invocation; one without a field list has an empty table. -/
def table (i : Invocation) : Except Conflict FieldTable :=
  match i.composition? with
  | some c => c.resolve
  | none => .ok {}

end Invocation

/-- The python code of an invocation with its field table. -/
def Python.script (settings : Settings) (i : Invocation) (t : FieldTable) : Script :=
  match i with
  | .structUpdate typePath _ => structUpdate settings typePath t
  | .anonRecord _ => anonRecord settings t
  | .rebinding _ => rebinding settings t
  | .holder h => holder h
  | .assertion a => assertion settings a t

/-- The rust code of an invocation with its field table. -/
def Rust.draft (settings : Settings) (i : Invocation) (t : FieldTable) : Draft :=
  match i with
  | .structUpdate typePath _ => { expression := some (structUpdate settings typePath t) }
  | .anonRecord _ => { expression := some (anonRecord settings t) }
  | .rebinding _ => rebinding t
  | .holder h => holder h
  | .assertion a => assertion settings a t

namespace Backend

/-- The code of an invocation with its field table. -/
def draft (b : Backend) (settings : Settings) (i : Invocation) (t : FieldTable) : Draft :=
  match b.dialect with
  | .python => (Python.script settings i t).draft settings.runtimeAlias
  | .rust => Rust.draft settings i t

/-- The expansion of an invocation that was read from a text in a file; the text, if it is given,
is quoted where two entries are in conflict. -/
def expand (b : Backend) (settings : Settings) (file : String) (text : Option String)
    (i : Invocation) : Except Error Expansion :=
  if i.form ≠ b.entryPoint.form then
    .error (.wrongForm b.entryPoint.backend b.entryPoint.form i.form)
  else
    match i.table with
    | .error conflict => .error (conflict.locate file text)
    | .ok t => .ok ((b.draft settings i t).layout settings.tab b.entryPoint b.dialect.name)

end Backend

/-- The dialect of an expansion: the one that is asked for, or else that of the settings. -/
def chooseDialect (settings : Settings) (dialect : Option String) : Except Error Dialect :=
  match dialect.filter (· ≠ "") with
  | none => .ok settings.dialect
  | some name =>
    match Dialect.ofName? name with
    | some d => .ok d
    | none => .error (.unknownDialect name)

/-- Reads one invocation, with the backend that expands it. -/
def readInvocation (entryPoint text : String) (dialect : Option String) (settings : Settings)
    (file : String) : Except Error (Backend × Invocation) := do
  let dialect ← chooseDialect settings dialect
  let backend ← Backend.find dialect.name entryPoint
  let invocation ← (Invocation.ofText backend.entryPoint (.dialect dialect) text).mapError
    (·.locate file text)
  return (backend, invocation)

/-- Reads one invocation and expands it. -/
def expand (entryPoint text : String) (dialect : Option String) (settings : Settings)
    (file : String) : Except Error Expansion := do
  let (backend, invocation) ← readInvocation entryPoint text dialect settings file
  backend.expand settings file (some text) invocation

end FieldComposition
