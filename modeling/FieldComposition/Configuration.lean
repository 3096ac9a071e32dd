import FieldComposition.Libraries
import FieldComposition.Text.Search
import FieldComposition.Toml.Document
import FieldComposition.Workspace

/-!
# Configuration files

Settings may stand in a file of their own or in the file of a project, in the nearest directory
from the current one upwards that has either (`find?`). A variable of the environment overrides the
dialect. What keeps settings from being loaded is a `ConfigurationFault`.
-/

namespace FieldComposition

/-- Why settings cannot be loaded. -/
inductive ConfigurationFault where
  | notFound (path : Path)
  /-- The file is not TOML. -/
  | unreadable (path : Path)
  | notATable (path : Path)
  /-- The tools of a project file are no table. -/
  | toolsNotATable (path : Path)
  /-- An integer in the file has too many digits. -/
  | overlongInteger (path : Path) (digits : Nat)
  | invalid (source : Option Path) (issues : List FieldIssue) (description : String)
  deriving DecidableEq, Repr

namespace ConfigurationFault

/-- Whether a fault is reported as one of the configuration. The others end a command without a
word. -/
def isReported : ConfigurationFault → Bool
  | toolsNotATable _ | overlongInteger _ _ => false
  | _ => true

/-- What is wrong, without the details. -/
def summary : ConfigurationFault → String
  | notFound path => "Config file not found: " ++ path.render
  | unreadable path => "Cannot read " ++ path.render
  | notATable path => "Settings in " ++ path.render ++ " must be a table"
  | toolsNotATable path => "Tools in " ++ path.render ++ " must be a table"
  | overlongInteger path _ => "Cannot convert an integer in " ++ path.render
  | invalid source _ _ =>
    "Invalid settings in " ++ ((source.map Path.render).getD "environment")

/-- The details behind a summary, if there are any. -/
def details : ConfigurationFault → Option String
  | unreadable _ => some "not a TOML document"
  | overlongInteger _ digits => some (toString digits ++ " digits")
  | invalid _ _ description => some description
  | _ => none

def message (fault : ConfigurationFault) : String :=
  match fault.details with
  | some details => fault.summary ++ ": " ++ details
  | none => fault.summary

end ConfigurationFault

namespace Configuration

/-- The file that holds nothing but settings. -/
def settingsFile : String :=
  "fieldspread.toml"

/-- The file of a project, which may hold settings. -/
def projectFile : String :=
  "pyproject.toml"

/-- The variable that overrides the dialect. -/
def dialectVariable : String :=
  "FIELDSPREAD_DIALECT"

/-- The header that marks a project file with settings. -/
def settingsHeader : String :=
  "[tool.fieldspread]"

/-- The configuration file of a directory. -/
def fileIn? (tree : FileTree) (directory : List String) : Option Path :=
  let settings := directory ++ [settingsFile]
  let project := directory ++ [projectFile]
  if (tree.text? settings).isSome then some ⟨true, settings⟩
  else
    match tree.text? project with
    | some text =>
      if Text.occursIn settingsHeader.toList text.toList then some ⟨true, project⟩ else none
    | none => none

/-- The nearest configuration file from a directory upwards. -/
def find? (w : Workspace) (start : Path) : Option Path :=
  (Path.around (w.directory.inside start).resolve.parts).findSome? (fileIn? w.tree)

/-- A table in another one, which is empty if it is missing. -/
def subtable? (key : String) (t : Toml.Table) : Option Toml.Table :=
  match t.get? key with
  | none => some []
  | some (.table entries) => some entries
  | some _ => none

/-- The table of the settings in the document that a file holds. -/
def settingsTable (path : Path) (document : Toml.Table) :
    Except ConfigurationFault Toml.Table :=
  let table (key : String) (t : Toml.Table) :=
    match subtable? key t with
    | some table => .ok table
    | none => .error (.notATable path)
  if path.name = projectFile then
    match subtable? "tool" document with
    | some tools => table "fieldspread" tools
    | none => .error (.toolsNotATable path)
  else table "expansion" document

/-- The table of the settings in a file. -/
def tableOf (path : Path) (text : String) : Except ConfigurationFault Toml.Table :=
  match Toml.parse text with
  | .ok document => settingsTable path document
  | .error .malformed => .error (.unreadable path)
  | .error (.overlong digits) => .error (.overlongInteger path digits)

mutual

/-- A value of a document as the program holds it; of a moment only the written form is known. -/
def rawValue : Toml.Value → Value
  | .string s => .text s
  | .integer n => .int n
  | .real x => .real x
  | .boolean b => .bool b
  | .moment text => .symbol text
  | .array items => .list (rawItems items)
  | .table entries => .dict (rawEntries entries)

def rawItems : List Toml.Value → List Value
  | [] => []
  | v :: rest => rawValue v :: rawItems rest

def rawEntries : List (String × Toml.Value) → List (String × Value)
  | [] => []
  | (key, v) :: rest => (key, rawValue v) :: rawEntries rest

end

/-- The dialect that the environment asks for. -/
def environmentDialect? (w : Workspace) : Option String :=
  (w.env? dialectVariable).filter (· ≠ "")

/-- The raw values of the settings: those of a file, with the dialect of the environment. -/
def rawValues (table : Toml.Table) (dialect : Option String) : List (String × Value) :=
  rawEntries <| match dialect with
    | some name => table.put "dialect" (.string name)
    | none => table

/-- The table of a file that is asked for, or else of the nearest one, with its path. -/
def source (w : Workspace) (path : Option Path) :
    Except ConfigurationFault (Option Path × Toml.Table) :=
  match path with
  | some path =>
    match w.read path with
    | .ok text => (tableOf path text).map fun table => (some path, table)
    | .error _ => .error (.notFound path)
  | none =>
    match find? w ⟨false, []⟩ with
    | none => .ok (none, [])
    | some path =>
      match w.read path with
      | .ok text => (tableOf path text).map fun table => (some path, table)
      | .error _ => .error (.notFound path)

/-- The settings that raw values from a file make. -/
def makeSettings (lib : Libraries) (path : Option Path) (values : List (String × Value)) :
    Except ConfigurationFault Settings :=
  (lib.makeSettings values).mapError fun issues =>
    .invalid path issues (lib.describeIssues values issues)

/-- Settings from a file and the environment. -/
def load (lib : Libraries) (w : Workspace) (path : Option Path) (useEnvironment : Bool) :
    Except ConfigurationFault Settings := do
  let (path, table) ← source w path
  let dialect := if useEnvironment then environmentDialect? w else none
  makeSettings lib path (rawValues table dialect)

end Configuration

end FieldComposition
