import FieldComposition.CommandLine.Command
import FieldComposition.CommandLine.Display
import FieldComposition.Configuration
import FieldComposition.Emission
import FieldComposition.LogLevel
import FieldComposition.Resolution
import FieldComposition.Version

/-!
# The command line

`run` carries out a command in a workspace. What it leads to is an `Outcome`: an exit code, the
texts for the two output streams, what is shown on the console, and the level of logging. The
messages of the log itself are left out.
-/

namespace FieldComposition.CommandLine

structure Outcome where
  exitCode : Nat := 0
  output : String := ""
  errors : String := ""
  shown : List Display := []
  /-- The level that is logged at, if the program comes to set one. -/
  logLevel : Option LogLevel := none
  deriving DecidableEq, Repr

/-- What a command is run with. -/
structure Surroundings where
  workspace : Workspace := {}
  /-- The text of the input, unless it would have to be typed. -/
  input : Option String := none
  /-- Whether the output goes to a terminal. -/
  isTerminal : Bool := false

/-- An outcome that only says what went wrong. -/
def failure (message : String) : Outcome :=
  { exitCode := 1, errors := message ++ "\n" }

def failureOf (e : Error) : Outcome :=
  failure ("Error: " ++ e.render)

/-- What a fault of the configuration leads to. -/
def failureOfConfiguration (fault : ConfigurationFault) : Outcome :=
  if fault.isReported then failure ("Error: " ++ fault.message) else { exitCode := 1 }

/-- A text with a name for it, or what keeps it from being read. -/
def readSource (s : Surroundings) (source : Source) : Except Outcome (String × String) :=
  match source.argument, source.file with
  | some _, some _ =>
    .error (failure "Give the invocation either as an argument or with --file, not both")
  | some text, none => .ok (text, "<argument>")
  | none, some path =>
    match s.workspace.read path with
    | .ok text => .ok (text, path.render)
    | .error fault =>
      .error (failure ("Cannot read " ++ path.render ++ ": " ++ fault.message path))
  | none, none =>
    match s.input with
    | some text => .ok (Text.withNewlines text, "<stdin>")
    | none =>
      .error (failure
        "No invocation given: pass it as an argument, with --file, or on stdin")

def versionText : String :=
  "fieldspread version " ++ Version.current ++ "\n\nEnvironment:\n\nDialects: " ++
    ", ".intercalate (Dialect.all.map Dialect.name) ++ "\n"

def backendTable : TextTable where
  title := "Backends"
  columns := ["Dialect", "Entry point", "Backend"]
  rows := Backend.all.map fun b => [b.dialect.name, b.entryPoint.name, b.path]

/-- Prints the code of an expansion, highlighted on a terminal. -/
def runExpand (lib : Libraries) (s : Surroundings) (c : ExpandCommand) :
    Except Outcome Outcome := do
  let (text, name) ← readSource s c.source
  let settings ←
    (Configuration.load lib s.workspace c.settings true).mapError failureOfConfiguration
  let e ← (expand c.entryPoint text c.dialect settings name).mapError failureOf
  if c.plain || !s.isTerminal then return { output := e.render }
  else return { shown := [.code e.dialect e.render] }

/-- Where the value of a claim comes from, as the caller wrote it. -/
def sourceText (c : Claim) : String :=
  match c.group with
  | some group => group.source.text ++ "." ++ c.entry.name
  | none => (c.entry.value.map (·.text)).getD c.entry.name

/-- One row for a claim: its target, its modifier, its source and its origin. -/
def checkRow (c : Claim) : List String :=
  let modifier := c.entry.modifier.render
  [c.target, if modifier = "" then "-" else modifier, sourceText c, c.origin]

def checkTable (t : FieldTable) : TextTable where
  title := "Resolved fields"
  columns := ["Field", "Modifier", "Source", "Origin"]
  rows := t.claims.map checkRow

/-- The table of a field list, its base, and how much it holds. -/
def checkDisplays (t : FieldTable) : List Display :=
  let base := t.base.map fun base =>
    Display.text [⟨"Other fields fall back to ", none⟩, ⟨base.text, some .bold⟩]
  let size := toString t.claims.length ++ " field(s), " ++ toString t.groups.length ++ " group(s)"
  [.table (checkTable t)] ++ base.toList ++ [.text [⟨"\n", none⟩, ⟨size, some .dim⟩]]

/-- Shows where every field of a field list comes from. -/
def runCheck (s : Surroundings) (c : CheckCommand) : Except Outcome Outcome := do
  let (text, name) ← readSource s c.source
  let t ← (FieldTable.ofText c.allowBase false (.ofName c.dialect) name text).mapError failureOf
  return { shown := checkDisplays t }

/-- The outcome of a command, whether it went well or not. -/
def settle : Except Outcome Outcome → Outcome
  | .ok outcome => outcome
  | .error outcome => outcome

def runCommand (lib : Libraries) (s : Surroundings) : Command → Outcome
  | .version => { output := versionText }
  | .backends => { shown := [.table backendTable] }
  | .expand c => settle (runExpand lib s c)
  | .check c => settle (runCheck s c)

/-- The variable that names the level of logging. -/
def levelVariable : String :=
  "LOG_LEVEL"

/-- Carries out a command. Nothing is logged when only the version is asked for. -/
def run (lib : Libraries) (s : Surroundings) (r : Request) : Outcome :=
  let outcome := runCommand lib s r.command
  if r.command = .version then outcome
  else { outcome with
    logLevel := some (LogLevel.choose r.isVerbose (s.workspace.env? levelVariable)) }

/-- Arguments that make no command. -/
def refuse (fault : UsageFault) : Outcome :=
  { exitCode := 2, errors := "Error: " ++ fault.message ++ "\n" }

/-- Carries out the command that arguments ask for. -/
def runArguments (lib : Libraries) (s : Surroundings) (args : List String) : Outcome :=
  match Request.ofArguments args with
  | .ok r => run lib s r
  | .error fault => refuse fault

end FieldComposition.CommandLine
