import FieldComposition.CommandLine.Arguments
import FieldComposition.Files.Path

/-!
# Commands

What the program can be asked to do.
-/

namespace FieldComposition.CommandLine

/-- Where a text is taken from: an argument, a file, or else the input. -/
structure Source where
  argument : Option String := none
  file : Option Path := none
  deriving DecidableEq, Repr

structure ExpandCommand where
  entryPoint : String
  source : Source
  dialect : Option String := none
  settings : Option Path := none
  /-- Whether the code is printed without highlighting. -/
  plain : Bool := false
  deriving DecidableEq, Repr

structure CheckCommand where
  source : Source
  allowBase : Bool := false
  dialect : String := "python"
  deriving DecidableEq, Repr

inductive Command where
  | version
  | backends
  | expand (c : ExpandCommand)
  | check (c : CheckCommand)
  deriving DecidableEq, Repr

namespace Command

def globalOptions : List OptionDecl :=
  [⟨"version", some 'V', false⟩, ⟨"verbose", some 'v', false⟩]

def expandOptions : List OptionDecl :=
  [⟨"file", some 'f', true⟩, ⟨"dialect", some 'd', true⟩, ⟨"config", none, true⟩,
   ⟨"plain", none, false⟩]

def checkOptions : List OptionDecl :=
  [⟨"file", some 'f', true⟩, ⟨"base-allowed", none, false⟩, ⟨"dialect", some 'd', true⟩]

/-- The source that arguments name, where at most one argument is left. -/
def sourceOf (a : Arguments) : List String → Except UsageFault Source
  | [] => .ok ⟨none, (a.value? "file").map Path.ofText⟩
  | [text] => .ok ⟨some text, (a.value? "file").map Path.ofText⟩
  | _ :: text :: _ => .error (.argumentRefused text)

def readExpand (args : List String) : Except UsageFault Command := do
  let a ← Arguments.ofList expandOptions false args
  match a.others with
  | [] => throw (.argumentMissing "KIND")
  | entryPoint :: rest =>
    return .expand {
      entryPoint, source := ← sourceOf a rest, dialect := a.value? "dialect",
      settings := (a.value? "config").map Path.ofText, plain := a.has "plain" }

def readCheck (args : List String) : Except UsageFault Command := do
  let a ← Arguments.ofList checkOptions false args
  return .check {
    source := ← sourceOf a a.others, allowBase := a.has "base-allowed",
    dialect := (a.value? "dialect").getD "python" }

def readBackends (args : List String) : Except UsageFault Command := do
  match (← Arguments.ofList [] false args).others with
  | [] => return .backends
  | text :: _ => throw (.argumentRefused text)

/-- The command that the arguments behind the global options ask for. -/
def ofOthers : List String → Except UsageFault Command
  | "expand" :: rest => readExpand rest
  | "check" :: rest => readCheck rest
  | "backends" :: rest => readBackends rest
  | name :: _ => .error (.unknownCommand name)
  | [] => .error .commandMissing

/-- The files that a command names. -/
def files : Command → List Path
  | expand c => c.source.file.toList ++ c.settings.toList
  | check c => c.source.file.toList
  | _ => []

/-- Whether a command takes its text from the input. -/
def readsInput : Command → Bool
  | expand c => c.source.argument.isNone && c.source.file.isNone
  | check c => c.source.argument.isNone && c.source.file.isNone
  | _ => false

end Command

/-- A command, and whether all there is to log is asked for with it. -/
structure Request where
  command : Command
  isVerbose : Bool := false
  deriving DecidableEq, Repr

/-- What arguments ask for. -/
def Request.ofArguments (args : List String) : Except UsageFault Request := do
  let a ← Arguments.ofList Command.globalOptions true args
  if a.has "version" then return { command := .version }
  return { command := ← Command.ofOthers a.others, isVerbose := a.has "verbose" }

end FieldComposition.CommandLine
