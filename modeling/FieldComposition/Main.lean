import FieldComposition.CommandLine
import FieldComposition.StandIn

/-!
# The program

Gathers what a command may need from the world, runs the command, and prints its outcome.
-/

namespace FieldComposition.CommandLine

/-- The text of a file, if it can be read. -/
def readFile? (path : String) : IO (Option String) :=
  try
    return some (← IO.FS.readFile path)
  catch _ => return none

/-- The files among some paths that can be read. -/
def gatherFiles (directory : Path) (paths : List Path) : IO FileTree := do
  let mut files := []
  for path in paths do
    let path := directory.inside path
    if let some text ← readFile? path.render then
      files := files ++ [(path.resolve.parts, text)]
  return { files, directories := [directory.parts] }

/-- The configuration files of a directory and of all directories around it. -/
def configurationFiles (directory : Path) : List Path :=
  (Path.around directory.parts).flatMap fun parts =>
    [⟨true, parts ++ [Configuration.settingsFile]⟩, ⟨true, parts ++ [Configuration.projectFile]⟩]

partial def readAll (stream : IO.FS.Stream) (text : String) : IO String := do
  let line ← stream.getLine
  if line.isEmpty then return text else readAll stream (text ++ line)

def surroundings (c : Command) : IO Surroundings := do
  let directory := Path.ofText (← IO.currentDir).toString
  let tree ← gatherFiles directory (configurationFiles directory ++ c.files)
  let environment ← [Configuration.dialectVariable, levelVariable].filterMapM fun name =>
    return (← IO.getEnv name).map fun value => (name, value)
  let stdin ← IO.getStdin
  let input ←
    if !c.readsInput then pure (some "")
    else if ← stdin.isTty then pure none
    else some <$> readAll stdin ""
  return {
    workspace := { tree, directory, environment }
    input
    isTerminal := ← (← IO.getStdout).isTty }

def printOutcome (outcome : Outcome) : IO UInt32 := do
  IO.print outcome.output
  for shown in outcome.shown do
    for line in StandIn.shownLines shown do IO.println line
  IO.eprint outcome.errors
  return outcome.exitCode.toUInt32

end FieldComposition.CommandLine

open FieldComposition.CommandLine in
def main (args : List String) : IO UInt32 := do
  match Request.ofArguments args with
  | .error fault => printOutcome (refuse fault)
  | .ok r => printOutcome (run FieldComposition.StandIn.libraries (← surroundings r.command) r)
