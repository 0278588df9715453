import ShellTree.CommandLine.Run

/-!
# The program

The outermost layer: it gathers the world that the command line runs in, and writes what it
answers. Of the files, only those that the arguments can lead to are looked at.
-/

namespace ShellTree.CommandLine

/-- The paths that the program may look at. -/
def relevantPaths (directory : String) (arguments : List String) : List String :=
  match readArguments arguments with
  | .error _ => []
  | .ok invocation =>
    Files.join directory Settings.fileName :: invocation.file :: invocation.config.toList

/-- The environment variables that the program may look at. -/
def relevantVariables : List String :=
  [Settings.variableName, World.logVariable, World.logLookVariable, "CLICOLOR_FORCE", "CLICOLOR",
    "NO_COLOR"]

/-- Looks at what a path names. -/
def lookAt (path : String) : IO Lookup := do
  if path.isEmpty then return .absent
  let place := (← IO.currentDir) / path
  unless ← place.pathExists do return .absent
  if ← place.isDir then return .directory
  try
    return .file (← IO.FS.readBinFile place)
  catch error =>
    return .unreadable error.toString

/-- Gathers as much of the world as the arguments can lead to. -/
def gatherWorld (arguments : List String) : IO World := do
  let directory := (← IO.currentDir).toString
  let found ← (relevantPaths directory arguments).mapM fun path => return (path, ← lookAt path)
  let set ← relevantVariables.filterMapM fun name => do
    return (← IO.getEnv name).map fun value => (name, value.toUTF8)
  return {
    files := fun path => (found.lookup path).getD .absent
    environment := fun name => set.lookup name
    directory
    terminal := ← (← IO.getStdout).isTty
    reportTerminal := ← (← IO.getStderr).isTty }

end ShellTree.CommandLine

/-- Runs the program on its arguments and writes what it answers. -/
def main (arguments : List String) : IO UInt32 := do
  let world ← ShellTree.CommandLine.gatherWorld arguments
  let outcome := ShellTree.CommandLine.run world arguments
  (← IO.getStdout).putStr outcome.transcript.stdout
  (← IO.getStderr).putStr outcome.transcript.stderr
  return outcome.code
