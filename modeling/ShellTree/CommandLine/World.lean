import ShellTree.Files.Basic
import ShellTree.Text.Look
import ShellTree.Text.Plain

/-!
# The world

What the program sees of the outside: the files, the environment, the directory that it runs in, and
which of its outputs are terminals.

The environment and the outputs decide whether texts get looks. There are two rules: one for what
the program has to say on its documents, and one for the log and for what it says on its arguments.
They differ in what they make of `NO_COLOR` and of a `CLICOLOR_FORCE` that is zero.
-/

namespace ShellTree.CommandLine

open Text (Look)

structure World where
  files : Files
  environment : String → Option ByteArray
  directory : String
  /-- Whether standard output is a terminal. -/
  terminal : Bool := false
  /-- Whether standard error is a terminal. -/
  reportTerminal : Bool := false

namespace World

/-- The text of an environment variable. One that is no text counts as not set. -/
def variableText? (world : World) (name : String) : Option String :=
  (world.environment name).bind String.fromUTF8?

def isFilled (world : World) (name : String) : Bool := (world.environment name).any (·.size ≠ 0)

/-- Whether a variable that is set is something other than zero. -/
def isOn? (world : World) (name : String) : Option Bool := (world.variableText? name).map (· ≠ "0")

/-- Whether texts about documents get looks: if that is forced, or if output goes to a terminal and
nothing speaks against it. -/
def coloured (world : World) : Bool :=
  world.isOn? "CLICOLOR_FORCE" = some true ||
    (world.terminal && (world.isOn? "NO_COLOR").isNone && (world.isOn? "CLICOLOR").getD true)

/-- A text about a document with a look, where such texts get looks. -/
def paint (world : World) (look : Look) (text : String) : String :=
  if world.coloured then look.applyThroughout text else text

/-- Whether texts on standard error that come with their looks keep them. -/
def keepsLooks (world : World) : Bool :=
  !world.isFilled "NO_COLOR" &&
    (world.isFilled "CLICOLOR_FORCE" ||
      (world.reportTerminal && (world.isOn? "CLICOLOR").getD true))

end World

end ShellTree.CommandLine
