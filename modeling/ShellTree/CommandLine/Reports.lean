import ShellTree.CommandLine.Run
import ShellTree.CommandLine.Steps

/-!
# What the subcommands have in common

What `check`, `render` and `modes` say of one file is put in the same terms here: the list of the issues
of its tree, the text of its tree in a line mode, and the log, which may stand between everything else on
standard error.
-/

namespace ShellTree.CommandLine

namespace World

/-- The texts that the log can come to: entries of levels that are logged, in a row. -/
inductive IsLog (world : World) : String → Prop where
  | nothing : world.IsLog ""
  | entry (level : Level) (part message : String) (logged : level.rank ≤ world.logLimit part) :
    world.IsLog (world.logEntry level part message)
  | append {first second : String} (before : world.IsLog first) (behind : world.IsLog second) :
    world.IsLog (first ++ second)

def issueLine (world : World) (look : Text.Look) (issue : Issue) : String :=
  "  " ++ world.paint look "•" ++ " " ++ issue.text ++ "\n"

def issueLines (world : World) (look : Text.Look) (issues : List Issue) : String :=
  String.join (issues.map (world.issueLine look))

/-- What is reported of a tree with these issues that is written all the same: nothing if there are none. -/
def issueReport (world : World) (path : String) (issues : List Issue) : String :=
  if issues.isEmpty then ""
  else
    world.paint .yellow "⚠️" ++ " " ++ world.paint .bold path ++ " has structural issues:" ++ "\n" ++
      world.issueLines .yellow issues

/-- What another world has in common with this one where they differ in nothing but their settings and in
files other than the one with this path. -/
structure SameBut (world other : World) (path : String) : Prop where
  file : other.files path = world.files path
  environment : ∀ name, name ≠ Settings.variableName → other.environment name = world.environment name
  terminal : other.terminal = world.terminal
  reportTerminal : other.reportTerminal = world.reportTerminal

end World

/-- Arguments that ask for a subcommand on a file, with whatever settings. -/
def Asks (arguments : List String) (subcommand : Subcommand) (path : String) : Prop :=
  ∃ invocation, readArguments arguments = .ok invocation ∧ invocation.subcommand = subcommand ∧
    invocation.file = path

/-- A text that `render` writes of a file in a line mode: wherever the file is the same as here and a flag
asks for the line mode, `render` succeeds if there are settings, and then this is all that it writes. -/
def World.RendersAs (world : World) (path : String) (mode : LineMode) (text : String) : Prop :=
  ∀ (other : World) (arguments : List String) (invocation : Invocation), other.files path = world.files path →
    readArguments arguments = .ok invocation → invocation.subcommand = .render → invocation.file = path →
    invocation.lineMode? = some mode →
    ((run other arguments).code = 0 ↔ ∃ settings, other.settings invocation.config = .ok settings) ∧
    ((run other arguments).code = 0 → (run other arguments).transcript.stdout = text)

end ShellTree.CommandLine
