import ShellTree.CommandLine.Arguments

/-!
# Texts about the program

The help pages of the program and its subcommands, and its version.
-/

namespace ShellTree.CommandLine

def versionText : String := "shprint 0.1.0"

def about : String := "Render shell syntax trees as source text"

/-- The lines of a help page about options that every scope has. -/
def commonOptions : List String :=
  ["      --config <CONFIG>  Config file (defaults to ./shprint.toml when present)",
    "  -h, --help             Print help"]

/-- The help page of a scope, line by line. -/
def helpLines : Scope → List String
  | .program =>
    [about, "", "Usage: shprint [OPTIONS] <COMMAND>", "", "Commands:",
      "  render  Render a tree document [aliases: r]",
      "  check   Check a tree document for structurally empty nodes [aliases: c]",
      "  modes   Render a tree document in both line modes",
      "  help    Print this message or the help of the given subcommand(s)", "", "Options:"] ++
      commonOptions ++ ["  -V, --version          Print version"]
  | .inside .render =>
    ["Render a tree document", "", "Usage: shprint render [OPTIONS] <FILE>", "", "Arguments:",
      "  <FILE>  ", "", "Options:",
      "  -m, --multi-line       Break and indent and-or lists and compound commands",
      "  -s, --single-line      Keep everything on one line",
      "      --no-validate      Skip structural checks before rendering"] ++ commonOptions
  | .inside .check =>
    ["Check a tree document for structurally empty nodes", "",
      "Usage: shprint check [OPTIONS] <FILE>", "", "Arguments:", "  <FILE>  ", "", "Options:"] ++
      commonOptions
  | .inside .modes =>
    ["Render a tree document in both line modes", "", "Usage: shprint modes [OPTIONS] <FILE>", "",
      "Arguments:", "  <FILE>  ", "", "Options:"] ++ commonOptions

def helpOnHelpText : String :=
  "\n".intercalate
    ["Print this message or the help of the given subcommand(s)", "",
      "Usage: shprint help [COMMAND]...", "", "Arguments:",
      "  [COMMAND]...  Print help for the subcommand(s)"]

def helpText (scope : Scope) : String := "\n".intercalate (helpLines scope)

end ShellTree.CommandLine
