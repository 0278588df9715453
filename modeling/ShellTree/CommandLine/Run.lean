import ShellTree.CommandLine.Help
import ShellTree.CommandLine.Session
import ShellTree.Issue
import ShellTree.Render

/-!
# Running the program

The three subcommands, and the program as a whole: from its arguments and the world to what it
writes and the status that it ends with.

`render` writes the tree of a document in the line mode that a flag, the environment or the settings
ask for, and reports structural issues on standard error without minding them; `check` fails if
there are any; `modes` writes the tree in both line modes. Only `render` looks at the settings.
-/

namespace ShellTree.CommandLine

def loadSettings (world : World) (config : Option String) : Session Settings := do
  match Settings.source? world.files world.directory config with
  | .error failure => throw (.settings failure)
  | .ok source =>
    if let some path := source then
      world.log .info "shprint::config"
        (world.paint .cyan "⚙️" ++ " Loading config from: " ++ world.paint .bold path)
    match Settings.ofSource world.files source (world.variableText? Settings.variableName) with
    | .error failure => throw (.settings failure)
    | .ok settings => return settings

def loadTree (world : World) (path : String) : Session Script := do
  match Script.load world.files path with
  | .error failure => throw (.tree failure)
  | .ok script =>
    world.log .debug "shprint::document"
      ("Loaded tree with " ++ script.length.repr ++ " and-or lists")
    return script

/-- Writes the source text of a tree as lines of standard output. -/
def printSource (world : World) (script : Script) (mode : LineMode) : Session Unit := do
  world.log .debug "shprint::ast"
    ("Rendering shprint::ast::list::Sequence in " ++ mode.text ++ " mode")
  match Script.source script mode with
  | .error overflow => throw (.overflow overflow)
  | .ok text => printLine text

/-- Lists issues on standard error, each behind a bullet. -/
def reportIssues (world : World) (look : Text.Look) (issues : List Issue) : Session Unit :=
  issues.forM fun issue => reportLine ("  " ++ world.paint look "•" ++ " " ++ issue.text)

/-- Reports the issues of a tree that is written all the same, and logs them. -/
def warnOfIssues (world : World) (path : String) (issues : List Issue) : Session Unit := do
  unless issues.isEmpty do
    reportLine
      (world.paint .yellow "⚠️" ++ " " ++ world.paint .bold path ++ " has structural issues:")
  reportIssues world .yellow issues
  issues.forM fun issue => world.log .warning "shprint::handlers::render" issue.text

/-- Writes a tree in the line mode that is asked for. -/
def render (world : World) (invocation : Invocation) : Session Unit := do
  let settings ← loadSettings world invocation.config
  let mode := invocation.lineMode?.getD settings.lineMode
  let script ← loadTree world invocation.file
  if settings.validate ∧ .noValidate ∉ invocation.flags then
    warnOfIssues world invocation.file (Script.issues script)
  world.log .debug "shprint::handlers::render"
    ("Rendering " ++ invocation.file ++ " in " ++ mode.text ++ " mode")
  printSource world script mode

/-- Lists the issues of a tree, and fails if there are any. -/
def check (world : World) (path : String) : Session Unit := do
  let script ← loadTree world path
  let issues := Script.issues script
  if issues.isEmpty then
    reportLine (world.paint .green "✅" ++ " " ++ world.paint .bold path ++
      " is structurally complete.")
  else
    reportIssues world .red issues
    throw (.issues issues.length path)

def modeHeader (world : World) (mode : LineMode) : String :=
  world.paint .heading ("── " ++ mode.text ++ " ──")

def modes (world : World) (path : String) : Session Unit := do
  let script ← loadTree world path
  [LineMode.single, LineMode.multi].forM fun mode => do
    printLine (modeHeader world mode)
    printSource world script mode
    printLine ""

structure Outcome where
  code : UInt32
  transcript : Transcript
deriving DecidableEq

/-- Runs a session from an empty transcript; a failure is reported behind what was written. -/
def Session.outcome (session : Session Unit) : Outcome :=
  match StateT.run (ExceptT.run session) {} with
  | (.ok (), transcript) => ⟨0, transcript⟩
  | (.error failure, transcript) =>
    ⟨failure.code, { transcript with stderr := transcript.stderr ++ failure.report }⟩

def usageReport (fault : UsageFault) : String :=
  Text.Look.bold.on ++ Text.Look.red.on ++ "error:" ++ Text.lookOff ++ " " ++ fault.message ++
    "\n\nFor more information, try " ++ quotedWord "--help" .bold ++ ".\n"

/-- What the program does that is asked for nothing but a text about itself. -/
def Stop.outcome (world : World) : Stop → Outcome
  | .version => ⟨0, { stdout := versionText ++ "\n" }⟩
  | .help scope => ⟨0, { stdout := helpText scope ++ "\n" }⟩
  | .helpOnHelp => ⟨0, { stdout := helpOnHelpText ++ "\n" }⟩
  | .noArguments => ⟨2, { stderr := helpText .program ++ "\n" }⟩
  | .usage fault =>
    let report := usageReport fault
    ⟨2, { stderr := if world.keepsLooks then report else Text.plain report }⟩

def Invocation.run (world : World) (invocation : Invocation) : Session Unit :=
  match invocation.subcommand with
  | .render => render world invocation
  | .check => check world invocation.file
  | .modes => modes world invocation.file

def run (world : World) (arguments : List String) : Outcome :=
  match readArguments arguments with
  | .error stop => stop.outcome world
  | .ok invocation => Session.outcome (invocation.run world)

end ShellTree.CommandLine
