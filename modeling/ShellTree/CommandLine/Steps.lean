import ShellTree.CommandLine.Arguments
import ShellTree.CommandLine.Session

/-!
# What writing a tree takes

Before `render` writes a tree it takes seven steps. What is reported if one of them fails is said here of
the world and the invocation alone, whether or not the program comes to take the step; so is the line mode
that flags, the environment and the settings ask for together. Which flags there are is read off the
arguments one by one.
-/

namespace ShellTree

namespace Settings

/-- The line mode that settings for writing name, if they name any. -/
def lineModeIn? : Toml.Value → Option LineMode
  | .table rendering => (rendering.lookup "line-mode").bind fun mode => (Decode.lineMode mode).toOption
  | .array (mode :: _) => (Decode.lineMode mode).toOption
  | _ => none

/-- The line mode that the settings with these members name, if they name any. -/
def givenLineMode? (members : Toml.Members) : Option LineMode := (members.lookup "render").bind lineModeIn?

end Settings

namespace CommandLine

namespace World

/-- The file that settings are taken from: the one that is asked for, be it there or not, or the one with
the usual name if it is there. -/
def settingsFile? (world : World) : (asked : Option String) → Option String
  | some path => some path
  | none =>
    let usual := Files.join world.directory Settings.fileName
    if world.files.holds usual then some usual else none

def environmentLineMode? (world : World) : Option LineMode := do
  let text ← world.variableText? Settings.variableName
  [("single", LineMode.single), ("single-line", .single), ("multi", .multi), ("multi-line", .multi)].lookup
    (LineMode.normalize text)

def fileLineMode? (world : World) (asked : Option String) : Option LineMode := do
  let path ← world.settingsFile? asked
  let text ← (world.files.text path).toOption
  let members ← (Toml.parse text).toOption
  Settings.givenLineMode? members

def settings (world : World) (asked : Option String) : Except Settings.Failure Settings :=
  Settings.load world.files world.directory asked (world.variableText? Settings.variableName)

end World

/-- The line mode that a tree is written in: that of a flag, else that of the environment, else that of
the settings file, else a single line. -/
def renderLineMode (world : World) (invocation : Invocation) : LineMode :=
  if .multiLine ∈ invocation.flags then .multi
  else if .singleLine ∈ invocation.flags then .single
  else (world.environmentLineMode? <|> world.fileLineMode? invocation.config).getD .single

namespace Flag

def ofName? (name : String) : Option Flag :=
  [("multi-line", Flag.multiLine), ("single-line", .singleLine), ("no-validate", .noValidate)].lookup name

def ofLetter? (letter : Char) : Option Flag := [('m', Flag.multiLine), ('s', .singleLine)].lookup letter

/-- The flags that an argument gives: one by its name behind two dashes, or some by their letters behind one. -/
def given (argument : String) : List Flag :=
  match argument.toList with
  | '-' :: '-' :: name => (ofName? (String.ofList name)).toList
  | '-' :: letters => letters.filterMap ofLetter?
  | _ => []

end Flag

/-- A cause in a report. Its later lines start below the end of what stands in front of the first one. -/
def causeLines (front message : String) : String :=
  front ++ String.ofList (message.toList.flatMap fun c =>
    if c = '\n' then '\n' :: List.replicate front.length ' ' else [c])

/-- The steps that come before a tree is written. -/
inductive Step where
  | settingsExistence
  | settingsReading
  | settingsParsing
  | environment
  | treeExistence
  | treeReading
  | treeParsing
deriving DecidableEq

def Step.all : List Step :=
  [.settingsExistence, .settingsReading, .settingsParsing, .environment, .treeExistence, .treeReading, .treeParsing]

/-- What is reported if a step fails. Of a text that is no document of its kind, only that is said. -/
def Step.report? (world : World) (invocation : Invocation) : Step → Option String
  | .settingsExistence => do
    let path ← invocation.config
    if world.files.holds path then none
    else some ("Error: ❌ Critical: config file " ++ Text.quoted path ++ " not found." ++ "\n")
  | .settingsReading => do
    let path ← world.settingsFile? invocation.config
    match world.files.text path with
    | .error fault =>
      some ("Error: Failed to read " ++ path ++ "\n\nCaused by:\n" ++ causeLines "    " fault.message ++ "\n")
    | .ok _ => none
  | .settingsParsing => do
    let path ← world.settingsFile? invocation.config
    let text ← (world.files.text path).toOption
    match readDocument Decode.settings text with
    | .error fault =>
      some ("Error: Failed to parse " ++ path ++ "\n\nCaused by:\n" ++ causeLines "    " (faultMessage fault) ++ "\n")
    | .ok _ => none
  | .environment => do
    let text ← world.variableText? Settings.variableName
    if world.environmentLineMode?.isSome then none
    else
      let message := "Unknown line mode '" ++ LineMode.normalize text ++ "' (expected 'single-line' or 'multi-line')"
      some ("Error: Invalid SHPRINT_LINE_MODE value\n\nCaused by:\n" ++ causeLines "    " message ++ "\n")
  | .treeExistence =>
    if world.files.holds invocation.file then none
    else some ("Error: ❌ Tree document not found: " ++ Text.quoted invocation.file ++ "\n")
  | .treeReading =>
    match world.files.text invocation.file with
    | .error fault =>
      some ("Error: Failed to read tree document: " ++ invocation.file ++ "\n\nCaused by:\n" ++
        causeLines "    " fault.message ++ "\n")
    | .ok _ => none
  | .treeParsing => do
    let text ← (world.files.text invocation.file).toOption
    match Script.ofText text with
    | .error fault =>
      some ("Error: Invalid tree document: " ++ invocation.file ++ "\n\nCaused by:\n" ++
        "    0: Failed to parse tree document\n" ++ causeLines "    1: " (faultMessage fault) ++ "\n")
    | .ok _ => none

def firstReport? (world : World) (invocation : Invocation) : Option String :=
  Step.all.findSome? (Step.report? world invocation)

end CommandLine

end ShellTree
