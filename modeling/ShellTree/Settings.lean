import ShellTree.Document
import ShellTree.Files.Basic
import ShellTree.Sink.Basic
import ShellTree.Text.WhiteSpace

/-!
# Settings

The settings of a program that writes trees: the line mode, and whether a tree is checked before it
is written. They come from a file, either one that is asked for, which has to exist, or the one with
the usual name, if there is one; an environment variable overrides the line mode of the file.
-/

namespace ShellTree

structure Settings where
  lineMode : LineMode := .single
  validate : Bool := true
deriving DecidableEq

/-- A text as names of line modes are compared: without white space at its ends, and its ASCII
letters in lower case. -/
def LineMode.normalize (text : String) : String := (Text.trim text).map Char.toLower

def LineMode.ofText? (text : String) : Option LineMode :=
  let name := normalize text
  if name = "single" ∨ name = "single-line" then some .single
  else if name = "multi" ∨ name = "multi-line" then some .multi
  else none

def LineMode.unknownMessage (text : String) : String :=
  "Unknown line mode '" ++ normalize text ++ "' (expected 'single-line' or 'multi-line')"

namespace Decode

open Toml (Value Members)

/-- The record of settings, and that of the settings for writing. -/
def Record.settings : Record := ⟨"ShprintConfig", ["render"]⟩
def Record.rendering : Record := ⟨"RenderConfig", ["line-mode", "validate"]⟩

/-- A line mode by its full name. -/
def lineMode : Value → Decoded LineMode :=
  choice .outside [("single-line", .single), ("multi-line", .multi)]

/-- The settings for writing: the line mode, and whether to check. -/
def rendering : Value → Decoded Settings
  | .array [] => .ok {}
  | .array [mode] => do return { lineMode := ← lineMode mode }
  | .array (mode :: validate :: _) => do
    return { lineMode := ← lineMode mode, validate := ← truth validate }
  | .table members => do
    Record.rendering.passOver members
    let mode ← optional .single lineMode (members.lookup "line-mode")
    let validate ← optional true truth (members.lookup "validate")
    return { lineMode := mode, validate }
  | .dateTime _ => .ok {}
  | found => .error (.wrongType found (.record .rendering))

/-- The settings that the members of a document's table spell. -/
def settings (members : Members) : Decoded Settings := do
  Record.settings.passOver members
  optional {} rendering (members.lookup "render")

end Decode

namespace Settings

def fileName : String := "shprint.toml"

def variableName : String := "SHPRINT_LINE_MODE"

inductive Failure where
  | notFound (path : String)
  | unreadable (path : String) (fault : ReadFault)
  | invalid (path : String) (fault : TextFault)
  | unknownLineMode (text : String)

/-- The wording of a failure, from the outermost cause inwards; what is wrong with a document is
worded elsewhere. -/
def Failure.messages : Failure → List String
  | .notFound path => ["❌ Critical: config file " ++ Text.quoted path ++ " not found."]
  | .unreadable path fault => ["Failed to read " ++ path, fault.message]
  | .invalid path _ => ["Failed to parse " ++ path]
  | .unknownLineMode text =>
    ["Invalid " ++ variableName ++ " value", LineMode.unknownMessage text]

/-- Where settings come from, if from a file: the one that is asked for, which has to exist, or the
one with the usual name in `directory`. -/
def source? (files : Files) (directory : String) : (asked : Option String) →
    Except Failure (Option String)
  | some path => if files.holds path then .ok (some path) else .error (.notFound path)
  | none =>
    let path := Files.join directory fileName
    .ok (if files.holds path then some path else none)

def ofFile (files : Files) (path : String) : Except Failure Settings :=
  match files.text path with
  | .error fault => .error (.unreadable path fault)
  | .ok text =>
    match readDocument Decode.settings text with
    | .error fault => .error (.invalid path fault)
    | .ok settings => .ok settings

/-- The settings with the line mode that the environment variable names, if it is set. -/
def override (settings : Settings) : (environment : Option String) → Except Failure Settings
  | none => .ok settings
  | some text =>
    match LineMode.ofText? text with
    | some lineMode => .ok { settings with lineMode }
    | none => .error (.unknownLineMode text)

/-- The settings of the file they come from, or the usual ones, under the environment variable. -/
def ofSource (files : Files) (source : Option String) (environment : Option String) :
    Except Failure Settings := do
  let settings ← match source with
    | some path => ofFile files path
    | none => pure {}
  settings.override environment

def load (files : Files) (directory : String) (asked environment : Option String) :
    Except Failure Settings := do
  ofSource files (← source? files directory asked) environment

end Settings

end ShellTree
