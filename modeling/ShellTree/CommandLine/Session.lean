import ShellTree.CommandLine.World
import ShellTree.Document
import ShellTree.Settings
import ShellTree.Text.WhiteSpace

/-!
# Sessions

A session is a computation that writes to standard output and standard error and may fail; what it
has written up to a failure stays written. It sees the outside as one value, its `World`.

Standard error also takes the log. The environment variable `RUST_LOG` holds directives, each of which
names the least important level that is logged, of all parts of the program or of those whose names
start alike; without directives only errors are logged. `RUST_LOG_STYLE` can say whether the log has
looks. A log without looks is plain text: it holds no control sequences, whatever the messages hold.
The time of an entry is left out, and so is what the log says of directives that it cannot read; a
pattern behind a slash, which thins out the entries, is passed over.
-/

namespace ShellTree.CommandLine

inductive Failure where
  | settings (failure : Settings.Failure)
  | tree (failure : Script.LoadFailure)
  | issues (count : Nat) (path : String)
  | overflow (overflow : Overflow)

/-- What a report says of a text that is no document of its kind; it leaves out where the text goes
wrong. -/
def textFaultMessage : String := "TOML parse error"

/-- What a report says of a text in which a key has too many parts. There is no telling where. -/
def longKeyMessage : String := "recursion limit\n"

def faultMessage : TextFault → String
  | .notToml .longKey => longKeyMessage
  | _ => textFaultMessage

/-- The wording of a failure, from the outermost cause inwards. -/
def Failure.messages : Failure → List String
  | .settings failure =>
    match failure with
    | .invalid _ fault => failure.messages ++ [faultMessage fault]
    | _ => failure.messages
  | .tree failure =>
    match failure with
    | .invalid _ fault => failure.messages ++ [faultMessage fault]
    | _ => failure.messages
  | .issues count path => ["❌ " ++ count.repr ++ " structural issue(s) in " ++ path]
  | .overflow cause => [cause.message]

/-- A message in which every line but the first is indented. -/
def hanging (indent message : String) : String :=
  String.ofList (message.toList.flatMap fun c => if c = '\n' then '\n' :: indent.toList else [c])

/-- A cause below the outermost one, with its number if there are several. -/
def causeText (several : Bool) (index : Nat) (message : String) : String :=
  if several then
    spaces (5 - index.repr.length) ++ index.repr ++ ": " ++ hanging (spaces 7) message
  else spaces 4 ++ hanging (spaces 4) message

def Failure.report (failure : Failure) : String :=
  match failure.messages with
  | [] => "Error: \n"
  | [message] => "Error: " ++ message ++ "\n"
  | message :: causes =>
    let texts := causes.mapIdx (causeText (1 < causes.length))
    "Error: " ++ message ++ "\n\nCaused by:\n" ++ "\n".intercalate texts ++ "\n"

def Failure.code : Failure → UInt32
  | .overflow _ => 101
  | _ => 1

structure Transcript where
  stdout : String := ""
  stderr : String := ""
deriving DecidableEq

abbrev Session := ExceptT Failure (StateM Transcript)

def printLine (text : String) : Session Unit :=
  modify fun transcript => { transcript with stdout := transcript.stdout ++ text ++ "\n" }

def report (text : String) : Session Unit :=
  modify fun transcript => { transcript with stderr := transcript.stderr ++ text }

def reportLine (text : String) : Session Unit := report (text ++ "\n")

/-! ## The log -/

inductive Level where
  | warning
  | info
  | debug
deriving DecidableEq

/-- The rank of a level; the lower, the more important. Errors have the rank one. -/
def Level.rank : Level → Nat
  | .warning => 2
  | .info => 3
  | .debug => 4

def Level.text : Level → String
  | .warning => "WARN "
  | .info => "INFO "
  | .debug => "DEBUG"

def Level.look : Level → Text.Look
  | .warning => .yellow
  | .info => .green
  | .debug => .blue

def World.logVariable : String := "RUST_LOG"

def World.logLookVariable : String := "RUST_LOG_STYLE"

/-- The pieces of a text between the places where a mark stands. -/
def pieces (mark : Char) (text : String) : List String := (divide text.toList).map String.ofList
where
  divide : List Char → List (List Char)
    | [] => [[]]
    | c :: rest => if c = mark then [] :: divide rest else (divide rest).modifyHead (c :: ·)

/-- The greatest rank that is logged of the parts whose names start with `scope`, or of all parts. -/
structure Directive where
  scope : Option String
  limit : Nat
deriving DecidableEq

namespace Directive

/-- The rank of a level in a directive, where there are more levels than the program logs at. -/
def rank? (name : String) : Option Nat :=
  [("off", 0), ("error", 1), ("warn", 2), ("info", 3), ("debug", 4), ("trace", 5)].lookup (name.map Char.toLower)

/-- A level alone is for all parts. Of a part that comes without a level everything is logged. -/
def ofText? (text : String) : Option Directive :=
  match pieces '=' text with
  | [name] =>
    match rank? name with
    | some limit => some ⟨none, limit⟩
    | none => some ⟨some name, 5⟩
  | [name, level] =>
    let level := Text.trim level
    if level.isEmpty then some ⟨some name, 5⟩ else (rank? level).map (⟨some name, ·⟩)
  | _ => none

/-- Takes one more directive, in the place of an earlier one for the same parts. -/
def put (directives : List Directive) (directive : Directive) : List Directive :=
  if directives.any (·.scope = directive.scope) then
    directives.map fun earlier => if earlier.scope = directive.scope then directive else earlier
  else directives ++ [directive]

/-- The directives in a text, which are divided by commas. Where there is more than one slash, there are none. -/
def listOf (text : String) : List Directive :=
  match pieces '/' text with
  | [directives] | [directives, _] =>
    let texts := ((pieces ',' directives).map Text.trim).filter (!·.isEmpty)
    (texts.filterMap ofText?).foldl put []
  | _ => []

def covers (directive : Directive) (part : String) : Bool :=
  directive.scope.all fun scope => scope.toList.isPrefixOf part.toList

def width (directive : Directive) : Nat := (directive.scope.getD "").length

/-- The directive that counts for a part: the longest that covers it, and the last of these. -/
def closest? (part : String) : List Directive → Option Directive
  | [] => none
  | directive :: rest =>
    let other := closest? part rest
    if directive.covers part && other.all (·.width < directive.width) then some directive else other

end Directive

def World.logLimit (world : World) (part : String) : Nat :=
  match ((world.variableText? World.logVariable).map Directive.listOf).getD [] with
  | [] => 1
  | directives => ((Directive.closest? part directives).map Directive.limit).getD 0

def World.logHasLooks (world : World) : Bool :=
  match world.variableText? World.logLookVariable with
  | some "always" => true
  | some "never" => false
  | _ => world.keepsLooks

/-- An entry of the log: its level, the part of the program that it is about, and its message. -/
def World.logEntry (world : World) (level : Level) (part message : String) : String :=
  let entry (bracket name closing : String) : String :=
    bracket ++ name ++ " " ++ part ++ closing ++ " " ++ hanging (spaces 4) message ++ "\n"
  if world.logHasLooks then
    entry (Text.Look.grey.apply "[") (level.look.apply level.text) (Text.Look.grey.apply "]")
  else Text.plain (entry "[" level.text "]")

def World.log (world : World) (level : Level) (part message : String) : Session Unit :=
  if level.rank ≤ world.logLimit part then report (world.logEntry level part message) else pure ()

end ShellTree.CommandLine
