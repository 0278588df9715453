import ShellTree.Decode.Shape

/-!
# Trees from values

The decoding of a script from the members of a table. The functions follow the value: those named
`…In` look for one field among the members of a table, and those named `…Items` decode the elements
of an array.

All of a record but `pipeline`, `condition`, `kind` and `name` may be missing, and then has its
default: no items, no pipeline's commands, a straight exit status, sequential, line and column one.
-/

namespace ShellTree.Decode

open Toml (Value Members)

/-- The exit status of a pipeline, as whether it is negated. -/
def exitStatus (place : Place) : Value → Decoded Bool :=
  choice place [("straight", false), ("negated", true)]

def connective (place : Place) : Value → Decoded Connective :=
  choice place [("and-then", .andThen), ("or-else", .orElse)]

def terminator (place : Place) : Value → Decoded Terminator :=
  choice place [("sequential", .sequential), ("asynchronous", .asynchronous)]

inductive CommandKind where
  | simple
  | group
  | subshell
deriving DecidableEq

/-- The kind of a command, which only its name spells. -/
def commandKind : Value → Decoded CommandKind
  | .string name =>
    choiceOf [("simple", .simple), ("grouping", .group), ("subshell", .subshell)] name
  | found => .error (.wrongType found .kind)

def enclosing (subshell : Bool) (body : Script) (location : Location) : Command :=
  if subshell then .subshell body location else .group body location

mutual

def script (place : Place) : Value → Decoded Script
  | .array [] => .ok []
  | .array (lists :: left) => do
    let lists ← andOrs place lists
    place.noneLeft 1 left
    return lists
  | .table members => do
    Record.script.passOver members
    listsIn place members
  | .dateTime _ => .ok []
  | found => .error (.wrongType found (.record .script))

def listsIn (place : Place) : List (String × Value) → Decoded Script
  | [] => .ok []
  | (key, value) :: rest => if key = "lists" then andOrs place value else listsIn place rest

def andOrs (place : Place) : Value → Decoded (List AndOr)
  | .array elements => andOrItems place elements
  | found => .error (.wrongType found .sequence)

def andOrItems (place : Place) : List Value → Decoded (List AndOr)
  | [] => .ok []
  | value :: rest => do return (← andOr place value) :: (← andOrItems place rest)

/-- A list: its first pipeline, its links and its terminator. -/
def andOr (place : Place) : Value → Decoded AndOr
  | .array [] => .error (.tooShort 0 .andOr)
  | .array [first] => do return .mk (← pipeline place first) [] .sequential
  | .array [first, rest] => do
    return .mk (← pipeline place first) (← links place rest) .sequential
  | .array (first :: rest :: ending :: left) => do
    let first ← pipeline place first
    let rest ← links place rest
    let ending ← terminator place ending
    place.noneLeft 3 left
    return .mk first rest ending
  | .table members => do
    Record.andOr.passOver members
    let first ← pipelineIn place members
    let rest ← linksIn place members
    let ending ← optional .sequential (terminator place) (members.lookup "synchronicity")
    return .mk (← required "pipeline" first) rest ending
  | .dateTime _ => .error (.missingField "pipeline")
  | found => .error (.wrongType found (.record .andOr))

/-- A pipeline: its commands and its exit status. -/
def pipeline (place : Place) : Value → Decoded Pipeline
  | .array [] => .ok .empty
  | .array [members] => do return .mk false (← commands members)
  | .array (members :: status :: left) => do
    let members ← commands members
    let negated ← exitStatus place status
    place.noneLeft 2 left
    return .mk negated members
  | .table members => do
    Record.pipeline.passOver members
    let commands ← commandsIn members
    let negated ← optional false (exitStatus place) (members.lookup "exit_status")
    return .mk negated commands
  | .dateTime _ => .ok .empty
  | found => .error (.wrongType found (.record .pipeline))

def pipelineIn (place : Place) : List (String × Value) → Decoded (Option Pipeline)
  | [] => .ok none
  | (key, value) :: rest => do
    if key = "pipeline" then return some (← pipeline place value) else pipelineIn place rest

def links (place : Place) : Value → Decoded (List Link)
  | .array elements => linkItems place elements
  | found => .error (.wrongType found .sequence)

def linkItems (place : Place) : List Value → Decoded (List Link)
  | [] => .ok []
  | value :: rest => do return (← link place value) :: (← linkItems place rest)

def linksIn (place : Place) : List (String × Value) → Decoded (List Link)
  | [] => .ok []
  | (key, value) :: rest => if key = "rest" then links place value else linksIn place rest

/-- A link: its connective and, optionally, its pipeline. -/
def link (place : Place) : Value → Decoded Link
  | .array [] => .error (.tooShort 0 .link)
  | .array [operator] => do return .mk (← connective place operator) .empty
  | .array (operator :: guarded :: left) => do
    let operator ← connective place operator
    let guarded ← pipeline place guarded
    place.noneLeft 2 left
    return .mk operator guarded
  | .table members => do
    Record.link.passOver members
    let operator ← (members.lookup "condition").mapM (connective place)
    let guarded ← pipelineIn place members
    return .mk (← required "condition" operator) (guarded.getD .empty)
  | .dateTime _ => .error (.missingField "condition")
  | found => .error (.wrongType found (.record .link))

def commands : Value → Decoded (List Command)
  | .array elements => commandItems elements
  | found => .error (.wrongType found .sequence)

/-- Commands, up to the first fault. All numbers inside a command are looked at, whatever they are
for. -/
def commandItems : List Value → Decoded (List Command)
  | [] => .ok []
  | value :: rest => do
    numbersWithin .word value
    return (← command value) :: (← commandItems rest)

def commandsIn : List (String × Value) → Decoded (List Command)
  | [] => .ok []
  | (key, value) :: rest => if key = "commands" then commands value else commandsIn rest

/-- A command: its kind, then the fields that a command of that kind has. -/
def command : Value → Decoded Command
  | .array [] => .error (.missingField "kind")
  | .array (kind :: fields) => do
    match ← commandKind kind with
    | .simple => simpleOfElements fields
    | .group => enclosingOfElements false fields
    | .subshell => enclosingOfElements true fields
  | .table members => do
    let kind ← (members.lookup "kind").mapM commandKind
    match ← required "kind" kind with
    | .simple => simpleOfMembers members
    | .group => do
      let body ← bodyIn members
      return .group body (← optional {} location (members.lookup "location"))
    | .subshell => do
      let body ← bodyIn members
      return .subshell body (← optional {} location (members.lookup "location"))
  | .dateTime _ => .error (.missingField "kind")
  | found => .error (.wrongType found .command)

/-- A group or a subshell that is spelled by an array, without its kind. -/
def enclosingOfElements (subshell : Bool) : List Value → Decoded Command
  | [] => .ok (enclosing subshell [] {})
  | [body] => do return enclosing subshell (← script .insideCommand body) {}
  | body :: place :: left => do
    let body ← script .insideCommand body
    let place ← location place
    Place.insideCommand.noneLeft 2 left
    return enclosing subshell body place

/-- The body among the members of a table that spells a group or a subshell. -/
def bodyIn : List (String × Value) → Decoded Script
  | [] => .ok []
  | (key, value) :: rest => if key = "body" then script .insideCommand value else bodyIn rest

end

def document (members : Members) : Decoded Script := script .outside (.table members)

end ShellTree.Decode
