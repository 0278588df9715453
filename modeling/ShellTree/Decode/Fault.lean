import ShellTree.Decimal.Shortest
import ShellTree.Text.Quoted
import ShellTree.Toml.Value

/-!
# Faults of a document

A document can be sound TOML and yet denote neither a tree nor settings. A fault says what is wrong
with the first value that does not fit; `Fault.message` words it.
-/

namespace ShellTree.Decode

open Toml (Value)

/-- A kind of record that a table or an array can spell: its name in messages, and its fields in
the order in which an array lists them. -/
structure Record where
  name : String
  fields : List String
deriving DecidableEq

namespace Record

def script : Record := ⟨"Sequence", ["lists"]⟩
def andOr : Record := ⟨"AndOrList", ["pipeline", "rest", "synchronicity"]⟩
def pipeline : Record := ⟨"Pipeline", ["commands", "exit_status"]⟩
def link : Record := ⟨"ConditionalPipeline", ["condition", "pipeline"]⟩
def assignment : Record := ⟨"Assignment", ["name", "value"]⟩
def location : Record := ⟨"SourceLocation", ["file", "line", "column"]⟩

end Record

inductive Expected where
  | record (record : Record)
  | command
  | kind
  | sequence
  | text
  | natural
  | truth
  | textOrTable
  | nothing

def Expected.wording : Expected → String
  | .record r => "struct " ++ r.name
  | .command => "internally tagged enum Command"
  | .kind => "variant identifier"
  | .sequence => "a sequence"
  | .text => "a string"
  | .natural => "u32"
  | .truth => "a boolean"
  | .textOrTable => "string or map"
  | .nothing => "unit"

inductive Fault where
  /-- A value of one kind where another was expected. -/
  | wrongType (found : Value) (expected : Expected)
  /-- A number outside the range of its field. -/
  | outOfRange (number : Int)
  /-- A value with a number that is illegible or takes too many bits, though nothing else is asked
  of it. -/
  | unusableNumber
  /-- A record without a field that it needs. -/
  | missingField (name : String)
  /-- An array too short for the fields that its record needs. -/
  | tooShort (length : Nat) (record : Record)
  /-- An array with more elements than its record has fields. -/
  | tooLong (length fields : Nat)
  /-- The name of a choice that there is not. -/
  | unknownChoice (name : String) (choices : List String)
  /-- A choice that is neither a text nor a table. -/
  | noChoice
  /-- A choice spelled by a table without a key. -/
  | emptyChoice
  /-- A choice spelled by a table with several keys. -/
  | severalChoices
  /-- A choice inside a command spelled by a table that has not just one key. -/
  | notOneChoice
  /-- A choice with something inside its table. -/
  | filledTable
  /-- A choice with something inside its array. -/
  | filledArray
  /-- A choice with a value that is neither a table nor an array. -/
  | choiceValue (found : Value)
  /-- A word that is neither a text nor an array of texts. -/
  | notWord

/-- The kind of a value, as a message about a value of the wrong type shows it. -/
def describe : Value → String
  | .string text => "string " ++ Text.quoted text
  | .integer number => "integer `" ++ number.repr ++ "`"
  | .float number => "floating point `" ++ number.positional ++ "`"
  | .illegible => "number"
  | .boolean true => "boolean `true`"
  | .boolean false => "boolean `false`"
  | .array _ => "sequence"
  | .table _ => "map"
  | .dateTime _ => "map"

def kindName : Value → String
  | .string _ => "string"
  | .integer _ => "integer"
  | .float _ => "float"
  | .illegible => "number"
  | .boolean _ => "boolean"
  | .dateTime _ => "datetime"
  | .array _ => "array"
  | .table _ => "table"

/-- The choices that there are: two with `or` between them, or more in a row. -/
def choicesText (choices : List String) : String :=
  let ticked := choices.map fun choice => "`" ++ choice ++ "`"
  match ticked with
  | [a, b] => a ++ " or " ++ b
  | ticked => "one of " ++ ", ".intercalate ticked

def Fault.message : Fault → String
  | .wrongType found expected => "invalid type: " ++ describe found ++ ", expected " ++ expected.wording
  | .outOfRange number => "invalid value: integer `" ++ number.repr ++ "`, expected u32"
  | .unusableNumber => "number too large or not a number"
  | .missingField name => "missing field `" ++ name ++ "`"
  | .tooShort length r =>
    "invalid length " ++ length.repr ++ ", expected struct " ++ r.name ++ " with " ++
      r.fields.length.repr ++ " elements"
  | .tooLong length fields =>
    "invalid length " ++ length.repr ++ ", expected " ++ fields.repr ++
      (if fields = 1 then " element" else " elements") ++ " in sequence"
  | .unknownChoice name choices =>
    "unknown variant `" ++ name ++ "`, expected " ++ choicesText choices
  | .noChoice => "wanted string or table"
  | .emptyChoice => "wanted exactly 1 element, found 0 elements"
  | .severalChoices => "wanted exactly 1 element, more than 1 element"
  | .notOneChoice => "invalid value: map, expected map with a single key"
  | .filledTable => "expected empty table"
  | .filledArray => "expected empty array"
  | .choiceValue found => "expected table, found " ++ kindName found
  | .notWord => "data did not match any variant of untagged enum WordRepr"

end ShellTree.Decode
