import ShellTree.Decode.Fault
import ShellTree.Toml.Bounds
import ShellTree.Tree

/-!
# Shapes of values

The parts that records are decoded from: texts, numbers, truth values, choices, and the fields of a
record that holds no tree.

A record is spelled by a table of its fields or by an array of them. Inside a command, and in all
that a command holds, an array must not have more elements than its record has fields, and a choice
is read more strictly; `Place` tells the two apart.

A table that spells a record may have any other keys; their values are passed over, but a number in
them must still be one and fit 128 bits. Inside a command, it must fit 64 bits. The first fault is the
one of the first faulty field in the order of the keys; that a field is missing shows only after all
that are there.
-/

namespace ShellTree.Decode

open Toml (Value Members)

inductive Place where
  | outside
  | insideCommand
deriving DecidableEq

/-- What a value decodes to, or the first fault. -/
abbrev Decoded (α : Type) := Except Fault α

def text : Value → Decoded String
  | .string text => .ok text
  | found => .error (.wrongType found .text)

def truth : Value → Decoded Bool
  | .boolean truth => .ok truth
  | found => .error (.wrongType found .truth)

def natural : Value → Decoded UInt32
  | .integer number =>
    if 0 ≤ number ∧ number < UInt32.size then .ok (UInt32.ofNat number.toNat)
    else .error (.outOfRange number)
  | found => .error (.wrongType found .natural)

/-- Items of an array, each decoded by itself, up to the first fault. -/
def items {α : Type} (item : Value → Decoded α) : List Value → Decoded (List α)
  | [] => .ok []
  | value :: rest => do return (← item value) :: (← items item rest)

def sequence {α : Type} (item : Value → Decoded α) : Value → Decoded (List α)
  | .array elements => items item elements
  | found => .error (.wrongType found .sequence)

def optional {α : Type} (fallback : α) (decode : Value → Decoded α) : Option Value → Decoded α
  | some value => decode value
  | none => .ok fallback

def required {α : Type} (name : String) : Option α → Decoded α
  | some value => .ok value
  | none => .error (.missingField name)

/-- Refuses elements that are left when an array has filled the fields of its record. -/
def Place.noneLeft (place : Place) (fields : Nat) (left : List Value) : Decoded Unit :=
  if place = .insideCommand ∧ left ≠ [] then .error (.tooLong (fields + left.length) fields)
  else .ok ()

/-- Refuses a value with a number that is illegible or out of bounds. -/
def numbersWithin (bounds : Toml.Bounds) (value : Value) : Decoded Unit :=
  if bounds.allow value then .ok () else .error .unusableNumber

/-- Passes over the members of a table that are no fields of the record that it spells. -/
def Record.passOver (record : Record) (members : Members) : Decoded Unit :=
  numbersWithin .doubleWord (.table (members.filter fun (key, _) => key ∉ record.fields))

def choiceOf {α : Type} (choices : List (String × α)) (name : String) : Decoded α :=
  match choices.lookup name with
  | some choice => .ok choice
  | none => .error (.unknownChoice name (choices.map (·.1)))

/-- Refuses anything inside the table of a choice. -/
def Place.nothingInside (place : Place) (inside : Value) : Decoded Unit :=
  match place, inside with
  | _, .table [] => .ok ()
  | .insideCommand, found => .error (.wrongType found .nothing)
  | .outside, .table _ => .error .filledTable
  | .outside, .array [] => .ok ()
  | .outside, .array _ => .error .filledArray
  | .outside, found => .error (.choiceValue found)

/-- One of several choices, by its name or by a table with that name as its only key. -/
def choice {α : Type} (place : Place) (choices : List (String × α)) (value : Value) : Decoded α :=
  match place, value with
  | _, .string name => choiceOf choices name
  | _, .table [(name, inside)] => do
    let choice ← choiceOf choices name
    place.nothingInside inside
    return choice
  | .outside, .table [] => .error .emptyChoice
  | .outside, .table _ => .error .severalChoices
  | .outside, _ => .error .noChoice
  | .insideCommand, .table _ => .error .notOneChoice
  | .insideCommand, .dateTime _ => choiceOf choices Toml.dateTimeKey
  | .insideCommand, found => .error (.wrongType found .textOrTable)

/-! ## Parts of a command -/

/-- A word: its only fragment, or an array of its fragments. -/
def word : Value → Decoded Word
  | .string text => .ok (.literal text)
  | .array elements =>
    match items text elements with
    | .ok fragments => .ok ⟨fragments⟩
    | .error _ => .error .notWord
  | _ => .error .notWord

/-- An assignment: its name and, optionally, its value. -/
def assignment : Value → Decoded Assignment
  | .array [] => .error (.tooShort 0 .assignment)
  | .array [name] => do return { name := ← text name }
  | .array (name :: value :: left) => do
    let name ← text name
    let value ← word value
    Place.insideCommand.noneLeft 2 left
    return { name, value }
  | .table members => do
    let name ← (members.lookup "name").mapM text
    let value ← optional {} word (members.lookup "value")
    return { name := ← required "name" name, value }
  | .dateTime _ => .error (.missingField "name")
  | found => .error (.wrongType found (.record .assignment))

/-- A location: its file, line and column, each optional. -/
def location : Value → Decoded Location
  | .array [] => .ok {}
  | .array [file] => do return { file := some (← text file) }
  | .array [file, line] => do return { file := some (← text file), line := ← natural line }
  | .array (file :: line :: column :: left) => do
    let file ← text file
    let line ← natural line
    let column ← natural column
    Place.insideCommand.noneLeft 3 left
    return { file := some file, line, column }
  | .table members => do
    let column ← optional 1 natural (members.lookup "column")
    let file ← (members.lookup "file").mapM text
    let line ← optional 1 natural (members.lookup "line")
    return { file, line, column }
  | .dateTime _ => .ok {}
  | found => .error (.wrongType found (.record .location))

def simpleOfMembers (members : Members) : Decoded Command := do
  let assignments ← optional [] (sequence assignment) (members.lookup "assignments")
  let location ← optional {} location (members.lookup "location")
  let words ← optional [] (sequence word) (members.lookup "words")
  return .simple assignments words location

/-- A simple command that is spelled by an array, without its kind. -/
def simpleOfElements : List Value → Decoded Command
  | [] => .ok (.simple [] [] {})
  | [assignments] => do return .simple (← sequence assignment assignments) [] {}
  | [assignments, words] => do
    return .simple (← sequence assignment assignments) (← sequence word words) {}
  | assignments :: words :: place :: left => do
    let assignments ← sequence assignment assignments
    let words ← sequence word words
    let place ← location place
    Place.insideCommand.noneLeft 3 left
    return .simple assignments words place

end ShellTree.Decode
