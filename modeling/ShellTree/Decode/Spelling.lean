import Mathlib.Data.List.Forall2
import ShellTree.Toml.Value
import ShellTree.Tree

/-!
# Spellings of a tree

One tree has many spellings as a value. Each record in it is a table or an array on its own, fields
with defaults may be left out, a word in one piece may be a text, and tables may have keys that mean
nothing. `SpelledBy` says of each kind of node which values spell it, without saying how they are read.
-/

namespace ShellTree

open Toml (Value)

/-! ## Records and arrays -/

/-- A field of a record: its key, the values that spell what it holds, and whether it holds its default,
so that it may be left out. -/
structure Slot where
  key : String
  spelledBy : Value → Prop
  omittable : Prop

/-- A field is spelled by the value under its key, or by nothing. -/
def Slot.SpelledIn (slot : Slot) : Option Value → Prop
  | some value => slot.spelledBy value
  | none => slot.omittable

/-- Fields are spelled in their order by values in a row, of which the last ones may be left out. -/
def Slot.SpelledInOrder : List Slot → List Value → Prop
  | slots, [] => ∀ slot ∈ slots, slot.omittable
  | [], _ :: _ => False
  | slot :: slots, value :: values => slot.spelledBy value ∧ Slot.SpelledInOrder slots values

/-- A record is spelled by a table, which may have other keys, or by an array of its fields. -/
def recordSpelledBy (slots : List Slot) : Value → Prop
  | .table members => ∀ slot ∈ slots, slot.SpelledIn (members.lookup slot.key)
  | .array elements => Slot.SpelledInOrder slots elements
  | _ => False

def arraySpelledBy (items : List Value → Prop) : Value → Prop
  | .array elements => items elements
  | _ => False

/-- A choice is spelled by its name, or by a table with this name as its only key and nothing inside. -/
def choiceSpelledBy (name : String) (value : Value) : Prop :=
  value = .string name ∨ value = .table [(name, .table [])]

/-! ## Parts of a command -/

/-- A word is spelled by an array of its fragments, and by its only fragment if there is just one. -/
def Word.SpelledBy (word : Word) (value : Value) : Prop :=
  value = .array (word.fragments.map .string) ∨ ∃ text, word.fragments = [text] ∧ value = .string text

def Assignment.SpelledBy (assignment : Assignment) : Value → Prop :=
  recordSpelledBy [
    ⟨"name", (· = .string assignment.name), False⟩,
    ⟨"value", assignment.value.SpelledBy, assignment.value = {}⟩]

/-- No value spells an absent file, so it is left out of a table, and no array can go past it. -/
def Location.SpelledBy (location : Location) : Value → Prop :=
  recordSpelledBy [
    ⟨"file", fun value => ∃ file, location.file = some file ∧ value = .string file, location.file = none⟩,
    ⟨"line", (· = .integer location.line.toNat), location.line = 1⟩,
    ⟨"column", (· = .integer location.column.toNat), location.column = 1⟩]

/-- The kind of a command is a field like the others, and never left out. -/
def kindSlot (name : String) : Slot := ⟨"kind", (· = .string name), False⟩

def locationSlot (location : Location) : Slot := ⟨"location", location.SpelledBy, location = {}⟩

@[simp] theorem kindSlot_key (name : String) : (kindSlot name).key = "kind" := rfl

@[simp] theorem locationSlot_key (location : Location) : (locationSlot location).key = "location" := rfl

def exitStatusName (negated : Bool) : String := if negated then "negated" else "straight"

def Connective.choiceName : Connective → String
  | .andThen => "and-then"
  | .orElse => "or-else"

def Terminator.choiceName : Terminator → String
  | .sequential => "sequential"
  | .asynchronous => "asynchronous"

/-! ## Trees -/

/-- A script is a record of its lists, of which it may have none. -/
def scriptSpelledBy (lists : List Value → Prop) (empty : Prop) : Value → Prop :=
  recordSpelledBy [⟨"lists", arraySpelledBy lists, empty⟩]

mutual

/-- A command is a record of its kind and the fields of that kind. -/
def Command.SpelledBy : Command → Value → Prop
  | .simple assignments words location => recordSpelledBy [
      kindSlot "simple",
      ⟨"assignments", arraySpelledBy (List.Forall₂ Assignment.SpelledBy assignments), assignments = []⟩,
      ⟨"words", arraySpelledBy (List.Forall₂ Word.SpelledBy words), words = []⟩,
      locationSlot location]
  | .group body location => recordSpelledBy [
      kindSlot "grouping",
      ⟨"body", scriptSpelledBy (AndOr.SpelledItems body) (body = []), body = []⟩,
      locationSlot location]
  | .subshell body location => recordSpelledBy [
      kindSlot "subshell",
      ⟨"body", scriptSpelledBy (AndOr.SpelledItems body) (body = []), body = []⟩,
      locationSlot location]

def Pipeline.SpelledBy : Pipeline → Value → Prop
  | .mk negated commands => recordSpelledBy [
      ⟨"commands", arraySpelledBy (Command.SpelledItems commands), commands = []⟩,
      ⟨"exit_status", choiceSpelledBy (exitStatusName negated), negated = false⟩]

def Command.SpelledItems : List Command → List Value → Prop
  | [], values => values = []
  | command :: rest, values =>
    ∃ value others, values = value :: others ∧ command.SpelledBy value ∧ Command.SpelledItems rest others

/-- A link may be without its pipeline if that is the empty one. -/
def Link.SpelledBy : Link → Value → Prop
  | .mk connective pipeline => recordSpelledBy [
      ⟨"condition", choiceSpelledBy connective.choiceName, False⟩,
      ⟨"pipeline", pipeline.SpelledBy, pipeline = .empty⟩]

def Link.SpelledItems : List Link → List Value → Prop
  | [], values => values = []
  | link :: rest, values =>
    ∃ value others, values = value :: others ∧ link.SpelledBy value ∧ Link.SpelledItems rest others

def AndOr.SpelledBy : AndOr → Value → Prop
  | .mk first links terminator => recordSpelledBy [
      ⟨"pipeline", first.SpelledBy, False⟩,
      ⟨"rest", arraySpelledBy (Link.SpelledItems links), links = []⟩,
      ⟨"synchronicity", choiceSpelledBy terminator.choiceName, terminator = .sequential⟩]

def AndOr.SpelledItems : List AndOr → List Value → Prop
  | [], values => values = []
  | list :: rest, values =>
    ∃ value others, values = value :: others ∧ list.SpelledBy value ∧ AndOr.SpelledItems rest others

end

def Script.SpelledBy (script : Script) : Value → Prop := scriptSpelledBy (AndOr.SpelledItems script) (script = [])

end ShellTree
