import ShellTree.Decode.Spelling
import ShellTree.Part

/-!
# Spoiled spellings

What becomes of a spelling when one thing in it goes wrong: a key that is needed is taken away, a choice gets a
name that it does not have, a number stands for a word or for a fragment of one, or a line or a column is out of
range. `Spoiled` follows the tree down to the place of the fault, through tables and the arrays of their parts;
all else in the spelling stays as it was.
-/

namespace ShellTree

open Toml (Value Members)

/-- A table with another value under a key, or without the key if there is no other value. -/
def Toml.Members.alter (key : String) (value : Option Value) : Members → Members
  | [] => []
  | (other, old) :: rest =>
    if other = key then (value.map (key, ·)).toList ++ alter key value rest
    else (other, old) :: alter key value rest

namespace Part

/-- A part that stands alone under a key, in a table that spells the node above it. -/
inductive Field : Part → String → Part → Prop where
  | first (list : AndOr) : Field (.andOr list) "pipeline" (.pipeline list.first)
  | guarded (link : Link) : Field (.link link) "pipeline" (.pipeline link.pipeline)
  | groupBody (body : Script) (location : Location) :
    Field (.command (.group body location)) "body" (.body body location)
  | subshellBody (body : Script) (location : Location) :
    Field (.command (.subshell body location)) "body" (.body body location)

/-- A part that is one of several in the array under a key, in a table that spells the node above it. -/
inductive Item : Part → String → Nat → Part → Prop where
  | list {lists : Script} (index : Nat) {list : AndOr} (found : lists[index]? = some list) :
    Item (.script lists) "lists" index (.andOr list)
  | bodyList {lists : Script} {holder : Location} (index : Nat) {list : AndOr} (found : lists[index]? = some list) :
    Item (.body lists holder) "lists" index (.andOr list)
  | link {list : AndOr} (index : Nat) {link : Link} (found : list.links[index]? = some link) :
    Item (.andOr list) "rest" index (.link link)
  | command {pipeline : Pipeline} (index : Nat) {command : Command}
    (found : pipeline.commands[index]? = some command) :
    Item (.pipeline pipeline) "commands" index (.command command)
  | assignment {assignments : List Assignment} {words : List Word} {location : Location} (index : Nat)
    {assignment : Assignment} (found : assignments[index]? = some assignment) :
    Item (.command (.simple assignments words location)) "assignments" index (.assignment assignment location)
  | word {assignments : List Assignment} {words : List Word} {location : Location} (index : Nat) {word : Word}
    (found : words[index]? = some word) :
    Item (.command (.simple assignments words location)) "words" index (.word word location)

/-- The keys that a node cannot be without. -/
def neededKeys : Part → List String
  | .andOr _ => ["pipeline"]
  | .link _ => ["condition"]
  | .command _ => ["kind"]
  | .assignment .. => ["name"]
  | _ => []

/-- The keys of a node that choices stand under, with their names. -/
def choices : Part → List (String × List String)
  | .andOr _ => [("synchronicity", ["sequential", "asynchronous"])]
  | .link _ => [("condition", ["and-then", "or-else"])]
  | .pipeline _ => [("exit_status", ["straight", "negated"])]
  | .command _ => [("kind", ["simple", "grouping", "subshell"])]
  | _ => []

end Part

/-- A word, or a fragment in the array that spells it, gives way to a number. -/
inductive WordSpoiled : Value → Value → Prop where
  | word (value : Value) (number : Int) : WordSpoiled value (.integer number)
  | fragment (before : List Value) (fragment : Value) (after : List Value) (number : Int) :
    WordSpoiled (.array (before ++ fragment :: after)) (.array (before ++ .integer number :: after))

/-- The line or the column of a location gives way to a number that is out of range. -/
inductive LocationSpoiled : Value → Value → Prop where
  | outOfRange {members : Members} {key : String} {value : Value} {number : Int}
    (counts : key = "line" ∨ key = "column") (present : members.lookup key = some value)
    (outside : number < 0 ∨ UInt32.size ≤ number) :
    LocationSpoiled (.table members) (.table (members.alter key (some (.integer number))))

/-- A value that spells a part, and what becomes of it when one thing goes wrong in it. -/
inductive Spoiled : Part → Value → Value → Prop where
  | missing {part : Part} {members : Members} {key : String} (needed : key ∈ part.neededKeys) :
    Spoiled part (.table members) (.table (members.alter key none))
  | unknown {part : Part} {members : Members} {key name : String} {names : List String} {value : Value}
    (choice : (key, names) ∈ part.choices) (present : members.lookup key = some value) (other : name ∉ names) :
    Spoiled part (.table members) (.table (members.alter key (some (.string name))))
  | word {word : Word} {holder : Location} {value value' : Value} (spoiled : WordSpoiled value value') :
    Spoiled (.word word holder) value value'
  | value {assignment : Assignment} {holder : Location} {members : Members} {value value' : Value}
    (present : members.lookup "value" = some value) (spoiled : WordSpoiled value value') :
    Spoiled (.assignment assignment holder) (.table members) (.table (members.alter "value" (some value')))
  | location {command : Command} {members : Members} {value value' : Value}
    (present : members.lookup "location" = some value) (spoiled : LocationSpoiled value value') :
    Spoiled (.command command) (.table members) (.table (members.alter "location" (some value')))
  /-- Something goes wrong in a part that stands alone under its key. -/
  | field {part child : Part} {key : String} {members : Members} {value value' : Value}
    (inside : part.Field key child) (present : members.lookup key = some value)
    (spoiled : Spoiled child value value') :
    Spoiled part (.table members) (.table (members.alter key (some value')))
  /-- Something goes wrong in one part among several. -/
  | item {part child : Part} {key : String} {index : Nat} {members : Members} {elements : List Value}
    {value value' : Value} (inside : part.Item key index child)
    (present : members.lookup key = some (.array elements)) (found : elements[index]? = some value)
    (spoiled : Spoiled child value value') :
    Spoiled part (.table members) (.table (members.alter key (some (.array (elements.set index value')))))

def Script.Spoiled (script : Script) (members members' : Members) : Prop :=
  ShellTree.Spoiled (.script script) (.table members) (.table members')

/-! ## Tables that were altered -/

namespace Toml.Members

variable {members : Members} {key : String}

theorem lookup_alter_self (value : Option Value) :
    (alter key value members).lookup key = (members.lookup key).bind fun _ => value := by
  induction members with
  | nil => rfl
  | cons member rest ih =>
    obtain ⟨other, old⟩ := member
    by_cases same : other = key
    · cases value with
      | none => simpa [alter, same] using ih
      | some value => simp [alter, same]
    · have apart : (key == other) = false := beq_false_of_ne (Ne.symm same)
      simp [alter, List.lookup_cons, same, apart, ih]

theorem lookup_alter_of_ne {other : String} (value : Option Value) (apart : other ≠ key) :
    (alter key value members).lookup other = members.lookup other := by
  induction members with
  | nil => rfl
  | cons member rest ih =>
    obtain ⟨here, old⟩ := member
    by_cases same : here = key
    · have elsewhere : (other == key) = false := beq_false_of_ne apart
      cases value <;> simp [alter, List.lookup_cons, same, elsewhere, ih]
    · simp [alter, List.lookup_cons, same, ih]

end Toml.Members

end ShellTree
