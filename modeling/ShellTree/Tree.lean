/-!
# Shell syntax trees

The tree of a script: lists of pipelines joined by `&&` and `||`, down to simple commands made of
assignments and words. Every shape that the types allow is a tree, also one that no shell would
accept, such as a pipeline without commands; `ShellTree.Issue` says which shapes lack content.

Equality of trees is decidable, and it counts the source locations.
-/

namespace ShellTree

/-- Where a command was written: a file if one is known, a line and a column. -/
structure Location where
  file : Option String := none
  line : UInt32 := 1
  column : UInt32 := 1
deriving DecidableEq

/-- A location reads `file:line:column`, or `line:column` when it has no file. -/
def Location.text (location : Location) : String :=
  let position := location.line.toNat.repr ++ ":" ++ location.column.toNat.repr
  match location.file with
  | some file => file ++ ":" ++ position
  | none => position

/-- A word is the concatenation of its fragments, with nothing in between. -/
structure Word where
  fragments : List String := []
deriving DecidableEq

/-- The word that consists of one fragment. -/
def Word.literal (text : String) : Word := ⟨[text]⟩

def Word.text (word : Word) : String := String.join word.fragments

/-- An assignment binds a name to a word, which may have no fragments at all. -/
structure Assignment where
  name : String
  value : Word := {}
deriving DecidableEq

/-- How a pipeline depends on the one before it. -/
inductive Connective where
  | andThen
  | orElse
deriving DecidableEq

/-- The operator that stands for a connective in source text. -/
def Connective.operator : Connective → String
  | .andThen => "&&"
  | .orElse => "||"

/-- Whether the shell waits for a list before it goes on. -/
inductive Terminator where
  | sequential
  | asynchronous
deriving DecidableEq

mutual

/-- A command is simple or encloses a whole script, in braces or in parentheses. -/
inductive Command where
  | simple (assignments : List Assignment) (words : List Word) (location : Location)
  | group (body : List AndOr) (location : Location)
  | subshell (body : List AndOr) (location : Location)

/-- Commands connected by pipes; `negated` inverts the exit status of the whole. -/
inductive Pipeline where
  | mk (negated : Bool) (commands : List Command)

/-- A pipeline that runs or not depending on the exit status of the one before it. -/
inductive Link where
  | mk (connective : Connective) (pipeline : Pipeline)

/-- A pipeline, the pipelines chained to it, and how the shell goes on after them. -/
inductive AndOr where
  | mk (first : Pipeline) (links : List Link) (terminator : Terminator)

end

/-- A script is its lists in the order in which they run. -/
abbrev Script := List AndOr

def Command.location : Command → Location
  | .simple _ _ location => location
  | .group _ location => location
  | .subshell _ location => location

def Pipeline.negated : Pipeline → Bool
  | .mk negated _ => negated

def Pipeline.commands : Pipeline → List Command
  | .mk _ commands => commands

/-- The pipeline that stands in where none is given: no commands, not negated. -/
def Pipeline.empty : Pipeline := .mk false []

def Link.connective : Link → Connective
  | .mk connective _ => connective

def Link.pipeline : Link → Pipeline
  | .mk _ pipeline => pipeline

def AndOr.first : AndOr → Pipeline
  | .mk first _ _ => first

def AndOr.links : AndOr → List Link
  | .mk _ links _ => links

def AndOr.terminator : AndOr → Terminator
  | .mk _ _ terminator => terminator

/-! ## Equality of trees -/

mutual

/-- Decides equality of commands by descending both trees at once. -/
def Command.decEq : (c d : Command) → Decidable (c = d)
  | .simple as ws l, .simple as' ws' l' =>
    decidable_of_decidable_of_iff (by simp : as = as' ∧ ws = ws' ∧ l = l' ↔ _)
  | .group b l, .group b' l' =>
    have := AndOr.decEqList b b'
    decidable_of_decidable_of_iff (by simp : b = b' ∧ l = l' ↔ _)
  | .subshell b l, .subshell b' l' =>
    have := AndOr.decEqList b b'
    decidable_of_decidable_of_iff (by simp : b = b' ∧ l = l' ↔ _)
  | .simple .., .group .. => .isFalse nofun
  | .simple .., .subshell .. => .isFalse nofun
  | .group .., .simple .. => .isFalse nofun
  | .group .., .subshell .. => .isFalse nofun
  | .subshell .., .simple .. => .isFalse nofun
  | .subshell .., .group .. => .isFalse nofun

def Command.decEqList : (cs ds : List Command) → Decidable (cs = ds)
  | [], [] => .isTrue rfl
  | [], _ :: _ => .isFalse nofun
  | _ :: _, [] => .isFalse nofun
  | c :: cs, d :: ds =>
    have := Command.decEq c d
    have := Command.decEqList cs ds
    decidable_of_decidable_of_iff (by simp : c = d ∧ cs = ds ↔ _)

def Pipeline.decEq : (p q : Pipeline) → Decidable (p = q)
  | .mk n cs, .mk n' cs' =>
    have := Command.decEqList cs cs'
    decidable_of_decidable_of_iff (by simp : n = n' ∧ cs = cs' ↔ _)

def Link.decEq : (x y : Link) → Decidable (x = y)
  | .mk k p, .mk k' p' =>
    have := Pipeline.decEq p p'
    decidable_of_decidable_of_iff (by simp : k = k' ∧ p = p' ↔ _)

def Link.decEqList : (xs ys : List Link) → Decidable (xs = ys)
  | [], [] => .isTrue rfl
  | [], _ :: _ => .isFalse nofun
  | _ :: _, [] => .isFalse nofun
  | x :: xs, y :: ys =>
    have := Link.decEq x y
    have := Link.decEqList xs ys
    decidable_of_decidable_of_iff (by simp : x = y ∧ xs = ys ↔ _)

def AndOr.decEq : (x y : AndOr) → Decidable (x = y)
  | .mk p ls t, .mk p' ls' t' =>
    have := Pipeline.decEq p p'
    have := Link.decEqList ls ls'
    decidable_of_decidable_of_iff (by simp : p = p' ∧ ls = ls' ∧ t = t' ↔ _)

def AndOr.decEqList : (xs ys : List AndOr) → Decidable (xs = ys)
  | [], [] => .isTrue rfl
  | [], _ :: _ => .isFalse nofun
  | _ :: _, [] => .isFalse nofun
  | x :: xs, y :: ys =>
    have := AndOr.decEq x y
    have := AndOr.decEqList xs ys
    decidable_of_decidable_of_iff (by simp : x = y ∧ xs = ys ↔ _)

end

instance : DecidableEq Command := Command.decEq
instance : DecidableEq Pipeline := Pipeline.decEq
instance : DecidableEq Link := Link.decEq
instance : DecidableEq AndOr := AndOr.decEq

end ShellTree
