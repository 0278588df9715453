import ShellTree.Tree

/-!
# The layout on one line

The text of a tree on a single line, said without a sink: every node has a text of its own, and the
texts of its parts are put together with fixed separators. Nothing waits for anything, so the only
thing to decide is whether the last list of a script is written with its `;`, as a group needs it,
or without, as everything else does.
-/

namespace ShellTree

/-- The text of an assignment, with nothing around the equals sign. -/
def Assignment.text (assignment : Assignment) : String :=
  assignment.name ++ "=" ++ assignment.value.text

/-- The texts of the parts of a simple command, with a space between any two. -/
def simpleText (assignments : List Assignment) (words : List Word) : String :=
  " ".intercalate (assignments.map Assignment.text ++ words.map Word.text)

/-- What stands in front of a pipeline. -/
def negationText (negated : Bool) : String := if negated then "! " else ""

/-- The mark of a terminator, which every list has that another one follows. -/
def Terminator.mark : Terminator → String
  | .sequential => ";"
  | .asynchronous => "&"

/-- The mark of a terminator at the end of a script: there `;` can be done without. -/
def Terminator.endMark : Terminator → String
  | .sequential => ""
  | .asynchronous => "&"

mutual

def Command.flat : Command → String
  | .simple assignments words _ => simpleText assignments words
  | .group body _ => "\x7b " ++ AndOr.flatList Terminator.mark body ++ " \x7d"
  | .subshell body _ => "(" ++ AndOr.flatList Terminator.endMark body ++ ")"

def Pipeline.flat : Pipeline → String
  | .mk negated commands => negationText negated ++ Command.flatPiped commands

def Command.flatPiped : List Command → String
  | [] => ""
  | command :: rest => command.flat ++ Command.flatTail rest

def Command.flatTail : List Command → String
  | [] => ""
  | command :: rest => " | " ++ command.flat ++ Command.flatTail rest

/-- A link on one line, behind what it depends on. -/
def Link.flat : Link → String
  | .mk connective pipeline => " " ++ connective.operator ++ " " ++ pipeline.flat

def Link.flatList : List Link → String
  | [] => ""
  | link :: rest => link.flat ++ Link.flatList rest

/-- A list on one line, without its terminator. -/
def AndOr.flat : AndOr → String
  | .mk first links _ => first.flat ++ Link.flatList links

/-- Lists on one line, of which the last is ended by `last`. -/
def AndOr.flatList (last : Terminator → String) : List AndOr → String
  | [] => ""
  | [list] => list.flat ++ last list.terminator
  | list :: next :: rest =>
    list.flat ++ list.terminator.mark ++ " " ++ AndOr.flatList last (next :: rest)

end

def Script.flat (script : Script) : String := AndOr.flatList Terminator.endMark script

theorem Command.toList_flat_group {body : List AndOr} {location : Location} :
    (Command.group body location).flat.toList =
      '\x7b' :: ' ' :: ((AndOr.flatList Terminator.mark body).toList ++ [' ', '\x7d']) := by
  simp [Command.flat]

theorem Command.toList_flat_subshell {body : List AndOr} {location : Location} :
    (Command.subshell body location).flat.toList =
      '(' :: ((AndOr.flatList Terminator.endMark body).toList ++ [')']) := by
  simp [Command.flat]

end ShellTree
