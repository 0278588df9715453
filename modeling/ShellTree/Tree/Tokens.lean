import ShellTree.Tree

/-!
# The tokens of a tree

What a tree itself contributes to its source text, in the order of the text: operators, braces,
names and fragments. Whatever else the text holds is spaces, line breaks and `;`, which depend on
the layout; the tokens do not. A tree that lacks content has tokens as well.
-/

namespace ShellTree

/-- What stands between tokens. -/
def separators : List Char := [' ', '\n', ';']

/-- A text without the separators in it. -/
def stripped (text : String) : String := String.ofList (text.toList.filter fun c => !separators.contains c)

@[simp] theorem stripped_append (first second : String) :
    stripped (first ++ second) = stripped first ++ stripped second := by
  simp [stripped]

def Assignment.tokens (assignment : Assignment) : List String :=
  assignment.name :: "=" :: assignment.value.fragments

/-- The token that ends an asynchronous list; a sequential one has none. -/
def Terminator.tokens : Terminator → List String
  | .sequential => []
  | .asynchronous => ["&"]

mutual

def Command.tokens : Command → List String
  | .simple assignments words _ =>
    assignments.flatMap Assignment.tokens ++ words.flatMap Word.fragments
  | .group body _ => "\x7b" :: (AndOr.tokensOf body ++ ["\x7d"])
  | .subshell body _ => "(" :: (AndOr.tokensOf body ++ [")"])

def Pipeline.tokens : Pipeline → List String
  | .mk negated commands => (if negated then ["!"] else []) ++ Command.tokensPiped commands

/-- The tokens of commands with pipes between them. -/
def Command.tokensPiped : List Command → List String
  | [] => []
  | command :: rest => command.tokens ++ Command.tokensTail rest

/-- The tokens of commands with a pipe in front of each. -/
def Command.tokensTail : List Command → List String
  | [] => []
  | command :: rest => "|" :: (command.tokens ++ Command.tokensTail rest)

def Link.tokens : Link → List String
  | .mk connective pipeline => connective.operator :: pipeline.tokens

def Link.tokensOf : List Link → List String
  | [] => []
  | link :: rest => link.tokens ++ Link.tokensOf rest

def AndOr.tokens : AndOr → List String
  | .mk first links terminator => first.tokens ++ Link.tokensOf links ++ terminator.tokens

def AndOr.tokensOf : List AndOr → List String
  | [] => []
  | list :: rest => list.tokens ++ AndOr.tokensOf rest

end

def Script.tokens (script : Script) : List String := AndOr.tokensOf script

/-- A list that has no token of its own: there is nothing in it that could be written, so that at most
its terminator is. -/
def AndOr.Hollow (list : AndOr) : Prop := list.tokens = list.terminator.tokens

instance {list : AndOr} : Decidable list.Hollow := inferInstanceAs (Decidable (_ = _))

theorem AndOr.hollow_mk {first : Pipeline} {links : List Link} {terminator : Terminator} :
    (AndOr.mk first links terminator).Hollow ↔ first.tokens ++ Link.tokensOf links = [] := by
  rw [Hollow, AndOr.terminator, AndOr.tokens, List.append_left_eq_self]

end ShellTree
