import ShellTree.Tree

/-!
# Bare trees

A bare tree has no locations, and no word in it is divided into fragments. Baring a tree keeps all
that its text and its issues depend on: the shape, the text of each word, and whether a word of a
command has any fragments. The value of an assignment is kept as its text alone, because an
assignment needs no value.
-/

namespace ShellTree

/-- A word as a single fragment; a word without fragments stays one. -/
def Word.bare (word : Word) : Word :=
  if word.fragments.isEmpty then word else .literal word.text

@[simp] theorem Word.text_bare (word : Word) : word.bare.text = word.text := by
  unfold bare
  split <;> simp [literal, text]

@[simp] theorem Word.fragments_bare_eq_nil {word : Word} :
    word.bare.fragments = [] ↔ word.fragments = [] := by
  unfold bare
  split <;> simp_all [literal]

/-- An assignment with its value as a single fragment. -/
def Assignment.bare (assignment : Assignment) : Assignment :=
  { assignment with value := .literal assignment.value.text }

mutual

/-- A command without its location, and the same of all that is in it. -/
def Command.bare : Command → Command
  | .simple assignments words _ =>
    .simple (assignments.map Assignment.bare) (words.map Word.bare) {}
  | .group body _ => .group (AndOr.bareList body) {}
  | .subshell body _ => .subshell (AndOr.bareList body) {}

def Pipeline.bare : Pipeline → Pipeline
  | .mk negated commands => .mk negated (Command.bareList commands)

def Command.bareList : List Command → List Command
  | [] => []
  | command :: rest => command.bare :: Command.bareList rest

def Link.bare : Link → Link
  | .mk connective pipeline => .mk connective pipeline.bare

def Link.bareList : List Link → List Link
  | [] => []
  | link :: rest => link.bare :: Link.bareList rest

def AndOr.bare : AndOr → AndOr
  | .mk first links terminator => .mk first.bare (Link.bareList links) terminator

def AndOr.bareList : List AndOr → List AndOr
  | [] => []
  | list :: rest => list.bare :: AndOr.bareList rest

end

def Script.bare (script : Script) : Script := AndOr.bareList script

end ShellTree
