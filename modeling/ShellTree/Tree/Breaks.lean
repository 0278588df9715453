import ShellTree.Render

/-!
# Line breaks of a tree

Links and groups are the nodes that break lines, and they are the only ones that raise the level of
indentation. So the number of them in a tree bounds how deep its text is indented.
-/

namespace ShellTree

mutual

/-- The number of links and groups in a command. -/
def Command.breaks : Command → Nat
  | .simple _ _ _ => 0
  | .group body _ => AndOr.breaksOf body + 1
  | .subshell body _ => AndOr.breaksOf body

def Pipeline.breaks : Pipeline → Nat
  | .mk _ commands => Command.breaksOf commands

def Command.breaksOf : List Command → Nat
  | [] => 0
  | command :: rest => command.breaks + Command.breaksOf rest

/-- The number of links and groups in a link, which counts itself. -/
def Link.breaks : Link → Nat
  | .mk _ pipeline => pipeline.breaks + 1

def Link.breaksOf : List Link → Nat
  | [] => 0
  | link :: rest => link.breaks + Link.breaksOf rest

def AndOr.breaks : AndOr → Nat
  | .mk first links _ => first.breaks + Link.breaksOf links

def AndOr.breaksOf : List AndOr → Nat
  | [] => 0
  | list :: rest => list.breaks + AndOr.breaksOf rest

end

def Script.breaks (script : Script) : Nat := AndOr.breaksOf script

def Node.breaks : Node → Nat
  | .fragment _ => 0
  | .word _ => 0
  | .assignment _ => 0
  | .command c => c.breaks
  | .pipeline p => p.breaks
  | .link l => l.breaks
  | .andOr l => l.breaks
  | .script s => Script.breaks s

end ShellTree
