import ShellTree.Layout.Flat
import ShellTree.Sink.Basic

/-!
# The layout on several lines

The text of a tree on several lines, said without a sink. Links and groups break the line. The level
that links break to is handed down from the nodes above. A group lines up with the line that it is
opened on, so the level of that line is handed on from left to right: each node is laid out from the
level of the line it starts on, and its layout tells the level of the line it ends on.
-/

namespace ShellTree

/-- A text, and the level of the line that it ends on. -/
structure Laid where
  text : String
  line : Nat
deriving DecidableEq

namespace Laid

/-- A text without a line break, on a line of the given level. -/
def inline (text : String) (line : Nat) : Laid := ⟨text, line⟩

/-- A line break, and the indentation of the line behind it. -/
def newline (level : Nat) : Laid := ⟨"\n" ++ spaces (indentWidth * level), level⟩

/-- Goes on from the line that a text ends on. -/
def andThen (laid : Laid) (next : Nat → Laid) : Laid :=
  let rest := next laid.line
  ⟨laid.text ++ rest.text, rest.line⟩

/-- Puts a text without a line break behind. -/
def close (laid : Laid) (text : String) : Laid := ⟨laid.text ++ text, laid.line⟩

@[simp] theorem inline_andThen (text : String) (line : Nat) (next : Nat → Laid) :
    (inline text line).andThen next = ⟨text ++ (next line).text, (next line).line⟩ := rfl

end Laid

mutual

/-- A command on a line of level `line`, inside nodes of level `level`. -/
def Command.broken (level : Nat) : Command → (line : Nat) → Laid
  | .simple assignments words _, line => .inline (simpleText assignments words) line
  | .group body _, line =>
    (((Laid.inline "\x7b" line).andThen fun _ => .newline (line + 1)).andThen fun inner =>
      AndOr.brokenList (line + 1) body inner).andThen fun _ => (Laid.newline line).close "\x7d"
  | .subshell body _, line =>
    ((Laid.inline "(" line).andThen fun line => AndOr.brokenList level body line).close ")"

def Pipeline.broken (level : Nat) : Pipeline → (line : Nat) → Laid
  | .mk negated commands, line =>
    (Laid.inline (negationText negated) line).andThen fun line =>
      Command.brokenPiped level commands line

def Command.brokenPiped (level : Nat) : List Command → (line : Nat) → Laid
  | [], line => .inline "" line
  | command :: rest, line =>
    (command.broken level line).andThen fun line => Command.brokenTail level rest line

def Command.brokenTail (level : Nat) : List Command → (line : Nat) → Laid
  | [], line => .inline "" line
  | command :: rest, line =>
    ((Laid.inline " | " line).andThen fun line => command.broken level line).andThen fun line =>
      Command.brokenTail level rest line

/-- A link behind what it depends on: the operator ends the line, and the pipeline follows at
`level`, with what breaks inside it one level deeper. -/
def Link.broken (level : Nat) : Link → (line : Nat) → Laid
  | .mk connective pipeline, line =>
    ((Laid.inline (" " ++ connective.operator) line).andThen fun _ => .newline level).andThen
      fun line => pipeline.broken (level + 1) line

def Link.brokenList (level : Nat) : List Link → (line : Nat) → Laid
  | [], line => .inline "" line
  | link :: rest, line =>
    (link.broken level line).andThen fun line => Link.brokenList level rest line

/-- A list, without its terminator. -/
def AndOr.broken (level : Nat) : AndOr → (line : Nat) → Laid
  | .mk first links _, line =>
    (first.broken level line).andThen fun line => Link.brokenList level links line

/-- Lists, of which the last is ended as at the end of a script: where lines are real, a line break
stands in for the `;` of the last list of a group. -/
def AndOr.brokenList (level : Nat) : List AndOr → (line : Nat) → Laid
  | [], line => .inline "" line
  | [list], line => (list.broken level line).close list.terminator.endMark
  | list :: next :: rest, line =>
    ((list.broken level line).close (list.terminator.mark ++ " ")).andThen fun line =>
      AndOr.brokenList level (next :: rest) line

end

/-- A script on several lines, from the first level on. -/
def Script.broken (script : Script) : String := (AndOr.brokenList 0 script 0).text

end ShellTree
