import ShellTree.Sink.Basic
import ShellTree.Tree

/-!
# Writing trees as source text

Each kind of node has one function that writes it to a sink. Separators are deferred throughout, so
that none is left at the end of the text: a word leaves a pending space, a list its pending
terminator. Links and groups break the line; a link indents by the level in force, a group by the
level of the line that it opens on, so that its braces line up.

Writing fails only when a level or an indentation leaves the 64-bit range. Source locations are
never written.
-/

namespace ShellTree

/-- Writes the fragments of a word one after the other. -/
def Word.render (word : Word) (sink : Sink) : Sink :=
  word.fragments.foldl Sink.append sink

/-- Writing a word is writing its text, except that a word without fragments leaves what is pending
where it is. -/
theorem Word.render_eq (word : Word) (sink : Sink) :
    word.render sink = if word.fragments = [] then sink else sink.append word.text := by
  obtain ⟨fragments⟩ := word
  have written (fragments : List String) (sink : Sink) (text : String) :
      fragments.foldl Sink.append (sink.append text) =
        sink.append (text ++ String.join fragments) := by
    induction fragments generalizing text with
    | nil => simp
    | cons fragment rest ih => simp [ih, String.append_assoc]
  cases fragments with
  | nil => rfl
  | cons fragment rest => simp [render, text, written]

def Assignment.render (assignment : Assignment) (sink : Sink) : Sink :=
  assignment.value.render ((sink.append assignment.name).append "=")

/-- Writes items one after the other, each followed by a pending space. -/
def renderSpaced {α : Type} (render : α → Sink → Sink) (items : List α) (sink : Sink) : Sink :=
  items.foldl (fun sink item => (render item sink).defer " ") sink

/-- Ends a list: the space after its last word is given up, `;` waits for something to follow,
and `&` is written at once. -/
def Terminator.render (terminator : Terminator) (sink : Sink) : Sink :=
  let ended := match terminator with
    | .sequential => sink.dropPending.defer ";"
    | .asynchronous => sink.dropPending.append "&"
  ended.defer " "

/-- Writes braces around `body`, on lines of their own where lines are real. On a single line the
terminator that `body` leaves pending is needed in front of the closing brace. -/
def renderGroup (body : Sink → Except Overflow Sink) (sink : Sink) : Except Overflow Sink := do
  let base := sink.lineLevel
  let inside ← (sink.append "\x7b").breakLine.indentedTo (← raiseLevel base 1) fun sink => do
    body (← sink.printIndent)
  let closing ← match sink.mode with
    | .single => pure inside.commitPending
    | .multi => inside.breakLine.indentedTo base Sink.printIndent
  return (closing.append "\x7d").defer " "

/-- Writes parentheses around `body`, which stays on the line. -/
def renderSubshell (body : Sink → Except Overflow Sink) (sink : Sink) : Except Overflow Sink := do
  let inside ← body (sink.append "(")
  return (inside.dropPending.append ")").defer " "

/-- Writes an operator, breaks the line, and writes the pipeline one level deeper. -/
def renderLink (connective : Connective) (pipeline : Sink → Except Overflow Sink) (sink : Sink) :
    Except Overflow Sink := do
  let opened ← (sink.append connective.operator).breakLine.printIndent
  opened.indentedBy 1 pipeline

mutual

def Command.render : Command → Sink → Except Overflow Sink
  | .simple assignments words _, sink =>
    .ok (renderSpaced Word.render words (renderSpaced Assignment.render assignments sink))
  | .group body _, sink => renderGroup (fun sink => AndOr.renderList body sink) sink
  | .subshell body _, sink => renderSubshell (fun sink => AndOr.renderList body sink) sink

/-- Writes `! ` in front of a negated pipeline, then the commands. -/
def Pipeline.render : Pipeline → Sink → Except Overflow Sink
  | .mk negated commands, sink =>
    Command.renderPiped commands (if negated then sink.append "! " else sink)

/-- Writes commands with `| ` between them. -/
def Command.renderPiped : List Command → Sink → Except Overflow Sink
  | [], sink => .ok sink
  | command :: rest, sink => do Command.renderTail rest (← command.render sink)

def Command.renderTail : List Command → Sink → Except Overflow Sink
  | [], sink => .ok sink
  | command :: rest, sink => do Command.renderTail rest (← command.render (sink.append "| "))

def Link.render : Link → Sink → Except Overflow Sink
  | .mk connective pipeline, sink => renderLink connective (fun sink => pipeline.render sink) sink

def Link.renderList : List Link → Sink → Except Overflow Sink
  | [], sink => .ok sink
  | link :: rest, sink => do Link.renderList rest (← link.render sink)

/-- Writes a pipeline, the links that follow it and the terminator. -/
def AndOr.render : AndOr → Sink → Except Overflow Sink
  | .mk first links terminator, sink => do
    return terminator.render (← Link.renderList links (← first.render sink))

/-- Writes lists one after the other; all that stands between them is what each leaves pending. -/
def AndOr.renderList : List AndOr → Sink → Except Overflow Sink
  | [], sink => .ok sink
  | list :: rest, sink => do AndOr.renderList rest (← list.render sink)

end

def Script.render (script : Script) (sink : Sink) : Except Overflow Sink :=
  AndOr.renderList script sink

/-- The source text of a script, without what is still pending at its end. -/
def Script.source (script : Script) (mode : LineMode) : Except Overflow String := do
  return (← script.render { mode }).written

inductive Node where
  | fragment (text : String)
  | word (node : Word)
  | assignment (node : Assignment)
  | command (node : Command)
  | pipeline (node : Pipeline)
  | link (node : Link)
  | andOr (node : AndOr)
  | script (node : Script)
deriving DecidableEq

def Node.render : Node → Sink → Except Overflow Sink
  | .fragment text, sink => .ok (sink.append text)
  | .word w, sink => .ok (w.render sink)
  | .assignment a, sink => .ok (a.render sink)
  | .command c, sink => c.render sink
  | .pipeline p, sink => p.render sink
  | .link l, sink => l.render sink
  | .andOr l, sink => l.render sink
  | .script s, sink => Script.render s sink

end ShellTree
