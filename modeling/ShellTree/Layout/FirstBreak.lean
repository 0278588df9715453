import ShellTree.Render

/-!
# The first line break of a node

Links and groups break the line, each right behind the operator or the brace that it begins with. Here a
node is written as far as its first line break and no further: `.error line` is the sink that this line
break happens on, and `.ok after` means that there was none. So the text in front of the first line break
is told apart from texts that hold newlines themselves.
-/

namespace ShellTree

/-- Writes a link up to its first line break, which is the one behind its operator. -/
def Link.untilBreak : Link → Sink → Except Sink Sink
  | .mk connective _, sink => .error (sink.append connective.operator)

def Link.untilBreakOf : List Link → Sink → Except Sink Sink
  | [], sink => .ok sink
  | link :: _, sink => link.untilBreak sink

mutual

/-- Writes a command up to its first line break. -/
def Command.untilBreak : Command → Sink → Except Sink Sink
  | .simple assignments words _, sink =>
    .ok (renderSpaced Word.render words (renderSpaced Assignment.render assignments sink))
  | .group _ _, sink => .error (sink.append "\x7b")
  | .subshell body _, sink => do
    let inside ← AndOr.untilBreakOf body (sink.append "(")
    return (inside.dropPending.append ")").defer " "

def Pipeline.untilBreak : Pipeline → Sink → Except Sink Sink
  | .mk negated commands, sink =>
    Command.untilBreakPiped commands (if negated then sink.append "! " else sink)

def Command.untilBreakPiped : List Command → Sink → Except Sink Sink
  | [], sink => .ok sink
  | command :: rest, sink => do Command.untilBreakTail rest (← command.untilBreak sink)

def Command.untilBreakTail : List Command → Sink → Except Sink Sink
  | [], sink => .ok sink
  | command :: rest, sink => do Command.untilBreakTail rest (← command.untilBreak (sink.append "| "))

def AndOr.untilBreak : AndOr → Sink → Except Sink Sink
  | .mk first links terminator, sink => do
    return terminator.render (← Link.untilBreakOf links (← first.untilBreak sink))

def AndOr.untilBreakOf : List AndOr → Sink → Except Sink Sink
  | [], sink => .ok sink
  | list :: rest, sink => do AndOr.untilBreakOf rest (← list.untilBreak sink)

end

/-- Writes a node of any kind up to its first line break. -/
def Node.untilBreak : Node → Sink → Except Sink Sink
  | .fragment text, sink => .ok (sink.append text)
  | .word w, sink => .ok (w.render sink)
  | .assignment a, sink => .ok (a.render sink)
  | .command c, sink => c.untilBreak sink
  | .pipeline p, sink => p.untilBreak sink
  | .link l, sink => l.untilBreak sink
  | .andOr l, sink => l.untilBreak sink
  | .script s, sink => AndOr.untilBreakOf s sink

end ShellTree
