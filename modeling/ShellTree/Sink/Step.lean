import ShellTree.Render

/-!
# Sink operations as data

A list of steps is a small program over a sink: plain operations, writing a node, scopes of
indentation, and a side run on a copy of the sink. `leave` ends the innermost list of steps that it
stands in, and a scope gives back its level however its steps end.

Running steps yields the sink at the end together with the trace of the sinks that it went through:
one entry when a scope is entered and one after every step but `leave`.
-/

namespace ShellTree

inductive Step where
  | append (text : String)
  | defer (text : String)
  | queueLine (text : String)
  | dropPending
  | commitPending
  | breakLine
  | printIndent
  | node (node : Node)
  /-- Runs steps with the level raised by `increment`. -/
  | indentedBy (increment : Nat) (steps : List Step)
  /-- Runs steps at the given level. -/
  | indentedTo (level : Nat) (steps : List Step)
  /-- Runs steps on a copy of the sink that is thrown away. -/
  | fork (steps : List Step)
  /-- Leaves the innermost list of steps. -/
  | leave

/-- The sinks that a run went through, in order, and the sink at its end. -/
structure Run where
  trace : List Sink
  final : Sink

namespace Run

def single (sink : Sink) : Run := ⟨[sink], sink⟩

def andThen (run : Run) (next : Sink → Except Overflow Run) : Except Overflow Run := do
  let rest ← next run.final
  return ⟨run.trace ++ rest.trace, rest.final⟩

/-- Closes a scope: the level of the sink it was opened on is in force again. -/
def close (run : Run) (opened : Sink) : Run :=
  let final := { run.final with level := opened.level }
  ⟨run.trace ++ [final], final⟩

end Run

mutual

/-- Runs one step; `leave` has no effect of its own. -/
def Step.run : Step → Sink → Except Overflow Run
  | .append text, sink => .ok (.single (sink.append text))
  | .defer text, sink => .ok (.single (sink.defer text))
  | .queueLine text, sink => .ok (.single (sink.queueLine text))
  | .dropPending, sink => .ok (.single sink.dropPending)
  | .commitPending, sink => .ok (.single sink.commitPending)
  | .breakLine, sink => .ok (.single sink.breakLine)
  | .printIndent, sink => return .single (← sink.printIndent)
  | .node item, sink => return .single (← item.render sink)
  | .indentedBy increment steps, sink => do
    let inner := { sink with level := ← raiseLevel sink.level increment }
    return (← (Run.single inner).andThen fun inner => Step.runList steps inner).close sink
  | .indentedTo level steps, sink => do
    let inner := { sink with level }
    return (← (Run.single inner).andThen fun inner => Step.runList steps inner).close sink
  | .fork steps, sink => do
    let side ← Step.runList steps sink
    return ⟨side.trace ++ [sink], sink⟩
  | .leave, sink => .ok ⟨[], sink⟩

/-- Runs steps in order, up to the first `leave`. -/
def Step.runList : List Step → Sink → Except Overflow Run
  | [], sink => .ok ⟨[], sink⟩
  | .leave :: _, sink => .ok ⟨[], sink⟩
  | step :: rest, sink => do
    (← step.run sink).andThen fun sink => Step.runList rest sink

end

end ShellTree
