/-!
# The text sink

Source text is written to a sink. Text that must not end up at the very end of the output, such as
the space after a word, is deferred: it waits in `pending` and is written only when something real
follows. Whole lines that belong after the next line break wait in `queued`. Two levels of
indentation are kept: `level` is the one in force, and `lineLevel` the one that the current line
was opened at, which `printIndent` records.

Levels and the number of spaces in an indentation are 64-bit quantities. An operation that would
leave that range fails with an `Overflow`; every other operation is total.
-/

namespace ShellTree

inductive LineMode where
  /-- Everything stands on one line, and a line break collapses to one space. -/
  | single
  /-- Line breaks are real, and lines are indented. -/
  | multi
deriving DecidableEq

def LineMode.text : LineMode → String
  | .single => "single-line"
  | .multi => "multi-line"

/-- Levels and indentation widths stay below this bound. -/
def wordLimit : Nat := UInt64.size

def indentWidth : Nat := 4

/-- What leaves the range of 64-bit quantities. -/
inductive Overflow where
  /-- A level that was raised too far. -/
  | addition
  /-- The width of an indentation. -/
  | multiplication
deriving DecidableEq

def Overflow.message : Overflow → String
  | .addition => "attempt to add with overflow"
  | .multiplication => "attempt to multiply with overflow"

/-- The sum of two levels, where it is still a level. -/
def raiseLevel (level increment : Nat) : Except Overflow Nat :=
  if level + increment < wordLimit then .ok (level + increment) else .error .addition

theorem raiseLevel_eq_ok_iff {level increment raised : Nat} :
    raiseLevel level increment = .ok raised ↔
      raised = level + increment ∧ level + increment < wordLimit := by
  unfold raiseLevel
  split <;> simp_all [eq_comm]

def spaces (count : Nat) : String := String.ofList (List.replicate count ' ')

@[simp] theorem toList_spaces (count : Nat) : (spaces count).toList = List.replicate count ' ' := by
  simp [spaces]

theorem spaces_add (first second : Nat) : spaces (first + second) = spaces first ++ spaces second := by
  simp [spaces, ← List.replicate_append_replicate]

/-- What has been written so far, what waits to be written, and how deep the text is indented. -/
structure Sink where
  mode : LineMode
  written : String := ""
  pending : String := ""
  queued : String := ""
  level : Nat := 0
  lineLevel : Nat := 0
deriving DecidableEq

namespace Sink

/-- Writes the pending text, then `text`. -/
def append (sink : Sink) (text : String) : Sink :=
  { sink with written := sink.written ++ sink.pending ++ text, pending := "" }

/-- Lets `text` wait until something follows it. -/
def defer (sink : Sink) (text : String) : Sink :=
  { sink with pending := sink.pending ++ text }

def dropPending (sink : Sink) : Sink :=
  { sink with pending := "" }

/-- Writes the pending text although nothing follows it yet. -/
def commitPending (sink : Sink) : Sink :=
  { sink with written := sink.written ++ sink.pending, pending := "" }

/-- Lets `text` wait for the next line break. -/
def queueLine (sink : Sink) (text : String) : Sink :=
  { sink with queued := sink.queued ++ text }

/-- Ends the line. Pending text is given up in both modes; on a single line a space takes its place
and the queue is given up as well, otherwise the queue follows the line break. -/
def breakLine (sink : Sink) : Sink :=
  match sink.mode with
  | .single => { sink with pending := " ", queued := "" }
  | .multi => { sink with written := sink.written ++ "\n" ++ sink.queued, pending := "", queued := "" }

/-- Opens a line at the level in force. Where lines are real, its indentation is written at once,
ahead of pending text. -/
def printIndent (sink : Sink) : Except Overflow Sink :=
  match sink.mode with
  | .single => .ok { sink with lineLevel := sink.level }
  | .multi =>
    if indentWidth * sink.level < wordLimit then
      .ok { sink with
        written := sink.written ++ spaces (indentWidth * sink.level)
        lineLevel := sink.level }
    else .error .multiplication

/-- Runs `body` at the given level and returns to the level in force. -/
def indentedTo (sink : Sink) (level : Nat) (body : Sink → Except Overflow Sink) :
    Except Overflow Sink := do
  let inner ← body { sink with level }
  return { inner with level := sink.level }

/-- Runs `body` with the level raised by `increment` and returns to the level in force. -/
def indentedBy (sink : Sink) (increment : Nat) (body : Sink → Except Overflow Sink) :
    Except Overflow Sink := do
  sink.indentedTo (← raiseLevel sink.level increment) body

/-! ## Laws of the operations -/

@[simp] theorem append_append (sink : Sink) (first second : String) :
    (sink.append first).append second = sink.append (first ++ second) := by
  simp [append, String.append_assoc]

@[simp] theorem append_empty (sink : Sink) : sink.append "" = sink.commitPending := by
  simp [append, commitPending]

@[simp] theorem commitPending_append (sink : Sink) (text : String) :
    sink.commitPending.append text = sink.append text := by
  simp [append, commitPending]

@[simp] theorem append_commitPending (sink : Sink) (text : String) :
    (sink.append text).commitPending = sink.append text := by
  simp [append, commitPending]

@[simp] theorem append_dropPending (sink : Sink) (text : String) :
    (sink.append text).dropPending = sink.append text := rfl

@[simp] theorem defer_defer (sink : Sink) (first second : String) :
    (sink.defer first).defer second = sink.defer (first ++ second) := by
  simp [defer, String.append_assoc]

@[simp] theorem defer_dropPending (sink : Sink) (text : String) :
    (sink.defer text).dropPending = sink.dropPending := rfl

@[simp] theorem defer_append (sink : Sink) (deferred text : String) :
    (sink.defer deferred).append text = sink.append (deferred ++ text) := by
  simp [defer, append, String.append_assoc]

/-- A scope gives its level back. -/
theorem level_indentedTo {sink after : Sink} {level : Nat} {body : Sink → Except Overflow Sink}
    (success : sink.indentedTo level body = .ok after) : after.level = sink.level := by
  unfold indentedTo at success
  cases inner : body { sink with level } with
  | error overflow => simp [inner, bind, Except.bind] at success
  | ok result =>
    simp only [inner, bind, Except.bind, pure, Except.pure, Except.ok.injEq] at success
    rw [← success]

end Sink

end ShellTree
