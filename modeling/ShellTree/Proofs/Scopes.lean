import ShellTree.Render
import ShellTree.Success

/-!
# Groups and links in stages

A group and a link write something, hand a sink to what they enclose, and write something behind it.
Here each of these stages is an operation of its own, so that a proof about the enclosed part meets
it between two sinks and never inside a scope of indentation.
-/

namespace ShellTree

namespace Sink

/-- The sink with another level in force. -/
def atLevel (sink : Sink) (level : Nat) : Sink := { sink with level }

/-- Opens a group: the sink that its body is written to. -/
def openGroup (sink : Sink) : Except Overflow Sink := do
  ((sink.append "\x7b").breakLine.atLevel (← raiseLevel sink.lineLevel 1)).printIndent

/-- Closes the group that was opened on `sink`, behind its body. -/
def closeGroup (sink inside : Sink) : Except Overflow Sink :=
  match sink.mode with
  | .single => .ok (((inside.atLevel sink.level).append "\x7d").defer " ")
  | .multi => do
    let closing ← (inside.breakLine.atLevel sink.lineLevel).printIndent
    return ((closing.atLevel sink.level).append "\x7d").defer " "

/-- Opens a link: the sink that its pipeline is written to. -/
def openLink (connective : Connective) (sink : Sink) : Except Overflow Sink := do
  let opened ← (sink.append connective.operator).breakLine.printIndent
  return opened.atLevel (← raiseLevel sink.level 1)

theorem breakLine_atLevel (sink : Sink) (level : Nat) :
    (sink.atLevel level).breakLine = sink.breakLine.atLevel level := by
  obtain ⟨_ | _⟩ := sink <;> rfl

theorem level_breakLine (sink : Sink) : sink.breakLine.level = sink.level := by
  unfold breakLine
  split <;> rfl

theorem level_printIndent {sink after : Sink} (success : sink.printIndent = .ok after) :
    after.level = sink.level := by
  unfold printIndent at success
  split at success
  · cases success
    rfl
  · split at success
    · cases success
      rfl
    · cases success

end Sink

/-- A group is opened, its body is written, and it is closed. -/
theorem renderGroup_eq (body : Sink → Except Overflow Sink) (sink : Sink) :
    renderGroup body sink = (sink.openGroup >>= body) >>= sink.closeGroup := by
  unfold renderGroup Sink.openGroup
  simp only [Sink.indentedTo, bind_assoc, pure_bind, Sink.level_breakLine]
  refine bind_congr fun level => bind_congr fun line => bind_congr fun inside => ?_
  unfold Sink.closeGroup
  cases sink.mode with
  | single =>
    simp only [Sink.commitPending_append]
    rfl
  | multi =>
    have opened := Sink.breakLine_atLevel inside sink.level
    simp only [Sink.atLevel] at opened
    simp [opened, Sink.append, Sink.atLevel]

/-- A link is opened, its pipeline is written, and the level of the link is in force again. -/
theorem renderLink_eq (connective : Connective) (pipeline : Sink → Except Overflow Sink) (sink : Sink) :
    renderLink connective pipeline sink =
      (sink.openLink connective >>= pipeline) >>= fun after => .ok (after.atLevel sink.level) := by
  simp only [renderLink, Sink.openLink, Sink.indentedBy, Sink.indentedTo]
  cases opens : (sink.append connective.operator).breakLine.printIndent with
  | error overflow => rfl
  | ok opened =>
    have level : opened.level = sink.level := by
      rw [Sink.level_printIndent opens, Sink.level_breakLine]
      rfl
    change (raiseLevel opened.level 1 >>= _) = ((raiseLevel sink.level 1 >>= _) >>= pipeline) >>= _
    simp only [level, bind_assoc]
    rfl

/-! ## Where writing succeeds -/

variable {sink after : Sink} {write : Sink → Except Overflow Sink}

theorem renderGroup_eq_ok :
    renderGroup write sink = .ok after ↔ ∃ opened inside,
      sink.openGroup = .ok opened ∧ write opened = .ok inside ∧ sink.closeGroup inside = .ok after := by
  simp only [renderGroup_eq, bind_eq_ok]
  constructor
  · rintro ⟨inside, ⟨opened, opens, written⟩, closes⟩
    exact ⟨opened, inside, opens, written, closes⟩
  · rintro ⟨opened, inside, opens, written, closes⟩
    exact ⟨inside, ⟨opened, opens, written⟩, closes⟩

theorem renderSubshell_eq_ok :
    renderSubshell write sink = .ok after ↔ ∃ inside,
      write (sink.append "(") = .ok inside ∧ ((inside.dropPending.append ")").defer " ") = after := by
  simp only [renderSubshell, bind_eq_ok, pure_eq_ok]

theorem renderLink_eq_ok {connective : Connective} :
    renderLink connective write sink = .ok after ↔ ∃ opened inside,
      sink.openLink connective = .ok opened ∧ write opened = .ok inside ∧ inside.atLevel sink.level = after := by
  simp only [renderLink_eq, bind_eq_ok, Except.ok.injEq]
  constructor
  · rintro ⟨inside, ⟨opened, opens, written⟩, same⟩
    exact ⟨opened, inside, opens, written, same⟩
  · rintro ⟨opened, inside, opens, written, same⟩
    exact ⟨inside, ⟨opened, opens, written⟩, same⟩

theorem AndOr.render_eq_ok {first : Pipeline} {links : List Link} {terminator : Terminator} :
    (AndOr.mk first links terminator).render sink = .ok after ↔ ∃ started chained,
      first.render sink = .ok started ∧ Link.renderList links started = .ok chained ∧
        terminator.render chained = after := by
  simp only [AndOr.render, bind_eq_ok, pure_eq_ok]
  constructor
  · rintro ⟨started, starts, chained, chains, same⟩
    exact ⟨started, chained, starts, chains, same⟩
  · rintro ⟨started, chained, starts, chains, same⟩
    exact ⟨started, starts, chained, chains, same⟩

end ShellTree
