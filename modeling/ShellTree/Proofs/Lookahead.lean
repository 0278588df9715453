import ShellTree.Sink.Lookahead
import ShellTree.Success

/-!
# Runs write what looking ahead says

The buffers of a sink remember what has not been decided yet: what is pending are the deferred texts that
nothing has settled so far, and what is queued are the lines behind which no line has been broken. So a sink
that went through some events holds the layout of just these events, whatever comes next. Each operation
keeps this, and with it a run of steps does, in scopes and out of them.
-/

namespace ShellTree

/-! ## Runs without their traces -/

/-- The sink that a step ends on. -/
def Step.last (step : Step) (sink : Sink) : Except Overflow Sink := do
  return (← step.run sink).final

/-- The sink that steps end on. -/
def Step.lastOf (steps : List Step) (sink : Sink) : Except Overflow Sink := do
  return (← Step.runList steps sink).final

namespace Step

theorem lastOf_cons {step : Step} (stays : step ≠ .leave) (rest : List Step) (sink : Sink) :
    lastOf (step :: rest) sink = step.last sink >>= lastOf rest := by
  rw [lastOf, runList]
  · simp only [last, Run.andThen, bind_assoc, pure_bind]
    rfl
  · exact stays

theorem last_indentedTo (level : Nat) (steps : List Step) (sink : Sink) :
    (indentedTo level steps).last sink = sink.indentedTo level (lastOf steps) := by
  simp only [last, run, Run.andThen, Run.close, Run.single, Sink.indentedTo, lastOf, bind_assoc, pure_bind]

theorem last_indentedBy (increment : Nat) (steps : List Step) (sink : Sink) :
    (indentedBy increment steps).last sink = sink.indentedBy increment (lastOf steps) := by
  simp only [last, run, Run.andThen, Run.close, Run.single, Sink.indentedBy, Sink.indentedTo, lastOf, bind_assoc,
    pure_bind]

theorem last_printIndent (sink : Sink) : printIndent.last sink = sink.printIndent := by
  simp only [last, run, bind_assoc, pure_bind, Run.single, bind_pure]

theorem last_fork (steps : List Step) (sink : Sink) :
    (fork steps).last sink = lastOf steps sink >>= fun _ => .ok sink := by
  simp only [last, run, lastOf, bind_assoc, pure_bind]
  rfl

end Step

/-! ## Sinks that went through events -/

/-- A sink that went through the events `past` and has `level` in force. -/
structure Follows (mode : LineMode) (level : Nat) (past : List Event) (sink : Sink) : Prop where
  mode_eq : sink.mode = mode
  level_eq : sink.level = level
  written_eq : sink.written = Event.layout mode past
  pending_eq : sink.pending = Event.unstopped (Event.deferred mode) Event.settles past
  queued_eq : sink.queued = Event.unstopped Event.queued Event.breaks past

namespace Follows

variable {mode : LineMode} {level : Nat} {past : List Event} {event : Event} {sink after : Sink}

theorem fresh (mode : LineMode) : Follows mode 0 [] { mode } := ⟨rfl, rfl, rfl, rfl, rfl⟩

/-- What an operation has to do to the texts of a sink for an event to happen to it. -/
theorem next (follows : Follows mode level past sink) (place : after.mode = sink.mode ∧ after.level = sink.level)
    (written : after.written = sink.written ++ event.writes mode past)
    (pending : after.pending = (if event.settles then "" else sink.pending) ++ event.deferred mode)
    (queued : after.queued = (if event.breaks then "" else sink.queued) ++ event.queued) :
    Follows mode level (past ++ [event]) after where
  mode_eq := place.1.trans follows.mode_eq
  level_eq := place.2.trans follows.level_eq
  written_eq := by rw [written, follows.written_eq, Event.layout_concat]
  pending_eq := by rw [pending, follows.pending_eq, Event.unstopped_concat]
  queued_eq := by rw [queued, follows.queued_eq, Event.unstopped_concat]

theorem append (follows : Follows mode level past sink) (text : String) :
    Follows mode level (past ++ [.append text]) (sink.append text) := by
  refine follows.next ⟨rfl, rfl⟩ ?_ ?_ ?_
  · rw [Event.writes, ← follows.pending_eq, ← String.append_assoc]
    rfl
  · rfl
  · exact String.append_empty.symm

theorem defer (follows : Follows mode level past sink) (text : String) :
    Follows mode level (past ++ [.defer text]) (sink.defer text) := by
  refine follows.next ⟨rfl, rfl⟩ ?_ ?_ ?_
  · exact String.append_empty.symm
  · rfl
  · exact String.append_empty.symm

theorem queueLine (follows : Follows mode level past sink) (text : String) :
    Follows mode level (past ++ [.queueLine text]) (sink.queueLine text) := by
  refine follows.next ⟨rfl, rfl⟩ ?_ ?_ ?_
  · exact String.append_empty.symm
  · exact String.append_empty.symm
  · rfl

theorem dropPending (follows : Follows mode level past sink) :
    Follows mode level (past ++ [.dropPending]) sink.dropPending := by
  refine follows.next ⟨rfl, rfl⟩ ?_ ?_ ?_
  · exact String.append_empty.symm
  · rfl
  · exact String.append_empty.symm

theorem commitPending (follows : Follows mode level past sink) :
    Follows mode level (past ++ [.commitPending]) sink.commitPending := by
  refine follows.next ⟨rfl, rfl⟩ ?_ ?_ ?_
  · rw [Event.writes, ← follows.pending_eq]
    rfl
  · rfl
  · exact String.append_empty.symm

theorem breakLine (follows : Follows mode level past sink) :
    Follows mode level (past ++ [.breakLine]) sink.breakLine := by
  unfold Sink.breakLine
  cases mode with
  | single =>
    rw [follows.mode_eq]
    refine follows.next ⟨follows.mode_eq.symm, rfl⟩ ?_ ?_ ?_
    · exact String.append_empty.symm
    · rfl
    · rfl
  | multi =>
    rw [follows.mode_eq]
    refine follows.next ⟨follows.mode_eq.symm, rfl⟩ ?_ ?_ ?_
    · rw [Event.writes, ← follows.queued_eq, ← String.append_assoc]
    · rfl
    · rfl

theorem printIndent (follows : Follows mode level past sink) (success : sink.printIndent = .ok after) :
    Follows mode level (past ++ [.indent level]) after := by
  simp only [Sink.printIndent, follows.mode_eq, follows.level_eq] at success
  cases mode with
  | single =>
    cases success
    refine follows.next ⟨follows.mode_eq.symm, follows.level_eq.symm⟩ ?_ ?_ ?_
    · exact String.append_empty.symm
    · exact String.append_empty.symm
    · exact String.append_empty.symm
  | multi =>
    dsimp only at success
    split at success
    · cases success
      refine follows.next ⟨follows.mode_eq.symm, follows.level_eq.symm⟩ ?_ ?_ ?_
      · rfl
      · exact String.append_empty.symm
      · exact String.append_empty.symm
    · cases success

/-- An indentation can be printed exactly if its width is in range. -/
theorem exists_printIndent (follows : Follows mode level past sink) :
    (∃ after, sink.printIndent = .ok after) ↔ Step.printIndent.fits mode level := by
  simp only [Sink.printIndent, follows.mode_eq, follows.level_eq, Step.fits]
  cases mode with
  | single => simp
  | multi => by_cases fits : indentWidth * level < wordLimit <;> simp [fits]

/-- Another level in force changes no text. -/
theorem atLevel (follows : Follows mode level past sink) (other : Nat) :
    Follows mode other past { sink with level := other } :=
  ⟨follows.mode_eq, rfl, follows.written_eq, follows.pending_eq, follows.queued_eq⟩

end Follows

/-- An operation that adds the events told for the level in force, and that succeeds exactly at the levels that
fit. -/
structure Tracks (mode : LineMode) (fits : Nat → Bool) (events : Nat → List Event)
    (write : Sink → Except Overflow Sink) : Prop where
  follows : ∀ {level past sink after}, Follows mode level past sink → write sink = .ok after →
    Follows mode level (past ++ events level) after
  succeeds : ∀ {level past sink}, Follows mode level past sink → ((∃ after, write sink = .ok after) ↔ fits level = true)

namespace Tracks

variable {mode : LineMode} {fits fits' : Nat → Bool} {events events' : Nat → List Event}
  {write next : Sink → Except Overflow Sink}

theorem nothing : Tracks mode (fun _ => true) (fun _ => []) .ok where
  follows follows success := by
    cases success
    rwa [List.append_nil]
  succeeds {_ _ sink} _ := iff_of_true ⟨sink, rfl⟩ rfl

/-- An operation that cannot fail is one event. -/
theorem of_step {event : Event} {step : Sink → Sink}
    (adds : ∀ {level past sink}, Follows mode level past sink → Follows mode level (past ++ [event]) (step sink)) :
    Tracks mode (fun _ => true) (fun _ => [event]) fun sink => .ok (step sink) where
  follows follows success := by
    cases success
    exact adds follows
  succeeds {_ _ sink} _ := iff_of_true ⟨step sink, rfl⟩ rfl

theorem printIndent :
    Tracks mode (fun level => Step.printIndent.fits mode level) (fun level => [.indent level]) Sink.printIndent where
  follows follows success := follows.printIndent success
  succeeds follows := follows.exists_printIndent

theorem bind (first : Tracks mode fits events write) (second : Tracks mode fits' events' next) :
    Tracks mode (fun level => fits level && fits' level) (fun level => events level ++ events' level)
      fun sink => write sink >>= next where
  follows follows success := by
    obtain ⟨middle, ran, success⟩ := bind_eq_ok.mp success
    have whole := second.follows (first.follows follows ran) success
    rwa [List.append_assoc] at whole
  succeeds {level past sink} follows := by
    simp only [bind_eq_ok, Bool.and_eq_true, ← first.succeeds follows]
    constructor
    · rintro ⟨after, middle, ran, success⟩
      exact ⟨⟨middle, ran⟩, (second.succeeds (first.follows follows ran)).mp ⟨after, success⟩⟩
    · rintro ⟨⟨middle, ran⟩, fit⟩
      obtain ⟨after, success⟩ := (second.succeeds (first.follows follows ran)).mpr fit
      exact ⟨after, middle, ran, success⟩

/-- In a scope the events have its level, and behind it the level around it is in force again. -/
theorem indentedTo (inside : Tracks mode fits events write) (inner : Nat) :
    Tracks mode (fun _ => fits inner) (fun _ => events inner) fun sink => sink.indentedTo inner write where
  follows {level past sink after} follows success := by
    simp only [Sink.indentedTo, bind_eq_ok, pure_eq_ok] at success
    obtain ⟨middle, ran, rfl⟩ := success
    rw [follows.level_eq]
    exact (inside.follows (follows.atLevel inner) ran).atLevel level
  succeeds {level past sink} follows := by
    rw [← inside.succeeds (follows.atLevel inner)]
    simp only [Sink.indentedTo, bind_eq_ok, pure_eq_ok]
    constructor
    · rintro ⟨_, after, ran, _⟩
      exact ⟨after, ran⟩
    · rintro ⟨after, ran⟩
      exact ⟨_, after, ran, rfl⟩

/-- A scope that raises the level is one that sets it, where the level can be raised. -/
theorem indentedBy (inside : Tracks mode fits events write) (increment : Nat) :
    Tracks mode (fun level => level + increment < wordLimit && fits (level + increment))
      (fun level => events (level + increment)) fun sink => sink.indentedBy increment write where
  follows {level past sink after} follows success := by
    simp only [Sink.indentedBy, bind_eq_ok, raiseLevel_eq_ok_iff, follows.level_eq] at success
    obtain ⟨_, ⟨rfl, _⟩, success⟩ := success
    exact (inside.indentedTo (level + increment)).follows follows success
  succeeds {level past sink} follows := by
    rw [Bool.and_eq_true, decide_eq_true_eq, ← (inside.indentedTo (level + increment)).succeeds follows]
    simp only [Sink.indentedBy, bind_eq_ok, raiseLevel_eq_ok_iff, follows.level_eq]
    constructor
    · rintro ⟨after, _, ⟨rfl, room⟩, success⟩
      exact ⟨room, after, success⟩
    · rintro ⟨room, after, success⟩
      exact ⟨after, _, ⟨rfl, room⟩, success⟩

/-- A side run has no events, but it can fail. -/
theorem aside (side : Tracks mode fits events write) :
    Tracks mode fits (fun _ => []) fun sink => write sink >>= fun _ => .ok sink where
  follows follows success := by
    obtain ⟨_, _, ended⟩ := bind_eq_ok.mp success
    exact nothing.follows follows ended
  succeeds {level past sink} follows := by
    rw [← side.succeeds follows]
    simp only [bind_eq_ok, Except.ok.injEq]
    constructor
    · rintro ⟨_, middle, ran, _⟩
      exact ⟨middle, ran⟩
    · rintro ⟨middle, ran⟩
      exact ⟨sink, middle, ran, rfl⟩

end Tracks

/-! ## Every step and every run -/

variable {mode : LineMode}

mutual

theorem Step.tracks : ∀ step : Step, step.nodeFree = true →
    Tracks mode (fun level => step.fits mode level) (fun level => step.events level) step.last
  | .append text, _ => Tracks.of_step fun follows => follows.append text
  | .defer text, _ => Tracks.of_step fun follows => follows.defer text
  | .queueLine text, _ => Tracks.of_step fun follows => follows.queueLine text
  | .dropPending, _ => Tracks.of_step Follows.dropPending
  | .commitPending, _ => Tracks.of_step Follows.commitPending
  | .breakLine, _ => Tracks.of_step Follows.breakLine
  | .printIndent, _ => by
    rw [funext Step.last_printIndent]
    exact Tracks.printIndent
  | .indentedBy increment steps, nodeFree => by
    rw [funext (Step.last_indentedBy increment steps)]
    exact (Step.tracks_all steps nodeFree).indentedBy increment
  | .indentedTo level steps, nodeFree => by
    rw [funext (Step.last_indentedTo level steps)]
    exact (Step.tracks_all steps nodeFree).indentedTo level
  | .fork steps, nodeFree => by
    rw [funext (Step.last_fork steps)]
    exact (Step.tracks_all steps nodeFree).aside
  | .leave, _ => Tracks.nothing

theorem Step.tracks_all : ∀ steps : List Step, Step.allNodeFree steps = true →
    Tracks mode (fun level => Step.allFit mode level steps) (fun level => Step.eventsOf level steps) (Step.lastOf steps)
  | [], _ => Tracks.nothing
  | step :: rest, nodeFree => by
    by_cases leaves : step = .leave
    · subst leaves
      exact Tracks.nothing
    · rw [Step.allNodeFree, Bool.and_eq_true] at nodeFree
      rw [funext (Step.lastOf_cons leaves rest)]
      have both := (step.tracks nodeFree.1).bind (Step.tracks_all rest nodeFree.2)
      simp only [Step.allFit, Step.eventsOf]
      exact both

end

/-- A program of sink operations in scopes, which may be left early, runs on a fresh sink exactly if all its
levels and indentations are in range, and then what it has written is what its events write that look ahead:
every text, in front of it the deferred texts that nothing has settled before, the queued lines behind the
next line break, and indentations at the level of the innermost scope. -/
theorem Step.runList_writes_layout (mode : LineMode) {steps : List Step} (nodeFree : Step.allNodeFree steps = true) :
    (∀ run, Step.runList steps { mode } = .ok run →
      run.final.written = Event.layout mode (Step.eventsOf 0 steps)) ∧
      ((∃ run, Step.runList steps { mode } = .ok run) ↔ Step.allFit mode 0 steps = true) := by
  have start := Follows.fresh mode
  have tracks : Tracks mode _ _ _ := Step.tracks_all steps nodeFree
  constructor
  · intro run success
    have ended : Step.lastOf steps { mode } = .ok run.final := bind_eq_ok.mpr ⟨run, success, rfl⟩
    exact (tracks.follows start ended).written_eq
  · rw [← tracks.succeeds start]
    constructor
    · rintro ⟨run, success⟩
      exact ⟨run.final, bind_eq_ok.mpr ⟨run, success, rfl⟩⟩
    · rintro ⟨after, success⟩
      obtain ⟨run, ran, _⟩ := bind_eq_ok.mp success
      exact ⟨run, ran⟩

/-- An indentation overtakes what is pending in front of it, both scopes are left early, the queued line waits
beyond the one that it is queued in, and what is dropped or left pending at the end is not written. -/
theorem Step.runList_writes_layout_scopes :
    let steps : List Step := [.append "a", .defer ";",
      .indentedBy 2 [.printIndent, .defer " ", .indentedTo 1 [.queueLine "h\n", .leave, .append "x"], .append "b",
        .defer ";", .breakLine, .printIndent, .append "c", .leave, .append "y"],
      .printIndent, .defer " ", .dropPending, .defer "!", .commitPending, .defer "?"]
    Step.allNodeFree steps = true ∧
      (∃ run, Step.runList steps { mode := .multi } = .ok run ∧ run.final.written = "a        ; b\nh\n        c!") ∧
      ∃ run, Step.runList steps { mode := .single } = .ok run ∧ run.final.written = "a; b c!" := by
  intro steps
  have nodeFree : Step.allNodeFree steps = true := by decide
  obtain ⟨written, succeeds⟩ := Step.runList_writes_layout .multi nodeFree
  obtain ⟨written', succeeds'⟩ := Step.runList_writes_layout .single nodeFree
  obtain ⟨run, ran⟩ := succeeds.mpr (by decide)
  obtain ⟨run', ran'⟩ := succeeds'.mpr (by decide)
  exact ⟨nodeFree, ⟨run, ran, (written run ran).trans (by decide)⟩,
    run', ran', (written' run' ran').trans (by decide)⟩

end ShellTree
