import ShellTree.CommandLine.Run

/-!
# What sessions write

A session gives a result and writes to both outputs, behind whatever was written before. `Writes` says
what it gives and what it adds to both; `Gives` only says of standard error when nothing is added to it.
Sessions in a row add their texts in a row, and stop at the first one that fails.
-/

namespace ShellTree.CommandLine

/-- A session in a row with another one goes on from what the first one has written, unless that fails. -/
theorem Session.run_bind {α β : Type} (session : Session α) (next : α → Session β) (transcript : Transcript) :
    StateT.run (ExceptT.run (session >>= next)) transcript =
      match StateT.run (ExceptT.run session) transcript with
      | (.ok result, written) => StateT.run (ExceptT.run (next result)) written
      | (.error failure, written) => (.error failure, written) := by
  simp only [ExceptT.run_bind, StateT.run_bind]
  generalize StateT.run (ExceptT.run session) transcript = ran
  obtain ⟨result, written⟩ := ran
  cases result <;> rfl

/-- Transcripts in a row: each output goes on from the one before. -/
instance : Append Transcript where
  append first second := ⟨first.stdout ++ second.stdout, first.stderr ++ second.stderr⟩

theorem Transcript.mk_append (out err : String) (second : Transcript) :
    (⟨out, err⟩ : Transcript) ++ second = ⟨out ++ second.stdout, err ++ second.stderr⟩ := rfl

theorem Transcript.append_assoc (first second third : Transcript) :
    first ++ second ++ third = first ++ (second ++ third) := by
  obtain ⟨out, err⟩ := first
  simp only [mk_append, String.append_assoc]
  rfl

theorem Transcript.append_empty (transcript : Transcript) : transcript ++ ({} : Transcript) = transcript := by
  obtain ⟨out, err⟩ := transcript
  simp only [mk_append, String.append_empty]

theorem Transcript.empty_append (transcript : Transcript) : ({} : Transcript) ++ transcript = transcript := by
  simp only [mk_append, String.empty_append]

/-! ## Exactly -/

/-- A session with the given result, which adds exactly these texts to the outputs. -/
def Session.Writes {α : Type} (session : Session α) (result : Except Failure α) (written : Transcript) : Prop :=
  ∀ transcript : Transcript, StateT.run (ExceptT.run session) transcript = (result, transcript ++ written)

namespace Session.Writes

variable {α β : Type} {session : Session α} {next : α → Session β} {result : α} {written more : Transcript}

theorem pure (result : α) : Writes (Pure.pure result) (.ok result) {} := by
  intro transcript
  rw [Transcript.append_empty]
  rfl

theorem throw (failure : Failure) : Writes (MonadExcept.throw failure : Session α) (.error failure) {} := by
  intro transcript
  rw [Transcript.append_empty]
  rfl

theorem bind {last : Except Failure β} (first : session.Writes (.ok result) written)
    (second : (next result).Writes last more) : Writes (session >>= next) last (written ++ more) := by
  intro transcript
  rw [run_bind, first, ← Transcript.append_assoc]
  exact second _

/-- Behind a session that fails nothing is done. -/
theorem bind_error {failure : Failure} (first : session.Writes (.error failure) written) :
    Writes (session >>= next) (.error failure) written := by
  intro transcript
  rw [run_bind, first]

/-- How a session ends the program: a failure is reported behind what was written. -/
theorem outcome_ok {session : Session Unit} (writes : session.Writes (.ok ()) written) :
    session.outcome = ⟨0, written⟩ := by
  rw [outcome, writes, Transcript.empty_append]

theorem outcome_error {session : Session Unit} {failure : Failure} (writes : session.Writes (.error failure) written) :
    session.outcome = ⟨failure.code, written ++ ⟨"", failure.report⟩⟩ := by
  rw [outcome, writes, Transcript.empty_append]
  obtain ⟨out, err⟩ := written
  rw [Transcript.mk_append, String.append_empty]

end Session.Writes

theorem printLine_writes (text : String) : (printLine text).Writes (.ok ()) ⟨text ++ "\n", ""⟩ := by
  intro transcript
  obtain ⟨out, err⟩ := transcript
  rw [Transcript.mk_append, String.append_empty, ← String.append_assoc]
  rfl

theorem report_writes (text : String) : (report text).Writes (.ok ()) ⟨"", text⟩ := by
  intro transcript
  obtain ⟨out, err⟩ := transcript
  rw [Transcript.mk_append, String.append_empty]
  rfl

/-! ## Up to the log -/

/-- A session with the given result, which adds `text` to standard output, and nothing to standard error
where it is silent. -/
def Session.Gives {α : Type} (session : Session α) (result : Except Failure α) (text : String) (silent : Prop) :
    Prop :=
  ∀ transcript : Transcript, ∃ log, (silent → log = "") ∧
    StateT.run (ExceptT.run session) transcript = (result, ⟨transcript.stdout ++ text, transcript.stderr ++ log⟩)

theorem Session.Writes.gives {α : Type} {session : Session α} {result : Except Failure α} {text log : String}
    {silent : Prop} (writes : session.Writes result ⟨text, log⟩) (quiet : silent → log = "") :
    session.Gives result text silent :=
  fun transcript => ⟨log, quiet, writes transcript⟩

namespace Session.Gives

variable {α β : Type} {session : Session α} {next : α → Session β} {result : α} {text more : String} {silent : Prop}

theorem pure (result : α) : Gives (Pure.pure result) (.ok result) "" silent :=
  (Writes.pure result).gives fun _ => rfl

theorem throw (failure : Failure) : Gives (MonadExcept.throw failure : Session α) (.error failure) "" silent :=
  (Writes.throw failure).gives fun _ => rfl

theorem bind {last : Except Failure β} (first : session.Gives (.ok result) text silent)
    (second : (next result).Gives last more silent) : Gives (session >>= next) last (text ++ more) silent := by
  intro transcript
  obtain ⟨log, quiet, ran⟩ := first transcript
  obtain ⟨added, still, ended⟩ := second ⟨transcript.stdout ++ text, transcript.stderr ++ log⟩
  refine ⟨log ++ added, fun silence => ?_, ?_⟩
  · rw [quiet silence, still silence, String.append_empty]
  · rw [run_bind, ran]
    exact ended.trans (by rw [String.append_assoc, String.append_assoc])

/-- Behind a session that fails nothing is done. -/
theorem bind_error {failure : Failure} (first : session.Gives (.error failure) text silent) :
    Gives (session >>= next) (.error failure) text silent := by
  intro transcript
  obtain ⟨log, quiet, ran⟩ := first transcript
  refine ⟨log, quiet, ?_⟩
  rw [run_bind, ran]

/-- A session that writes nothing to standard output only hands its result on. -/
theorem then_ {last : Except Failure β} (first : session.Gives (.ok result) "" silent)
    (second : (next result).Gives last text silent) : Gives (session >>= next) last text silent := by
  have both := first.bind second
  rwa [String.empty_append] at both

theorem mono {stricter : Prop} {last : Except Failure α} (gives : session.Gives last text silent)
    (implies : stricter → silent) : session.Gives last text stricter := by
  intro transcript
  obtain ⟨log, quiet, ran⟩ := gives transcript
  exact ⟨log, fun silence => quiet (implies silence), ran⟩

end Session.Gives

section

variable {silent : Prop}

theorem printLine_gives (text : String) : (printLine text).Gives (.ok ()) (text ++ "\n") silent :=
  (printLine_writes text).gives fun _ => rfl

theorem report_gives {text : String} (quiet : silent → text = "") : (report text).Gives (.ok ()) "" silent :=
  (report_writes text).gives quiet

/-- Without directives the log is for errors alone, which are more important than any message. -/
theorem World.logLimit_lt_rank {world : World} (unset : world.variableText? World.logVariable = none) (part : String)
    (level : Level) : world.logLimit part < level.rank := by
  have errorsOnly : world.logLimit part = 1 := by
    rw [World.logLimit, unset]
    rfl
  rw [errorsOnly]
  cases level <;> decide

/-- The log has nothing to say on messages that are not important enough. -/
theorem World.log_gives (world : World) {level : Level} (part message : String)
    (quiet : silent → world.logLimit part < level.rank) : (world.log level part message).Gives (.ok ()) "" silent := by
  unfold World.log
  split
  · next logged => exact report_gives fun silence => absurd logged (Nat.not_le.mpr (quiet silence))
  · exact .pure ()

theorem forM_gives {α : Type} {items : List α} {each : α → Session Unit}
    (gives : ∀ item, (each item).Gives (.ok ()) "" silent) : Session.Gives (items.forM each) (.ok ()) "" silent := by
  induction items with
  | nil => exact .pure ()
  | cons item rest ih => exact (gives item).then_ ih

/-! ## How a session ends -/

/-- A session that succeeds ends the program with its text. -/
theorem Session.Gives.outcome_ok {session : Session Unit} {text : String} (gives : session.Gives (.ok ()) text silent) :
    session.outcome.code = 0 ∧ session.outcome.transcript.stdout = text := by
  obtain ⟨log, _, ran⟩ := gives {}
  rw [Session.outcome, ran]
  exact ⟨rfl, String.empty_append⟩

/-- A session that fails ends the program with the report of its failure. -/
theorem Session.Gives.outcome_error {session : Session Unit} {failure : Failure} {text : String}
    (gives : session.Gives (.error failure) text silent) :
    session.outcome.code = failure.code ∧ session.outcome.transcript.stdout = text ∧
      ∃ log, (silent → log = "") ∧ session.outcome.transcript.stderr = log ++ failure.report := by
  obtain ⟨log, quiet, ran⟩ := gives {}
  rw [Session.outcome, ran]
  refine ⟨rfl, String.empty_append, log, quiet, ?_⟩
  exact congrArg (· ++ failure.report) String.empty_append

end

end ShellTree.CommandLine
