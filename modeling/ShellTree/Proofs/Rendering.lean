import Mathlib
import ShellTree.Proofs.Capacity
import ShellTree.Proofs.FirstReport
import ShellTree.Proofs.Flags
import ShellTree.Proofs.Sessions
import ShellTree.Proofs.SmallWorlds

/-!
# What `render` comes to

`render` succeeds exactly if none of its steps fails. If one does, the first of them is reported and
nothing is written to standard output; otherwise that is the text of the tree and a line break. Nothing
else has a say in the matter: neither whether the tree is to be checked nor whether it lacks anything.
-/

namespace ShellTree.CommandLine

variable (world : World) (invocation : Invocation)

/-! ## The sessions that `render` is made of -/

/-- Only the settings file is logged, and that only from the third level on. -/
theorem loadSettings_gives {asked : Option String} :
    (loadSettings world asked).Gives ((world.settings asked).mapError .settings) ""
      (world.variableText? World.logVariable = none) := by
  unfold loadSettings World.settings Settings.load
  cases Settings.source? world.files world.directory asked with
  | error failure => exact .throw _
  | ok source =>
    -- The file is logged before its settings are looked at, so the log comes first in both cases of them.
    cases source with
    | none =>
      dsimp only [bind, Except.bind]
      cases Settings.ofSource world.files none (world.variableText? Settings.variableName) with
      | error failure => exact .throw _
      | ok settings => exact .pure _
    | some path =>
      refine (world.log_gives _ _ fun unset => World.logLimit_lt_rank unset _ _).then_ ?_
      dsimp only [bind, Except.bind]
      cases Settings.ofSource world.files (some path) (world.variableText? Settings.variableName) with
      | error failure => exact .throw _
      | ok settings => exact .pure _

theorem loadTree_gives {path : String} :
    (loadTree world path).Gives ((Script.load world.files path).mapError .tree) ""
      (world.variableText? World.logVariable = none) := by
  unfold loadTree
  cases loaded : Script.load world.files path with
  | error failure => exact .throw _
  | ok script => exact (world.log_gives _ _ fun unset => World.logLimit_lt_rank unset _ _).then_ (.pure _)

theorem printSource_gives {script : Script} {mode : LineMode} {text : String}
    (success : script.source mode = .ok text) :
    (printSource world script mode).Gives (.ok ()) (text ++ "\n") False := by
  unfold printSource
  rw [success]
  exact (world.log_gives _ _ False.elim).then_ (printLine_gives text)

/-- Issues go to standard error alone. -/
theorem warnOfIssues_gives {path : String} {issues : List Issue} :
    (warnOfIssues world path issues).Gives (.ok ()) "" False := by
  have listed : (reportIssues world .yellow issues).Gives (.ok ()) "" False :=
    forM_gives fun issue => report_gives False.elim
  have logged : Session.Gives
      (issues.forM fun issue => world.log .warning "shprint::handlers::render" issue.text) (.ok ()) "" False :=
    forM_gives fun issue => world.log_gives _ _ False.elim
  unfold warnOfIssues
  split
  · exact listed.then_ logged
  · exact (report_gives False.elim).then_ (listed.then_ logged)

/-! ## What `render` gives -/

theorem render_gives_settings {failure : Settings.Failure}
    (failed : world.settings invocation.config = .error failure) :
    (render world invocation).Gives (.error (.settings failure)) "" (world.variableText? World.logVariable = none) := by
  have first := @loadSettings_gives world invocation.config
  rw [failed] at first
  exact first.bind_error

theorem render_gives_tree {settings : Settings} {failure : Script.LoadFailure}
    (loaded : world.settings invocation.config = .ok settings)
    (failed : Script.load world.files invocation.file = .error failure) :
    (render world invocation).Gives (.error (.tree failure)) "" (world.variableText? World.logVariable = none) := by
  have first := @loadSettings_gives world invocation.config
  have second := @loadTree_gives world invocation.file
  rw [loaded] at first
  rw [failed] at second
  exact first.then_ second.bind_error

theorem render_gives_text {settings : Settings} {script : Script} {text : String}
    (loaded : world.settings invocation.config = .ok settings)
    (found : Script.load world.files invocation.file = .ok script)
    (success : script.source (renderLineMode world invocation) = .ok text) :
    (render world invocation).Gives (.ok ()) (text ++ "\n") False := by
  have first := (@loadSettings_gives world invocation.config).mono False.elim
  have second := (@loadTree_gives world invocation.file).mono False.elim
  rw [loaded] at first
  rw [found] at second
  rw [renderLineMode_eq loaded] at success
  have written := @printSource_gives world script _ text success
  refine first.then_ (second.then_ ?_)
  dsimp only
  split
  · exact (@warnOfIssues_gives world _ _).then_ ((world.log_gives _ _ False.elim).then_ written)
  · exact (world.log_gives _ _ False.elim).then_ written

/-! ## What the program does -/

variable {world invocation}

section

variable {arguments : List String} (accepted : readArguments arguments = .ok invocation)
  (asked : invocation.subcommand = .render)

include accepted asked

theorem run_eq_outcome : run world arguments = Session.outcome (render world invocation) := by
  rw [run, accepted]
  dsimp only
  rw [Invocation.run, asked]

theorem run_of_report {report : String} (failed : firstReport? world invocation = some report) :
    (run world arguments).code = 1 ∧ (run world arguments).transcript.stdout = "" ∧
      ∃ log, (world.variableText? World.logVariable = none → log = "") ∧
        (run world arguments).transcript.stderr = log ++ report := by
  rw [run_eq_outcome accepted asked]
  rw [firstReport?_eq] at failed
  cases loaded : world.settings invocation.config with
  | error fault =>
    obtain rfl : (Failure.settings fault).report = report := by simpa [loaded, reportOf?] using failed
    exact (render_gives_settings world invocation loaded).outcome_error
  | ok settings =>
    cases found : Script.load world.files invocation.file with
    | error fault =>
      obtain rfl : (Failure.tree fault).report = report := by simpa [loaded, found, reportOf?] using failed
      exact (render_gives_tree world invocation loaded found).outcome_error
    | ok script => simp [loaded, found, reportOf?] at failed

theorem no_report_of_success (success : (run world arguments).code = 0) : firstReport? world invocation = none := by
  cases failed : firstReport? world invocation with
  | none => rfl
  | some report =>
    have code := (run_of_report accepted asked failed).1
    rw [success] at code
    exact absurd code (by decide)

theorem run_of_source {settings : Settings} {script : Script} {text : String}
    (loaded : world.settings invocation.config = .ok settings)
    (found : Script.load world.files invocation.file = .ok script)
    (success : script.source (renderLineMode world invocation) = .ok text) :
    (run world arguments).code = 0 ∧ (run world arguments).transcript.stdout = text ++ "\n" := by
  rw [run_eq_outcome accepted asked]
  exact (render_gives_text world invocation loaded found success).outcome_ok

end

/-! ## What running `render` comes to -/

/-- With these arguments the program succeeds and writes this text. -/
def World.Prints (world : World) (arguments : List String) (text : String) : Prop :=
  (run world arguments).code = 0 ∧ (run world arguments).transcript.stdout = text

/-- With these arguments the program fails and writes this report alone. -/
def World.Reports (world : World) (arguments : List String) (report : String) : Prop :=
  run world arguments = ⟨1, { stderr := report }⟩

/-- What running `render` comes to. -/
structure Renders (world : World) (arguments : List String) (invocation : Invocation) : Prop where
  /-- It succeeds exactly if no step fails. -/
  succeeds : (run world arguments).code = 0 ↔ firstReport? world invocation = none
  /-- Otherwise the first step that fails is reported, behind what has been logged. -/
  reports : ∀ report, firstReport? world invocation = some report →
    (run world arguments).code = 1 ∧ (run world arguments).transcript.stdout = "" ∧
      ∃ log, (world.variableText? World.logVariable = none → log = "") ∧
        (run world arguments).transcript.stderr = log ++ report
  /-- What is written is the tree in the line mode that is asked for, and a line break. -/
  writes : (run world arguments).code = 0 → ∃ script text, Script.load world.files invocation.file = .ok script ∧
    script.source (renderLineMode world invocation) = .ok text ∧
      (run world arguments).transcript.stdout = text ++ "\n"
  /-- Flags are given by arguments in front of the first one that is nothing but two dashes. -/
  flags : invocation.flags = (arguments.takeWhile (· ≠ "--")).flatMap Flag.given
  /-- At most one flag asks for a line mode. -/
  unambiguous : ¬ (Flag.multiLine ∈ invocation.flags ∧ Flag.singleLine ∈ invocation.flags)
  /-- Nothing else matters: a run with other arguments in another world does the same if the flags for line
  modes are the same, the settings are the same but for whether to check, and the same tree is read. -/
  unchecked : ∀ otherWorld otherArguments otherInvocation, readArguments otherArguments = .ok otherInvocation →
    otherInvocation.subcommand = .render →
    (∀ flag, flag ≠ .noValidate → (flag ∈ otherInvocation.flags ↔ flag ∈ invocation.flags)) →
    (otherWorld.settings otherInvocation.config).map Settings.lineMode =
      (world.settings invocation.config).map Settings.lineMode →
    Script.load otherWorld.files otherInvocation.file = Script.load world.files invocation.file →
    (run otherWorld otherArguments).code = (run world arguments).code ∧
      (run otherWorld otherArguments).transcript.stdout = (run world arguments).transcript.stdout

namespace Renders

variable {arguments : List String} (renders : Renders world arguments invocation)

include renders

theorem prints {settings : Settings} {script : Script} {text : String}
    (loaded : world.settings invocation.config = .ok settings)
    (found : Script.load world.files invocation.file = .ok script)
    (source : script.source (renderLineMode world invocation) = .ok text) : world.Prints arguments (text ++ "\n") := by
  have success : (run world arguments).code = 0 := by
    apply renders.succeeds.mpr
    rw [firstReport?_eq, loaded, found]
    rfl
  obtain ⟨script', text', found', source', stdout⟩ := renders.writes success
  obtain rfl := Except.ok.inj (found.symm.trans found')
  rw [source] at source'
  obtain rfl := Except.ok.inj source'
  exact ⟨success, stdout⟩

theorem reports_only {report : String} (unset : world.variableText? World.logVariable = none)
    (failed : firstReport? world invocation = some report) : world.Reports arguments report := by
  obtain ⟨code, stdout, log, quiet, stderr⟩ := renders.reports report failed
  obtain rfl := quiet unset
  cases ran : run world arguments with
  | mk status transcript =>
    rw [ran] at code stdout stderr
    cases transcript
    simp_all [World.Reports]

end Renders

section

variable {arguments : List String} (accepted : readArguments arguments = .ok invocation)
  (asked : invocation.subcommand = .render)
  (fits : ∀ bytes, world.files invocation.file = .file bytes → bytes.size < 2 ^ 63)

include accepted asked fits

/-- Where no step fails, the tree is written. -/
theorem exists_text_of_no_report (fine : firstReport? world invocation = none) :
    ∃ settings script text, world.settings invocation.config = .ok settings ∧
      Script.load world.files invocation.file = .ok script ∧
      script.source (renderLineMode world invocation) = .ok text ∧ (run world arguments).code = 0 ∧
      (run world arguments).transcript.stdout = text ++ "\n" := by
  rw [firstReport?_eq] at fine
  cases loaded : world.settings invocation.config with
  | error fault => simp [loaded, reportOf?] at fine
  | ok settings =>
    cases found : Script.load world.files invocation.file with
    | error fault => simp [loaded, found, reportOf?] at fine
    | ok script =>
      obtain ⟨text, success⟩ := Script.exists_source_of_load found fits (renderLineMode world invocation)
      have ran := run_of_source accepted asked loaded found success
      exact ⟨settings, script, text, rfl, rfl, success, ran.1, ran.2⟩

/-- A failure to have settings is the same one whichever line mode they would have had. -/
theorem run_unchecked {otherWorld : World} {otherArguments : List String} {otherInvocation : Invocation}
    (otherAccepted : readArguments otherArguments = .ok otherInvocation)
    (otherAsked : otherInvocation.subcommand = .render)
    (flags : ∀ flag, flag ≠ .noValidate → (flag ∈ otherInvocation.flags ↔ flag ∈ invocation.flags))
    (settings : (otherWorld.settings otherInvocation.config).map Settings.lineMode =
      (world.settings invocation.config).map Settings.lineMode)
    (tree : Script.load otherWorld.files otherInvocation.file = Script.load world.files invocation.file) :
    (run otherWorld otherArguments).code = (run world arguments).code ∧
      (run otherWorld otherArguments).transcript.stdout = (run world arguments).transcript.stdout := by
  have same : firstReport? otherWorld otherInvocation = firstReport? world invocation := by
    have faults : reportOf? Failure.settings (otherWorld.settings otherInvocation.config) =
        reportOf? .settings (world.settings invocation.config) := by
      cases other : otherWorld.settings otherInvocation.config <;>
        cases own : world.settings invocation.config <;> simp_all [reportOf?, Except.map]
    rw [firstReport?_eq, firstReport?_eq, faults, tree]
  have lineModes : otherInvocation.lineMode? = invocation.lineMode? := by
    simp only [Invocation.lineMode?, flags .multiLine (by decide), flags .singleLine (by decide)]
  cases failed : firstReport? world invocation with
  | some report =>
    obtain ⟨code, stdout, _⟩ := run_of_report accepted asked failed
    obtain ⟨otherCode, otherStdout, _⟩ := run_of_report otherAccepted otherAsked (same.trans failed)
    exact ⟨otherCode.trans code.symm, otherStdout.trans stdout.symm⟩
  | none =>
    obtain ⟨own, script, text, loaded, found, success, code, stdout⟩ :=
      exists_text_of_no_report accepted asked fits failed
    rw [loaded] at settings
    cases otherLoaded : otherWorld.settings otherInvocation.config with
    | error fault => simp [otherLoaded, Except.map] at settings
    | ok others =>
      have lineMode : others.lineMode = own.lineMode := by simpa [otherLoaded, Except.map] using settings
      rw [renderLineMode_eq loaded, ← lineModes, ← lineMode, ← renderLineMode_eq otherLoaded] at success
      have ran := run_of_source otherAccepted otherAsked otherLoaded (tree.trans found) success
      exact ⟨ran.1.trans code.symm, ran.2.trans stdout.symm⟩

end

end ShellTree.CommandLine
