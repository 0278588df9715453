import Mathlib
import ShellTree.CommandLine.Reports
import ShellTree.Proofs.Rendering

/-!
# The subcommands agree

`check`, `render` and `modes` take their own ways to the tree of a file, but come to the same tree and the
same issues: `check` fails where `render` has issues to report, and reports the same ones, and `modes` writes
what `render` writes in each line mode. `check` and `modes` do not look at the settings, wherever they come
from.
-/

namespace ShellTree.CommandLine

/-! ## What goes to standard error -/

namespace Session.Writes

variable {α β : Type} {session : Session α} {next : α → Session β} {result : α} {out err more : String}

/-- A session that writes to standard error alone, in front of another one. -/
theorem before {last : Except Failure β} (first : session.Writes (.ok result) ⟨"", err⟩)
    (second : (next result).Writes last ⟨out, more⟩) : Writes (session >>= next) last ⟨out, err ++ more⟩ := by
  have both := first.bind second
  rwa [Transcript.mk_append, String.empty_append] at both

/-- A session that writes to standard error alone, in front of one that does not. -/
theorem before_silent {last : Except Failure β} (first : session.Writes (.ok result) ⟨"", err⟩)
    (second : (next result).Writes last ⟨out, ""⟩) : Writes (session >>= next) last ⟨out, err⟩ := by
  have both := first.before second
  rwa [String.append_empty] at both

end Session.Writes

variable (world : World)

theorem World.log_writes (level : Level) (part message : String) :
    ∃ log, world.IsLog log ∧ (world.log level part message).Writes (.ok ()) ⟨"", log⟩ := by
  unfold World.log
  split
  · next logged => exact ⟨_, .entry level part message logged, report_writes _⟩
  · exact ⟨"", .nothing, .pure ()⟩

theorem logs_write (part : String) (issues : List Issue) :
    ∃ log, world.IsLog log ∧
      Session.Writes (issues.forM fun issue => world.log .warning part issue.text) (.ok ()) ⟨"", log⟩ := by
  induction issues with
  | nil => exact ⟨"", .nothing, .pure ()⟩
  | cons issue rest ih =>
    obtain ⟨log, isLog, first⟩ := world.log_writes .warning part issue.text
    obtain ⟨more, isLogToo, others⟩ := ih
    exact ⟨log ++ more, isLog.append isLogToo, first.before others⟩

theorem reportIssues_writes (look : Text.Look) (issues : List Issue) :
    (reportIssues world look issues).Writes (.ok ()) ⟨"", world.issueLines look issues⟩ := by
  induction issues with
  | nil => exact .pure ()
  | cons issue rest ih =>
    rw [World.issueLines, List.map_cons, String.join_cons]
    exact (report_writes (world.issueLine look issue)).before ih

theorem warnOfIssues_writes (path : String) (issues : List Issue) :
    ∃ log, world.IsLog log ∧
      (warnOfIssues world path issues).Writes (.ok ()) ⟨"", world.issueReport path issues ++ log⟩ := by
  obtain ⟨log, isLog, logged⟩ := logs_write world "shprint::handlers::render" issues
  have listed := reportIssues_writes world .yellow issues
  refine ⟨log, isLog, ?_⟩
  cases issues with
  | nil => exact listed.before logged
  | cons issue rest =>
    have inRow : world.issueReport path (issue :: rest) ++ log =
        _ ++ (world.issueLines .yellow (issue :: rest) ++ log) := String.append_assoc
    rw [inRow]
    exact (report_writes _).before (listed.before logged)

variable {path : String} {script : Script}

theorem loadTree_writes (found : Script.load world.files path = .ok script) :
    ∃ log, world.IsLog log ∧ (loadTree world path).Writes (.ok script) ⟨"", log⟩ := by
  obtain ⟨log, isLog, logged⟩ := world.log_writes .debug "shprint::document"
    ("Loaded tree with " ++ script.length.repr ++ " and-or lists")
  refine ⟨log, isLog, ?_⟩
  unfold loadTree
  rw [found]
  exact logged.before_silent (.pure script)

theorem loadTree_fails {failure : Script.LoadFailure} (failed : Script.load world.files path = .error failure) :
    (loadTree world path).Writes (.error (.tree failure)) {} := by
  unfold loadTree
  rw [failed]
  exact .throw _

theorem printSource_writes {mode : LineMode} {text : String} (success : script.source mode = .ok text) :
    ∃ log, world.IsLog log ∧ (printSource world script mode).Writes (.ok ()) ⟨text ++ "\n", log⟩ := by
  obtain ⟨log, isLog, logged⟩ := world.log_writes .debug "shprint::ast"
    ("Rendering shprint::ast::list::Sequence in " ++ mode.text ++ " mode")
  refine ⟨log, isLog, ?_⟩
  unfold printSource
  rw [success]
  exact logged.before_silent (printLine_writes text)

theorem loadSettings_writes {asked : Option String} {settings : Settings}
    (loaded : world.settings asked = .ok settings) :
    ∃ log, world.IsLog log ∧ (loadSettings world asked).Writes (.ok settings) ⟨"", log⟩ := by
  obtain ⟨source, located, taken⟩ := bind_eq_ok.mp loaded
  unfold loadSettings
  rw [located]
  cases source with
  | none =>
    refine ⟨"", .nothing, ?_⟩
    dsimp only
    rw [taken]
    exact .pure settings
  | some file =>
    obtain ⟨log, isLog, logged⟩ := world.log_writes .info "shprint::config"
      (world.paint .cyan "⚙️" ++ " Loading config from: " ++ world.paint .bold file)
    refine ⟨log, isLog, logged.before_silent ?_⟩
    dsimp only
    rw [taken]
    exact .pure settings

/-! ## What the subcommands write -/

theorem check_writes (found : Script.load world.files path = .ok script) (whole : Script.issues script = []) :
    ∃ log, world.IsLog log ∧ (check world path).Writes (.ok ()) ⟨"", log ++ (world.paint .green "✅" ++ " " ++
      world.paint .bold path ++ " is structurally complete." ++ "\n")⟩ := by
  obtain ⟨log, isLog, loaded⟩ := loadTree_writes world found
  refine ⟨log, isLog, loaded.before ?_⟩
  dsimp only
  rw [whole]
  exact report_writes _

theorem check_fails (found : Script.load world.files path = .ok script) (broken : Script.issues script ≠ []) :
    ∃ log, world.IsLog log ∧ (check world path).Writes (.error (.issues (Script.issues script).length path))
      ⟨"", log ++ world.issueLines .red (Script.issues script)⟩ := by
  obtain ⟨log, isLog, loaded⟩ := loadTree_writes world found
  refine ⟨log, isLog, loaded.before ?_⟩
  dsimp only
  rw [if_neg (by simpa using broken)]
  exact (reportIssues_writes world .red _).before_silent (.throw _)

theorem render_writes {invocation : Invocation} {settings : Settings} {text : String}
    (loaded : world.settings invocation.config = .ok settings)
    (found : Script.load world.files invocation.file = .ok script)
    (checks : settings.validate = true ∧ Flag.noValidate ∉ invocation.flags)
    (success : script.source (renderLineMode world invocation) = .ok text) :
    ∃ earlier later, world.IsLog earlier ∧ world.IsLog later ∧ (render world invocation).Writes (.ok ())
      ⟨text ++ "\n", earlier ++ world.issueReport invocation.file (Script.issues script) ++ later⟩ := by
  rw [renderLineMode_eq loaded] at success
  obtain ⟨ofSettings, settingsLog, first⟩ := loadSettings_writes world loaded
  obtain ⟨ofTree, treeLog, second⟩ := loadTree_writes world found
  obtain ⟨ofIssues, issuesLog, third⟩ := warnOfIssues_writes world invocation.file (Script.issues script)
  obtain ⟨ofMode, modeLog, fourth⟩ := world.log_writes .debug "shprint::handlers::render"
    ("Rendering " ++ invocation.file ++ " in " ++ (invocation.lineMode?.getD settings.lineMode).text ++ " mode")
  obtain ⟨ofSource, sourceLog, last⟩ := printSource_writes world success
  refine ⟨ofSettings ++ ofTree, ofIssues ++ (ofMode ++ ofSource), settingsLog.append treeLog,
    issuesLog.append (modeLog.append sourceLog), ?_⟩
  simp only [String.append_assoc]
  refine first.before (second.before ?_)
  dsimp only
  rw [if_pos checks, ← String.append_assoc]
  exact third.before (fourth.before last)

theorem modes_gives {single multi : String} (found : Script.load world.files path = .ok script)
    (onOne : script.source .single = .ok single) (onMany : script.source .multi = .ok multi) :
    (modes world path).Gives (.ok ())
      (modeHeader world .single ++ "\n" ++ (single ++ "\n") ++ "\n" ++
        (modeHeader world .multi ++ "\n" ++ (multi ++ "\n") ++ "\n")) False := by
  have tree := (@loadTree_gives world path).mono False.elim
  rw [found] at tree
  have inMode {mode : LineMode} {text : String} (success : script.source mode = .ok text) :
      Session.Gives (do printLine (modeHeader world mode); printSource world script mode; printLine "") (.ok ())
        (modeHeader world mode ++ "\n" ++ (text ++ "\n") ++ "\n") False := by
    rw [String.append_assoc]
    exact (printLine_gives _).bind ((printSource_gives world success).bind (printLine_gives ""))
  refine tree.then_ ((inMode onOne).bind ?_)
  rw [← @String.append_empty (_ ++ _ ++ "\n")]
  exact (inMode onMany).bind (.pure ())

/-! ## Where settings do not matter -/

/-- Nothing but its own file says what tree a path has. -/
theorem load_congr {files other : Files} (same : other path = files path) :
    Script.load other path = Script.load files path := by
  rw [Script.load, Script.load, Files.holds, Files.holds, Files.text, Files.text, same]

namespace World.SameBut

variable {world} {other : World} (same : world.SameBut other path)

include same

theorem variableText?_eq {name : String} (unlike : name ≠ Settings.variableName) :
    other.variableText? name = world.variableText? name := by
  rw [variableText?, variableText?, same.environment name unlike]

theorem isFilled_eq {name : String} (unlike : name ≠ Settings.variableName) :
    other.isFilled name = world.isFilled name := by
  rw [isFilled, isFilled, same.environment name unlike]

theorem isOn?_eq {name : String} (unlike : name ≠ Settings.variableName) : other.isOn? name = world.isOn? name := by
  rw [isOn?, isOn?, same.variableText?_eq unlike]

theorem paint_eq : other.paint = world.paint := by
  have coloured : other.coloured = world.coloured := by
    rw [World.coloured, World.coloured, same.terminal, same.isOn?_eq (by decide), same.isOn?_eq (by decide),
      same.isOn?_eq (by decide)]
  funext look text
  rw [paint, paint, coloured]

theorem log_eq : other.log = world.log := by
  have keepsLooks : other.keepsLooks = world.keepsLooks := by
    rw [World.keepsLooks, World.keepsLooks, same.reportTerminal, same.isFilled_eq (by decide),
      same.isFilled_eq (by decide), same.isOn?_eq (by decide)]
  have hasLooks : other.logHasLooks = world.logHasLooks := by
    rw [logHasLooks, logHasLooks, same.variableText?_eq (by decide), keepsLooks]
  have limit : other.logLimit = world.logLimit := by
    funext part
    rw [logLimit, logLimit, same.variableText?_eq (by decide)]
  funext level part message
  rw [log, log, logEntry, logEntry, limit, hasLooks]

theorem loadTree_eq : loadTree other path = loadTree world path := by
  rw [loadTree, loadTree, load_congr same.file, same.log_eq]

theorem check_eq : check other path = check world path := by
  rw [check, check, same.loadTree_eq]
  simp only [reportIssues, same.paint_eq]

theorem modes_eq : modes other path = modes world path := by
  rw [modes, modes, same.loadTree_eq]
  simp only [modeHeader, printSource, same.paint_eq, same.log_eq]

end World.SameBut

/-! ## What the program does -/

/-- What running `check` on a file comes to. -/
structure Checks (world : World) (path : String) (outcome : Outcome) : Prop where
  /-- It succeeds exactly if the document loads and its tree lacks nothing. -/
  succeeds : outcome.code = 0 ↔ ∃ script, Script.load world.files path = .ok script ∧ Script.issues script = []
  /-- Nothing goes to standard output. -/
  silent : outcome.transcript.stdout = ""
  /-- Each issue of the tree has its line, in order, and their number comes last. -/
  reports : ∀ script, Script.load world.files path = .ok script → Script.issues script ≠ [] →
    ∃ log, world.IsLog log ∧ outcome.transcript.stderr = log ++ world.issueLines .red (Script.issues script) ++
      ("Error: ❌ " ++ (Script.issues script).length.repr ++ " structural issue(s) in " ++ path ++ "\n")

/-- What running `modes` on a file comes to. -/
structure ListsModes (world : World) (path : String) (outcome : Outcome) : Prop where
  /-- It succeeds exactly if the document loads. -/
  succeeds : outcome.code = 0 ↔ ∃ script, Script.load world.files path = .ok script
  /-- Then it writes a header and what `render` writes, for one line mode and then for the other. -/
  writes : outcome.code = 0 → ∃ single multi, world.RendersAs path .single single ∧ world.RendersAs path .multi multi ∧
    outcome.transcript.stdout =
      modeHeader world .single ++ "\n" ++ single ++ "\n" ++ (modeHeader world .multi ++ "\n" ++ multi ++ "\n")
  /-- Otherwise it writes nothing there. -/
  silent : outcome.code ≠ 0 → outcome.transcript.stdout = ""

/-- How the subcommands agree on a file. -/
structure Agreement (world : World) (path : String) : Prop where
  checks : ∀ arguments, Asks arguments .check path → Checks world path (run world arguments)
  modes : ∀ arguments, Asks arguments .modes path → ListsModes world path (run world arguments)
  /-- If `render` succeeds and has the tree checked, then it reports the issues that `check` reports, and
  reports anything exactly if `check` fails. -/
  renders : ∀ arguments invocation settings, readArguments arguments = .ok invocation →
    invocation.subcommand = .render → invocation.file = path → .noValidate ∉ invocation.flags →
    world.settings invocation.config = .ok settings → settings.validate = true → (run world arguments).code = 0 →
    ∃ script earlier later, Script.load world.files path = .ok script ∧ world.IsLog earlier ∧ world.IsLog later ∧
      (run world arguments).transcript.stderr =
        earlier ++ world.issueReport path (Script.issues script) ++ later ∧
      ∀ checking, Asks checking .check path →
        (world.issueReport path (Script.issues script) ≠ "" ↔ (run world checking).code ≠ 0)
  /-- Settings matter to `render` alone, whether an option, a file or the environment has them. -/
  unset : ∀ other subcommand arguments otherArguments, world.SameBut other path → subcommand ≠ .render →
    Asks arguments subcommand path → Asks otherArguments subcommand path →
    run other otherArguments = run world arguments

variable {world} {arguments : List String}

theorem run_check (asks : Asks arguments .check path) : run world arguments = (check world path).outcome := by
  obtain ⟨invocation, accepted, asked, rfl⟩ := asks
  rw [run, accepted]
  dsimp only
  rw [Invocation.run, asked]

theorem run_modes (asks : Asks arguments .modes path) : run world arguments = (modes world path).outcome := by
  obtain ⟨invocation, accepted, asked, rfl⟩ := asks
  rw [run, accepted]
  dsimp only
  rw [Invocation.run, asked]

theorem issueReport_eq_empty_iff {issues : List Issue} : world.issueReport path issues = "" ↔ issues = [] := by
  cases issues <;> simp [World.issueReport]

/-- What is said at the end if there are issues. -/
theorem report_issues (count : Nat) (path : String) : (Failure.issues count path).report =
    "Error: ❌ " ++ count.repr ++ " structural issue(s) in " ++ path ++ "\n" := by
  have heading : "Error: ❌ " = "Error: " ++ "❌ " := by decide
  simp only [Failure.report, Failure.messages, heading, String.append_assoc]

theorem checks_of_asks (asks : Asks arguments .check path) : Checks world path (run world arguments) := by
  rw [run_check asks]
  cases found : Script.load world.files path with
  | error failure =>
    have stopped : (check world path).Writes (.error (.tree failure)) {} := (loadTree_fails world found).bind_error
    rw [stopped.outcome_error]
    exact ⟨by simp [found, Failure.code], rfl, by simp [found]⟩
  | ok script =>
    by_cases whole : Script.issues script = []
    · obtain ⟨log, isLog, writes⟩ := check_writes world found whole
      rw [writes.outcome_ok]
      exact ⟨by simp [found, whole], rfl, by simp [found, whole]⟩
    · obtain ⟨log, isLog, writes⟩ := check_fails world found whole
      rw [writes.outcome_error]
      refine ⟨by simp [found, whole, Failure.code], rfl, fun other loaded _ => ⟨log, isLog, ?_⟩⟩
      obtain rfl := Except.ok.inj (found.symm.trans loaded)
      rw [report_issues, Transcript.mk_append]

theorem rendersAs_of_source {mode : LineMode} {text : String} (found : Script.load world.files path = .ok script)
    (success : script.source mode = .ok text) : world.RendersAs path mode (text ++ "\n") := by
  rintro other arguments invocation same accepted asked rfl flagged
  have loaded := (load_congr same).trans found
  have asks : renderLineMode other invocation = mode := by
    rw [renderLineMode_eq_getD, flagged]
    rfl
  rw [← asks] at success
  have runs {settings : Settings} (known : other.settings invocation.config = .ok settings) :=
    run_of_source accepted asked known loaded success
  have known (succeeds : (run other arguments).code = 0) :
      ∃ settings, other.settings invocation.config = .ok settings := by
    have fine := no_report_of_success accepted asked succeeds
    rw [firstReport?_eq] at fine
    cases known : other.settings invocation.config with
    | error fault => simp [known, reportOf?] at fine
    | ok settings => exact ⟨settings, rfl⟩
  refine ⟨⟨known, ?_⟩, ?_⟩
  · rintro ⟨settings, settled⟩
    exact (runs settled).1
  · intro succeeds
    obtain ⟨settings, settled⟩ := known succeeds
    exact (runs settled).2

theorem listsModes_of_asks (fits : ∀ bytes, world.files path = .file bytes → bytes.size < 2 ^ 63)
    (asks : Asks arguments .modes path) : ListsModes world path (run world arguments) := by
  rw [run_modes asks]
  cases found : Script.load world.files path with
  | error failure =>
    have stopped : (modes world path).Writes (.error (.tree failure)) {} := (loadTree_fails world found).bind_error
    rw [stopped.outcome_error]
    exact ⟨by simp [found, Failure.code], by simp [Failure.code], fun _ => rfl⟩
  | ok script =>
    obtain ⟨single, onOne⟩ := Script.exists_source_of_load found fits .single
    obtain ⟨multi, onMany⟩ := Script.exists_source_of_load found fits .multi
    obtain ⟨code, stdout⟩ := (modes_gives world found onOne onMany).outcome_ok
    refine ⟨by simp [code, found], fun _ => ?_, fun failed => absurd code failed⟩
    exact ⟨_, _, rendersAs_of_source found onOne, rendersAs_of_source found onMany, stdout⟩

/-- The subcommands agree on every file. Nothing is asked of it but what is true of all files, that its size
can be told by a signed number of 64 bits: the tree of one that is longer might go deeper than levels can be
counted, and then `modes` stops behind a header. -/
theorem subcommands_agree (fits : ∀ bytes, world.files path = .file bytes → bytes.size < 2 ^ 63) :
    Agreement world path where
  checks _ := checks_of_asks
  modes _ := listsModes_of_asks fits
  renders arguments invocation settings accepted asked file unflagged known validate succeeds := by
    subst file
    have fine := no_report_of_success accepted asked succeeds
    obtain ⟨_, script, text, _, found, success, _⟩ := exists_text_of_no_report accepted asked fits fine
    obtain ⟨earlier, later, before, behind, writes⟩ :=
      render_writes world known found ⟨validate, unflagged⟩ success
    refine ⟨script, earlier, later, found, before, behind, ?_, fun checking asks => ?_⟩
    · rw [run_eq_outcome accepted asked, writes.outcome_ok]
    · apply not_congr
      rw [issueReport_eq_empty_iff, (checks_of_asks asks).succeeds]
      simp [found]
  unset := by
    intro other subcommand arguments otherArguments same notRender asks otherAsks
    cases subcommand with
    | render => exact absurd rfl notRender
    | check => rw [run_check asks, run_check otherAsks, same.check_eq]
    | modes => rw [run_modes asks, run_modes otherAsks, same.modes_eq]

/-- A group, and then a pipeline without commands, where the environment asks for many lines. -/
theorem subcommands_agree_incomplete :
    let world : World := .ofFile "tree.toml" "lists = [[[[['grouping', [[[[[['simple', [['a', '1']]]]]]]]]]]], [[]]]"
      "multi"
    (run world ["check", "tree.toml"]).code ≠ 0 ∧
      (∃ earlier later, (run world ["render", "tree.toml"]).transcript.stderr = earlier ++
        "⚠️ tree.toml has structural issues:\n  • lists[1].pipeline: pipeline has no commands\n" ++ later) ∧
      (run world ["modes", "tree.toml"]).transcript.stdout =
        "── single-line ──" ++ "\n" ++ (run world ["render", "-s", "tree.toml"]).transcript.stdout ++ "\n" ++
          ("── multi-line ──" ++ "\n" ++ (run world ["render", "-m", "tree.toml"]).transcript.stdout ++ "\n") ∧
      run { world with environment := fun _ => none } ["--config", "other.toml", "check", "tree.toml"] =
        run world ["check", "tree.toml"] := by
  intro world
  have fits : ∀ bytes, world.files "tree.toml" = .file bytes → bytes.size < 2 ^ 63 := by
    rintro bytes ⟨⟩
    decide
  have agree := subcommands_agree fits
  have settings : world.settings none = .ok { lineMode := .multi } := World.settings_ofFile (by cbv) (by decide)
  have loaded : Script.load world.files "tree.toml" =
      .ok [.mk (.mk false [.group [.mk (.mk false [.simple [⟨"a", ⟨["1"]⟩⟩] [] {}]) [] .sequential] {}]) []
        .sequential, .mk (.mk false []) [] .sequential] := World.load_ofFile (by cbv)
  have checking : Asks ["check", "tree.toml"] .check "tree.toml" := ⟨_, rfl, rfl, rfl⟩
  have configured : Asks ["--config", "other.toml", "check", "tree.toml"] .check "tree.toml" := ⟨_, rfl, rfl, rfl⟩
  have listing : Asks ["modes", "tree.toml"] .modes "tree.toml" := ⟨_, rfl, rfl, rfl⟩
  have same : world.SameBut { world with environment := fun _ => none } "tree.toml" :=
    ⟨rfl, fun _ unlike => (if_neg unlike).symm, rfl, rfl⟩
  have lists := agree.modes _ listing
  have listed : (run world ["modes", "tree.toml"]).code = 0 := lists.succeeds.mpr ⟨_, loaded⟩
  obtain ⟨single, multi, onOne, onMany, stdout⟩ := lists.writes listed
  obtain ⟨oneSucceeds, oneWrites⟩ := onOne world ["render", "-s", "tree.toml"] _ rfl rfl rfl rfl rfl
  obtain ⟨manySucceeds, manyWrites⟩ := onMany world ["render", "-m", "tree.toml"] _ rfl rfl rfl rfl rfl
  have rendering : readArguments ["render", "tree.toml"] = .ok { subcommand := .render, file := "tree.toml" } := rfl
  have fine : firstReport? world { subcommand := .render, file := "tree.toml" } = none := by
    rw [firstReport?_eq, settings, loaded]
    rfl
  obtain ⟨_, _, _, _, _, _, rendered, _⟩ := exists_text_of_no_report rendering rfl fits fine
  obtain ⟨script, earlier, later, found, _, _, stderr, reports⟩ :=
    agree.renders _ _ _ rendering rfl rfl (by decide) settings rfl rendered
  obtain rfl := Except.ok.inj (loaded.symm.trans found)
  refine ⟨(reports _ checking).mp (by decide), ⟨earlier, later, ?_⟩, ?_, ?_⟩
  · rw [stderr]
    rfl
  · rw [stdout, oneWrites (oneSucceeds.mpr ⟨_, settings⟩), manyWrites (manySucceeds.mpr ⟨_, settings⟩)]
    rfl
  · exact agree.unset _ .check _ _ same (by decide) checking configured

end ShellTree.CommandLine
