import Mathlib
import ShellTree.CommandLine.Steps
import ShellTree.Proofs.Wording
import ShellTree.Success

/-!
# The line mode and the first report

The settings and the tree of an invocation, against what is said of them one by one: the line mode that
settings come with is the one that their sources name, and where they or the tree fail, what is reported is
the report of the first of the steps that fails.
-/

namespace ShellTree.CommandLine

variable {world : World} {invocation : Invocation}

/-! ## Settings -/

theorem lineMode_of_rendering {settings : Settings} : ∀ {value : Toml.Value}, Decode.rendering value = .ok settings →
    settings.lineMode = (Settings.lineModeIn? value).getD .single
  | .array [], decoded => by
    cases decoded
    rfl
  | .array [mode], decoded => by
    obtain ⟨lineMode, named, decoded⟩ := bind_eq_ok.mp decoded
    cases decoded
    simp [Settings.lineModeIn?, named, Except.toOption]
  | .array (mode :: _ :: _), decoded => by
    obtain ⟨lineMode, named, decoded⟩ := bind_eq_ok.mp decoded
    obtain ⟨_, _, decoded⟩ := bind_eq_ok.mp decoded
    cases decoded
    simp [Settings.lineModeIn?, named, Except.toOption]
  | .table rendering, decoded => by
    obtain ⟨_, _, decoded⟩ := bind_eq_ok.mp decoded
    obtain ⟨lineMode, named, decoded⟩ := bind_eq_ok.mp decoded
    obtain ⟨_, _, decoded⟩ := bind_eq_ok.mp decoded
    cases decoded
    cases given : rendering.lookup "line-mode" with
    | none =>
      rw [given] at named
      cases named
      simp [Settings.lineModeIn?, given]
    | some mode =>
      have known : Decode.lineMode mode = .ok lineMode := by rwa [given] at named
      simp [Settings.lineModeIn?, given, known, Except.toOption]
  | .dateTime _, decoded => by
    cases decoded
    rfl

/-- Settings that decode have the line mode that their members name, or are for a single line. -/
theorem lineMode_of_decode {members : Toml.Members} {settings : Settings}
    (decoded : Decode.settings members = .ok settings) :
    settings.lineMode = (Settings.givenLineMode? members).getD .single := by
  obtain ⟨_, _, decoded⟩ := bind_eq_ok.mp decoded
  unfold Settings.givenLineMode?
  cases found : members.lookup "render" with
  | none =>
    rw [found] at decoded
    cases decoded
    rfl
  | some value =>
    rw [found] at decoded
    exact lineMode_of_rendering decoded

/-- The settings of a file have the line mode that the file names, or are for a single line. -/
theorem lineMode_of_ofFile {files : Files} {path : String} {settings : Settings}
    (loaded : Settings.ofFile files path = .ok settings) :
    ∃ text members, files.text path = .ok text ∧ Toml.parse text = .ok members ∧
      settings.lineMode = (Settings.givenLineMode? members).getD .single := by
  unfold Settings.ofFile readDocument at loaded
  split at loaded
  · cases loaded
  · next text read =>
    split at loaded
    · cases loaded
    · next found decoded =>
      obtain rfl : found = settings := by simpa using loaded
      split at decoded
      · cases decoded
      · next members parsed =>
        split at decoded
        · next given fits =>
          obtain rfl : given = found := by simpa using decoded
          exact ⟨text, members, read, parsed, lineMode_of_decode fits⟩
        · cases decoded

theorem source?_eq_ok {source asked : Option String}
    (found : Settings.source? world.files world.directory asked = .ok source) : world.settingsFile? asked = source := by
  cases asked with
  | none => exact Except.ok.inj found
  | some path =>
    by_cases there : world.files.holds path = true
    · simpa [Settings.source?, World.settingsFile?, there] using found
    · simp [Settings.source?, there] at found

/-- The names of line modes in the environment. -/
theorem environmentLineMode?_eq :
    world.environmentLineMode? = (world.variableText? Settings.variableName).bind LineMode.ofText? := by
  refine congrArg _ (funext fun text => ?_)
  rw [LineMode.ofText?]
  generalize LineMode.normalize text = name
  by_cases single : name = "single" ∨ name = "single-line"
  · rw [if_pos single]
    rcases single with rfl | rfl <;> rfl
  · rw [if_neg single]
    by_cases multi : name = "multi" ∨ name = "multi-line"
    · rw [if_pos multi]
      rcases multi with rfl | rfl <;> rfl
    · rw [if_neg multi, List.lookup_eq_none_iff]
      rw [not_or] at single multi
      simp [single.1, single.2, multi.1, multi.2]

theorem lineMode_of_override {base settings : Settings}
    (overridden : base.override (world.variableText? Settings.variableName) = .ok settings) :
    settings.lineMode = world.environmentLineMode?.getD base.lineMode := by
  rw [environmentLineMode?_eq]
  cases found : world.variableText? Settings.variableName with
  | none =>
    rw [found] at overridden
    cases overridden
    rfl
  | some text =>
    rw [found, Settings.override] at overridden
    cases named : LineMode.ofText? text with
    | none => simp [named] at overridden
    | some mode =>
      obtain rfl : { base with lineMode := mode } = settings := by simpa [named] using overridden
      simp [named]

/-- The line mode of settings is that of the environment, else that of the file, else a single line. -/
theorem lineMode_of_settings {asked : Option String} {settings : Settings}
    (loaded : world.settings asked = .ok settings) :
    settings.lineMode = (world.environmentLineMode? <|> world.fileLineMode? asked).getD .single := by
  obtain ⟨source, found, loaded⟩ := bind_eq_ok.mp loaded
  have file : world.settingsFile? asked = source := source?_eq_ok found
  have fallback : ∃ base : Settings, base.lineMode = (world.fileLineMode? asked).getD .single ∧
      base.override (world.variableText? Settings.variableName) = .ok settings := by
    cases source with
    | none => exact ⟨{}, by simp [World.fileLineMode?, file], loaded⟩
    | some path =>
      obtain ⟨base, read, overridden⟩ := bind_eq_ok.mp loaded
      obtain ⟨text, members, contents, parsed, lineMode⟩ := lineMode_of_ofFile read
      exact ⟨base, by simp [World.fileLineMode?, file, contents, parsed, lineMode, Except.toOption], overridden⟩
  obtain ⟨base, ofFile, overridden⟩ := fallback
  rw [lineMode_of_override overridden, ofFile]
  cases world.environmentLineMode? <;> rfl

theorem renderLineMode_eq_getD : renderLineMode world invocation = invocation.lineMode?.getD
    ((world.environmentLineMode? <|> world.fileLineMode? invocation.config).getD .single) := by
  rw [renderLineMode, Invocation.lineMode?]
  split
  · rfl
  · split <;> rfl

theorem renderLineMode_eq {settings : Settings} (loaded : world.settings invocation.config = .ok settings) :
    renderLineMode world invocation = invocation.lineMode?.getD settings.lineMode := by
  rw [renderLineMode_eq_getD, lineMode_of_settings loaded]

/-! ## The first report -/

/-- What is reported of a result, which is nothing unless it is a failure. -/
def reportOf? {ε α : Type} (wrap : ε → Failure) : Except ε α → Option String
  | .error failure => some (wrap failure).report
  | .ok _ => none

variable (world : World) (invocation : Invocation)

theorem report?_environment (settings : Settings) :
    Step.report? world invocation .environment =
      reportOf? .settings (settings.override (world.variableText? Settings.variableName)) := by
  have known := @environmentLineMode?_eq world
  cases found : world.variableText? Settings.variableName with
  | none => simp [Step.report?, found, Settings.override, reportOf?]
  | some text =>
    rw [found, Option.bind_some] at known
    cases named : LineMode.ofText? text with
    | none =>
      simp [Step.report?, found, known, named, Settings.override, reportOf?, report_unknownLineMode]
    | some mode => simp [Step.report?, found, known, named, Settings.override, reportOf?]

/-- From the settings file on, settings fail as the first of their steps does. -/
theorem findSome?_ofSource :
    [Step.settingsReading, .settingsParsing, .environment].findSome? (Step.report? world invocation) =
      reportOf? .settings (Settings.ofSource world.files (world.settingsFile? invocation.config)
        (world.variableText? Settings.variableName)) := by
  cases source : world.settingsFile? invocation.config with
  | none =>
    have last := report?_environment world invocation {}
    have reading : Step.report? world invocation .settingsReading = none := by simp [Step.report?, source]
    have parsing : Step.report? world invocation .settingsParsing = none := by simp [Step.report?, source]
    simp [reading, parsing, last, Settings.ofSource]
  | some path =>
    cases read : world.files.text path with
    | error fault =>
      have reading : Step.report? world invocation .settingsReading =
          some (Failure.settings (.unreadable path fault)).report := by
        rw [report_settingsUnreadable]
        simp [Step.report?, source, read]
      simp [reading, Settings.ofSource, Settings.ofFile, read, reportOf?, bind, Except.bind]
    | ok text =>
      have reading : Step.report? world invocation .settingsReading = none := by simp [Step.report?, source, read]
      cases parsed : readDocument Decode.settings text with
      | error fault =>
        have parsing : Step.report? world invocation .settingsParsing =
            some (Failure.settings (.invalid path fault)).report := by
          rw [report_settingsInvalid]
          simp [Step.report?, source, read, parsed, Except.toOption]
        simp [reading, parsing, Settings.ofSource, Settings.ofFile, read, parsed, reportOf?, bind, Except.bind]
      | ok settings =>
        have parsing : Step.report? world invocation .settingsParsing = none := by
          simp [Step.report?, source, read, parsed, Except.toOption]
        have last := report?_environment world invocation settings
        simp [reading, parsing, last, Settings.ofSource, Settings.ofFile, read, parsed, bind, Except.bind]

theorem findSome?_settings :
    [Step.settingsExistence, .settingsReading, .settingsParsing, .environment].findSome?
        (Step.report? world invocation) =
      reportOf? .settings (world.settings invocation.config) := by
  rw [List.findSome?_cons]
  cases asked : invocation.config with
  | none =>
    have existence : Step.report? world invocation .settingsExistence = none := by simp [Step.report?, asked]
    have source : Settings.source? world.files world.directory none = .ok (world.settingsFile? none) := rfl
    simp only [existence, findSome?_ofSource, World.settings, Settings.load, asked, source]
    rfl
  | some path =>
    by_cases there : world.files.holds path = true
    · have existence : Step.report? world invocation .settingsExistence = none := by
        simp [Step.report?, asked, there]
      simp [existence, findSome?_ofSource, World.settings, Settings.load, Settings.source?, asked, there,
        World.settingsFile?, bind, Except.bind]
    · have existence : Step.report? world invocation .settingsExistence =
          some (Failure.settings (.notFound path)).report := by
        rw [report_settingsNotFound]
        simp [Step.report?, asked, there]
      simp [existence, World.settings, Settings.load, Settings.source?, there, reportOf?, bind, Except.bind]

theorem findSome?_tree :
    [Step.treeExistence, .treeReading, .treeParsing].findSome? (Step.report? world invocation) =
      reportOf? .tree (Script.load world.files invocation.file) := by
  by_cases there : world.files.holds invocation.file = true
  · cases read : world.files.text invocation.file with
    | error fault => simp [Step.report?, read, Script.load, there, reportOf?, report_treeUnreadable]
    | ok text =>
      cases parsed : Script.ofText text with
      | error fault =>
        simp [Step.report?, read, parsed, Script.load, there, reportOf?, Except.toOption, report_treeInvalid]
      | ok script => simp [Step.report?, read, parsed, Script.load, there, reportOf?, Except.toOption]
  · simp [Step.report?, Script.load, there, reportOf?, report_treeNotFound]

/-- Settings come before the tree. -/
theorem firstReport?_eq : firstReport? world invocation =
    (reportOf? .settings (world.settings invocation.config)).or
      (reportOf? .tree (Script.load world.files invocation.file)) := by
  rw [← findSome?_settings, ← findSome?_tree, ← List.findSome?_append]
  rfl

variable {world invocation}

theorem firstReport?_of_settings {failure : Settings.Failure}
    (failed : world.settings invocation.config = .error failure) :
    firstReport? world invocation = some (Failure.settings failure).report := by
  rw [firstReport?_eq, failed]
  rfl

theorem firstReport?_of_tree {settings : Settings} {failure : Script.LoadFailure}
    (loaded : world.settings invocation.config = .ok settings)
    (failed : Script.load world.files invocation.file = .error failure) :
    firstReport? world invocation = some (Failure.tree failure).report := by
  rw [firstReport?_eq, loaded, failed]
  rfl

end ShellTree.CommandLine
