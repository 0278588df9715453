import Mathlib.Data.List.TakeDrop
import Mathlib.Data.List.TakeWhile
import ShellTree.CommandLine.Steps
import ShellTree.Success

/-!
# The flags of accepted arguments

Arguments are taken one by one, and what is pending may be examined long after it was taken. Flags do not
depend on that: those of an invocation are the ones that the arguments give, in order, up to an argument
that is nothing but two dashes. Behind it there are no options, and in front of the subcommand no flags.
Among the flags that are accepted there is at most one for a line mode.
-/

namespace ShellTree.CommandLine

/-! ## One argument -/

/-- A letter that names a parameter names a flag, or asks for a text about the program. -/
theorem Scope.flag_of_short? {scope : Scope} {letter : Char} {parameter : Parameter}
    (known : scope.short? letter = some parameter) :
    parameter = .help ∨ parameter = .version ∨
      ∃ flag, scope = .inside .render ∧ parameter = .flag flag ∧ Flag.ofLetter? letter = some flag := by
  unfold short? at known
  split at known
  · cases known
    exact .inl rfl
  · split at known <;> cases known
    exact .inr (.inl rfl)
  · split at known
    · next inRender =>
      cases known
      exact .inr (.inr ⟨_, inRender, rfl, rfl⟩)
    · cases known
  · split at known
    · next inRender =>
      cases known
      exact .inr (.inr ⟨_, inRender, rfl, rfl⟩)
    · cases known
  · cases known

/-- A long name that is known is one of a flag, or of the settings, or asks for a text about the program. -/
theorem Scope.flag_of_long? {scope : Scope} {name : String} {parameter : Parameter}
    (known : scope.long? name = some parameter) :
    parameter = .help ∨ parameter = .version ∨ (parameter = .config ∧ Flag.ofName? name = none) ∨
      ∃ flag, scope = .inside .render ∧ parameter = .flag flag ∧ Flag.ofName? name = some flag := by
  unfold long? at known
  split at known
  · cases known
    exact .inr (.inr (.inl ⟨rfl, by decide⟩))
  · cases known
    exact .inl rfl
  · split at known <;> cases known
    exact .inr (.inl rfl)
  · split at known
    · next inRender =>
      cases known
      exact .inr (.inr (.inr ⟨_, inRender, rfl, by decide⟩))
    · cases known
  · split at known
    · next inRender =>
      cases known
      exact .inr (.inr (.inr ⟨_, inRender, rfl, by decide⟩))
    · cases known
  · split at known
    · next inRender =>
      cases known
      exact .inr (.inr (.inr ⟨_, inRender, rfl, by decide⟩))
    · cases known
  · cases known

/-- No name of a flag has an equals sign. -/
theorem Flag.ofName?_of_mem {name : String} (equals : '=' ∈ name.toList) : Flag.ofName? name = none := by
  have apart : ∀ entry ∈ [("multi-line", multiLine), ("single-line", singleLine), ("no-validate", noValidate)],
      '=' ∉ entry.1.toList := by decide
  rw [ofName?, List.lookup_eq_none_iff]
  intro entry member
  rw [bne_iff_ne]
  intro same
  rw [same] at equals
  exact apart entry member equals

namespace Flag

variable {argument : String}

theorem given_long {name : List Char} (shape : argument.toList = '-' :: '-' :: name) :
    given argument = (ofName? (String.ofList name)).toList := by
  simp only [given, shape]

theorem given_short {letter : Char} {letters : List Char} (short : letter ≠ '-')
    (shape : argument.toList = '-' :: letter :: letters) :
    given argument = (letter :: letters).filterMap ofLetter? := by
  rw [given, shape]
  split
  · next long =>
    cases long
    exact absurd rfl short
  · next same =>
    cases same
    rfl
  · next none => exact absurd rfl (none _)

/-- A text that does not start with a dash, or is nothing else, gives no flags. -/
theorem given_nothing (plain : ∀ letter letters, argument.toList ≠ '-' :: letter :: letters) : given argument = [] := by
  rw [given]
  split
  · next shape => exact absurd shape (plain _ _)
  · next letters _ shape =>
    cases letters with
    | nil => rfl
    | cons letter letters => exact absurd shape (plain _ _)
  · rfl

end Flag

namespace Progress

/-- From one progress to the next no flags are given, and options end no earlier. -/
structure Keeps (progress next : Progress) : Prop where
  flags : next.flags = progress.flags
  filesOnly : next.filesOnly = progress.filesOnly

/-- From one progress to the next these flags are given, for which only `render` has a use. -/
structure Adds (scope : Scope) (progress : Progress) (given : List Flag) (next : Progress) : Prop where
  flags : next.flags = progress.flags ++ given
  filesOnly : next.filesOnly = progress.filesOnly
  inRender : given ≠ [] → scope = .inside .render

variable {progress middle next : Progress} {scope : Scope} {given more : List Flag}

theorem Keeps.adds (keeps : progress.Keeps next) : Adds scope progress [] next where
  flags := keeps.flags.trans (List.append_nil _).symm
  filesOnly := keeps.filesOnly
  inRender := absurd rfl

theorem Adds.trans (first : Adds scope progress given middle) (second : Adds scope middle more next) :
    Adds scope progress (given ++ more) next where
  flags := by rw [second.flags, first.flags, List.append_assoc]
  filesOnly := second.filesOnly.trans first.filesOnly
  inRender some := by
    by_cases nothing : given = []
    · exact second.inRender (by simpa [nothing] using some)
    · exact first.inRender nothing

theorem keeps_of_accept {parameter : Parameter} {value : String}
    (accepted : progress.accept parameter value = .ok next) : progress.Keeps next := by
  unfold accept at accepted
  split at accepted
  · cases accepted
  · split at accepted
    · cases accepted
    · split at accepted <;> cases accepted <;> exact ⟨rfl, rfl⟩

theorem keeps_of_settle (settled : progress.settle = .ok next) : progress.Keeps next := by
  unfold settle at settled
  split at settled
  · cases settled
    exact ⟨rfl, rfl⟩
  · cases settled
  · obtain ⟨flags, filesOnly⟩ := keeps_of_accept settled
    exact ⟨flags, filesOnly⟩

theorem keeps_of_takeFile {argument : String} (taken : progress.takeFile scope argument = .ok next) :
    progress.Keeps next := by
  unfold takeFile at taken
  split at taken
  · split at taken <;> cases taken
  · dsimp only at taken
    split at taken
    · cases taken
    · obtain ⟨settled, examined, taken⟩ := bind_eq_ok.mp taken
      obtain ⟨flags, filesOnly⟩ := keeps_of_settle examined
      cases taken
      exact ⟨flags, filesOnly⟩

theorem adds_of_takePlain {flag : Flag} (inRender : scope = .inside .render)
    (taken : progress.takePlain scope (.flag flag) = .ok next) : Adds scope progress [flag] next := by
  obtain ⟨settled, examined, taken⟩ := bind_eq_ok.mp taken
  obtain ⟨flags, filesOnly⟩ := keeps_of_settle examined
  dsimp only at taken
  split at taken
  · cases taken
  · cases taken
    exact ⟨by rw [flags], filesOnly, fun _ => inRender⟩

theorem takePlain_ne_ok {parameter : Parameter} (textOnly : parameter = .help ∨ parameter = .version) :
    progress.takePlain scope parameter ≠ .ok next := by
  intro taken
  obtain ⟨_, _, taken⟩ := bind_eq_ok.mp taken
  rcases textOnly with rfl | rfl <;> cases taken

/-- Letters behind one dash give their flags in order. -/
theorem adds_of_takeShort {letters : List Char} (taken : progress.takeShort scope letters = .ok next) :
    Adds scope progress (letters.filterMap Flag.ofLetter?) next := by
  induction letters generalizing progress with
  | nil =>
    cases taken
    exact Keeps.adds ⟨rfl, rfl⟩
  | cons letter rest ih =>
    unfold takeShort at taken
    split at taken
    · next parameter known =>
      obtain ⟨middle, first, others⟩ := bind_eq_ok.mp taken
      rcases Scope.flag_of_short? known with help | version | ⟨flag, inRender, rfl, named⟩
      · exact absurd first (takePlain_ne_ok (.inl help))
      · exact absurd first (takePlain_ne_ok (.inr version))
      · rw [List.filterMap_cons_some named]
        exact (adds_of_takePlain inRender first).trans (ih others)
    · cases taken

/-- A long option gives the flag with its name, and only the settings come with a value. -/
theorem adds_of_takeLong {name : String} {value : Option String}
    (taken : progress.takeLong scope name value = .ok next) :
    Adds scope progress (if value.isNone then (Flag.ofName? name).toList else []) next := by
  unfold takeLong at taken
  split at taken
  · obtain ⟨settled, examined, taken⟩ := bind_eq_ok.mp taken
    exact (keeps_of_settle examined).adds.trans (keeps_of_accept taken).adds
  · next known =>
    obtain ⟨settled, examined, taken⟩ := bind_eq_ok.mp taken
    obtain ⟨flags, filesOnly⟩ := keeps_of_settle examined
    cases taken
    rcases Scope.flag_of_long? known with no | no | ⟨_, unnamed⟩ | ⟨_, _, no, _⟩
    · cases no
    · cases no
    · rw [unnamed]
      exact Keeps.adds ⟨flags, filesOnly⟩
    · cases no
  · next parameter notSettings known =>
    rcases Scope.flag_of_long? known with help | version | ⟨settings, _⟩ | ⟨flag, inRender, rfl, named⟩
    · exact absurd taken (takePlain_ne_ok (.inl help))
    · exact absurd taken (takePlain_ne_ok (.inr version))
    · exact absurd settings notSettings
    · rw [named]
      exact adds_of_takePlain inRender taken
  · cases taken
  · cases taken

/-- A value starts with an equals sign, which no flag has in its name. -/
theorem adds_of_takeOption {option : List Char}
    (taken : progress.takeLong scope (String.ofList (option.takeWhile (· ≠ '=')))
      (if (option.dropWhile (· ≠ '=')).isEmpty then none
        else some (String.ofList ((option.dropWhile (· ≠ '=')).drop 1))) = .ok next) :
    Adds scope progress (Flag.ofName? (String.ofList option)).toList next := by
  have adds := adds_of_takeLong taken
  cases value : option.dropWhile (· ≠ '=') with
  | nil =>
    have name : option.takeWhile (· ≠ '=') = option :=
      List.takeWhile_eq_self_iff.mpr (List.dropWhile_eq_nil_iff.mp value)
    rwa [value, name] at adds
  | cons sign rest =>
    have equals : sign = '=' := by
      have stopped := List.head?_dropWhile_not (· ≠ '=') option
      rw [value] at stopped
      simpa using stopped
    have among : '=' ∈ (String.ofList option).toList := by
      rw [String.toList_ofList, ← equals]
      exact (List.dropWhile_sublist _).subset (value ▸ List.mem_cons_self)
    rw [Flag.ofName?_of_mem among]
    rwa [value] at adds

/-- What an argument gives, be it an option, the two dashes in front of files, or a file. -/
structure Takes (scope : Scope) (progress : Progress) (argument : String) (next : Progress) : Prop where
  flags : next.flags = progress.flags ++ if next.filesOnly then [] else Flag.given argument
  filesOnly : next.filesOnly = true ↔ progress.filesOnly = true ∨ argument = "--"
  inRender : next.filesOnly = false → Flag.given argument ≠ [] → scope = .inside .render

theorem Adds.takes {argument : String} (adds : Adds scope progress (Flag.given argument) next)
    (options : progress.filesOnly = false) (other : argument.toList ≠ ['-', '-']) :
    Takes scope progress argument next := by
  have apart : argument ≠ "--" := by
    rintro rfl
    exact other rfl
  have still : next.filesOnly = false := adds.filesOnly.trans options
  exact ⟨by simp [still, adds.flags], by simp [still, options, apart], fun _ => adds.inRender⟩

/-- One argument gives its flags, unless there are only files any more. -/
theorem takes_of_take {argument : String} (taken : progress.take scope argument = .ok next) :
    Takes scope progress argument next := by
  unfold take at taken
  split at taken
  · next files =>
    obtain ⟨flags, filesOnly⟩ := keeps_of_takeFile taken
    rw [files] at filesOnly
    exact ⟨by simp [flags, filesOnly], by simp [filesOnly, files], by simp [filesOnly]⟩
  · next options =>
    rw [Bool.not_eq_true] at options
    split at taken
    · next shape =>
      have dashes : argument = "--" := String.toList_inj.mp shape
      cases taken
      exact ⟨by simp, by simp [dashes], by simp⟩
    · next option notEmpty shape =>
      have apart : argument.toList ≠ ['-', '-'] := by simpa [shape] using notEmpty
      apply Adds.takes _ options apart
      rw [Flag.given_long shape]
      rw [List.span_eq_takeWhile_dropWhile] at taken
      exact adds_of_takeOption taken
    · next letter letters notEmpty notLong shape =>
      have apart : argument.toList ≠ ['-', '-'] := by simpa [shape] using notEmpty
      apply Adds.takes _ options apart
      rw [Flag.given_short notLong shape]
      exact adds_of_takeShort taken
    · next notEmpty notLong notShort =>
      apply Adds.takes _ options notEmpty
      rw [Flag.given_nothing notShort]
      split at taken
      · cases taken
        exact Keeps.adds ⟨rfl, rfl⟩
      · exact (keeps_of_takeFile taken).adds

end Progress

/-! ## All arguments -/

/-- The flags that some arguments give, up to the first one that is nothing but two dashes. -/
theorem flags_of_foldlM {scope : Scope} {arguments : List String} {progress last : Progress}
    (taken : arguments.foldlM (fun progress => progress.take scope) progress = .ok last) :
    last.flags = progress.flags ++
      if progress.filesOnly then [] else (arguments.takeWhile (· ≠ "--")).flatMap Flag.given := by
  induction arguments generalizing progress with
  | nil =>
    cases taken
    simp
  | cons argument rest ih =>
    rw [List.foldlM_cons] at taken
    obtain ⟨middle, first, others⟩ := bind_eq_ok.mp taken
    obtain ⟨flags, filesOnly, _⟩ := Progress.takes_of_take first
    rw [ih others, flags]
    by_cases files : progress.filesOnly = true
    · simp [filesOnly.mpr (.inl files), files]
    · by_cases dashes : argument = "--"
      · simp [filesOnly.mpr (.inr dashes), files, dashes]
      · have still : ¬ middle.filesOnly = true := by simp [filesOnly, files, dashes]
        simp [still, files, dashes]

theorem flags_of_readInside {subcommand : Subcommand} {arguments : List String} {invocation : Invocation}
    (accepted : readInside subcommand arguments = .ok invocation) :
    invocation.flags = (arguments.takeWhile (· ≠ "--")).flatMap Flag.given := by
  obtain ⟨taken, options, accepted⟩ := bind_eq_ok.mp accepted
  obtain ⟨progress, settled, accepted⟩ := bind_eq_ok.mp accepted
  have given := flags_of_foldlM options
  have kept := (Progress.keeps_of_settle settled).flags
  split at accepted
  · cases accepted
  · cases accepted
  · cases accepted
    rw [kept, given]
    rfl

theorem given_of_ofName? {name : String} {subcommand : Subcommand} (known : Subcommand.ofName? name = some subcommand) :
    Flag.given name = [] ∧ name ≠ "--" := by
  unfold Subcommand.ofName? at known
  split at known <;> cases known <;> decide

/-- In front of the subcommand there are options without flags, and files are not wanted. -/
theorem flags_of_readProgram {arguments : List String} {invocation : Invocation} {progress : Progress}
    (accepted : readProgram progress arguments = .ok invocation) :
    progress.filesOnly = false ∧ invocation.flags = (arguments.takeWhile (· ≠ "--")).flatMap Flag.given := by
  induction arguments generalizing progress with
  | nil =>
    obtain ⟨_, _, accepted⟩ := bind_eq_ok.mp accepted
    cases accepted
  | cons argument rest ih =>
    have onward {next : Progress} (taken : progress.take .program argument = .ok next)
        (accepted : readProgram next rest = .ok invocation) :
        progress.filesOnly = false ∧
          invocation.flags = ((argument :: rest).takeWhile (· ≠ "--")).flatMap Flag.given := by
      obtain ⟨options, flags⟩ := ih accepted
      obtain ⟨_, filesOnly, inRender⟩ := Progress.takes_of_take taken
      rw [options] at filesOnly
      obtain ⟨before, apart⟩ := not_or.mp (filesOnly.not.mp Bool.false_ne_true)
      have nothing : Flag.given argument = [] := by
        by_contra some
        cases inRender options some
      refine ⟨Bool.not_eq_true _ ▸ before, ?_⟩
      simp [apart, nothing, flags]
    unfold readProgram at accepted
    split at accepted
    · obtain ⟨_, taken, accepted⟩ := bind_eq_ok.mp accepted
      exact onward taken accepted
    · next options =>
      split at accepted
      · cases accepted
      · split at accepted
        · next known =>
          obtain ⟨_, inside, accepted⟩ := bind_eq_ok.mp accepted
          obtain ⟨_, _, accepted⟩ := bind_eq_ok.mp accepted
          obtain ⟨nothing, apart⟩ := given_of_ofName? known
          have flags := flags_of_readInside inside
          cases accepted
          refine ⟨by simp_all, ?_⟩
          simp [apart, nothing, flags]
        · obtain ⟨_, taken, accepted⟩ := bind_eq_ok.mp accepted
          exact onward taken accepted

/-! ## Contradicting flags -/

/-- Of the two flags for line modes, no more than one is accepted. -/
theorem not_both_of_conflict? {flags : List Flag} (harmless : conflict? flags = none) :
    ¬ (Flag.multiLine ∈ flags ∧ Flag.singleLine ∈ flags) := by
  rintro ⟨multi, single⟩
  have multiLeft : Flag.multiLine ∈ flags.filter (· ≠ .noValidate) := List.mem_filter.mpr ⟨multi, rfl⟩
  have singleLeft : Flag.singleLine ∈ flags.filter (· ≠ .noValidate) := List.mem_filter.mpr ⟨single, rfl⟩
  unfold conflict? at harmless
  generalize flags.filter (· ≠ .noValidate) = left at multiLeft singleLeft harmless
  match left, harmless with
  | [], _ => cases multiLeft
  | [flag], _ =>
    rw [List.mem_singleton] at multiLeft singleLeft
    cases multiLeft.trans singleLeft.symm

theorem not_both_of_readInside {subcommand : Subcommand} {arguments : List String} {invocation : Invocation}
    (accepted : readInside subcommand arguments = .ok invocation) :
    ¬ (Flag.multiLine ∈ invocation.flags ∧ Flag.singleLine ∈ invocation.flags) := by
  obtain ⟨_, _, accepted⟩ := bind_eq_ok.mp accepted
  obtain ⟨progress, _, accepted⟩ := bind_eq_ok.mp accepted
  split at accepted
  · cases accepted
  · cases accepted
  · next harmless _ =>
    cases accepted
    exact not_both_of_conflict? harmless

theorem not_both_of_readProgram {arguments : List String} {invocation : Invocation} : ∀ {progress : Progress},
    readProgram progress arguments = .ok invocation →
    ¬ (Flag.multiLine ∈ invocation.flags ∧ Flag.singleLine ∈ invocation.flags) := by
  induction arguments with
  | nil =>
    intro progress accepted
    obtain ⟨_, _, accepted⟩ := bind_eq_ok.mp accepted
    cases accepted
  | cons argument rest ih =>
    intro progress accepted
    unfold readProgram at accepted
    split at accepted
    · obtain ⟨_, _, accepted⟩ := bind_eq_ok.mp accepted
      exact ih accepted
    · split at accepted
      · cases accepted
      · split at accepted
        · obtain ⟨_, inside, accepted⟩ := bind_eq_ok.mp accepted
          obtain ⟨_, _, accepted⟩ := bind_eq_ok.mp accepted
          have consistent := not_both_of_readInside inside
          cases accepted
          exact consistent
        · obtain ⟨_, _, accepted⟩ := bind_eq_ok.mp accepted
          exact ih accepted

end ShellTree.CommandLine
