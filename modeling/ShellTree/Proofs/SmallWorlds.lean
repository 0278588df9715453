import ShellTree.CommandLine.Steps
import ShellTree.Success

/-!
# Small worlds

Worlds that hold a few files by their paths, and a few variables. What the program reads of such a world is
what it was made of, whatever the bytes that the texts take.
-/

namespace ShellTree.CommandLine

/-- A world with one file, in which the environment asks for a line mode. -/
def World.ofFile (path text lineMode : String) : World where
  files other := if other = path then .file text.toUTF8 else .absent
  environment name := if name = Settings.variableName then some lineMode.toUTF8 else none
  directory := ""

/-- A world in which nothing has a name but these entries, and these variables are set. -/
def World.holding (entries : List (String × Lookup)) (exported : List (String × String)) (directory : String := "") :
    World where
  files path := (entries.lookup path).getD .absent
  environment name := (exported.lookup name).map String.toUTF8
  directory

theorem fromUTF8?_toUTF8 (text : String) : String.fromUTF8? text.toUTF8 = some text := dif_pos text.isValidUTF8

namespace World

variable {entries : List (String × Lookup)} {exported : List (String × String)}
  {directory path text : String}

theorem variableText?_holding (name : String) :
    (holding entries exported directory).variableText? name = exported.lookup name := by
  change ((exported.lookup name).map String.toUTF8).bind String.fromUTF8? = _
  cases exported.lookup name with
  | none => rfl
  | some text => exact fromUTF8?_toUTF8 text

theorem holds_holding {bytes : ByteArray} (entry : entries.lookup path = some (.file bytes)) :
    (holding entries exported directory).files.holds path = true := by
  simp [Files.holds, holding, entry]

theorem text_holding (entry : entries.lookup path = some (.file text.toUTF8)) :
    (holding entries exported directory).files.text path = .ok text := by
  simp only [Files.text, holding, entry, Option.getD_some, fromUTF8?_toUTF8]

theorem load_holding (entry : entries.lookup path = some (.file text.toUTF8)) :
    Script.load (holding entries exported directory).files path = (Script.ofText text).mapError (.invalid path) := by
  rw [Script.load, if_pos (holds_holding entry), text_holding entry]
  dsimp only
  cases Script.ofText text <;> rfl

theorem size_holding {limit : Nat} (entry : entries.lookup path = some (.file text.toUTF8))
    (short : text.utf8ByteSize < limit) :
    ∀ bytes, (holding entries exported directory).files path = .file bytes → bytes.size < limit := by
  intro bytes held
  have same : Lookup.file text.toUTF8 = .file bytes := by simpa only [holding, entry, Option.getD_some] using held
  rwa [← Lookup.file.inj same]

theorem override_named {base : Settings} {mode : LineMode} (named : LineMode.ofText? text = some mode) :
    base.override (some text) = .ok { base with lineMode := mode } := by
  rw [Settings.override, named]

/-- Without a file there are the usual settings, under the environment. -/
theorem settings_holding (absent : entries.lookup (Files.join directory Settings.fileName) = none) :
    (holding entries exported directory).settings none =
      Settings.override {} (exported.lookup Settings.variableName) := by
  have nowhere : Settings.source? (holding entries exported directory).files directory none = .ok none := by
    simp [Settings.source?, Files.holds, holding, absent]
  have source : (holding entries exported directory).settings none =
      Settings.source? (holding entries exported directory).files directory none >>= _ := rfl
  rw [source, nowhere, variableText?_holding]
  rfl

/-- The settings of a file, be it asked for or not, are those that it spells, under the environment. -/
theorem settings_holding_file {asked : Option String}
    (named : asked.getD (Files.join directory Settings.fileName) = path)
    (entry : entries.lookup path = some (.file text.toUTF8)) :
    (holding entries exported directory).settings asked =
      (readDocument Decode.settings text).mapError (.invalid path) >>=
        fun base => base.override (exported.lookup Settings.variableName) := by
  have there : Settings.source? (holding entries exported directory).files directory asked = .ok (some path) := by
    subst named
    cases asked with
    | none => exact congrArg Except.ok (if_pos (holds_holding entry))
    | some path => exact if_pos (holds_holding entry)
  have read : Settings.ofFile (holding entries exported directory).files path =
      (readDocument Decode.settings text).mapError (.invalid path) := by
    rw [Settings.ofFile, text_holding entry]
    dsimp only
    cases readDocument Decode.settings text <;> rfl
  have source : (holding entries exported directory).settings asked =
      Settings.source? (holding entries exported directory).files directory asked >>= _ := rfl
  rw [source, there, variableText?_holding, ← read]
  rfl

theorem settings_holding_decoded {asked : Option String} {base : Settings}
    (named : asked.getD (Files.join directory Settings.fileName) = path)
    (entry : entries.lookup path = some (.file text.toUTF8))
    (decoded : readDocument Decode.settings text = .ok base) :
    (holding entries exported directory).settings asked =
      base.override (exported.lookup Settings.variableName) := by
  rw [settings_holding_file named entry, decoded]
  rfl

theorem ofFile_eq_holding (path text lineMode : String) : ofFile path text lineMode =
    holding [(path, .file text.toUTF8)] [(Settings.variableName, lineMode)] := by
  rw [ofFile, holding]
  congr 1
  · funext other
    by_cases same : other = path
    · simp [same]
    · simp [List.lookup_cons, beq_false_of_ne same, same]
  · funext name
    by_cases same : name = Settings.variableName
    · simp [same]
    · simp [List.lookup_cons, beq_false_of_ne same, same]

variable {lineMode : String}

theorem load_ofFile {script : Script} (parsed : Script.ofText text = .ok script) :
    Script.load (ofFile path text lineMode).files path = .ok script := by
  rw [ofFile_eq_holding, load_holding List.lookup_cons_self, parsed]
  rfl

theorem settings_ofFile {mode : LineMode} (named : LineMode.ofText? lineMode = some mode)
    (elsewhere : path ≠ Settings.fileName) : (ofFile path text lineMode).settings none = .ok { lineMode := mode } := by
  have usual : Files.join "" Settings.fileName = Settings.fileName := rfl
  rw [ofFile_eq_holding, settings_holding (by simp [usual, List.lookup_cons, beq_false_of_ne elsewhere.symm]),
    List.lookup_cons_self, override_named named]

end World

end ShellTree.CommandLine
