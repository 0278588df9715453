import ShellTree.Decode.Tree
import ShellTree.Document
import ShellTree.Proofs.Levels
import ShellTree.Toml.Consumption
import ShellTree.Tree.Breaks

/-!
# How much a document can hold

Each link and each group of a tree is spelled by a table or an array of its own, and has a name of its
own inside it. So the values that spell a tree weigh twice as much as there are links and groups in it,
and a document has to be twice as long.
-/

namespace ShellTree

namespace Decode

open Toml (Value Members elementsWeight membersWeight)

/-- What the value of a key weighs, if there is one. -/
def weightAt (key : String) (members : Members) : Nat := ((members.lookup key).map Value.weight).getD 0

theorem weightAt_cons (key other : String) (value : Value) (rest : Members) :
    weightAt key ((other, value) :: rest) = if other = key then value.weight else weightAt key rest := by
  unfold weightAt
  rw [List.lookup_cons]
  by_cases same : other = key
  · simp [same]
  · have apart : (key == other) = false := beq_false_of_ne (Ne.symm same)
    simp [apart, same]

theorem weightAt_le (key : String) (members : Members) : weightAt key members ≤ membersWeight members := by
  induction members with
  | nil => simp [weightAt]
  | cons member rest ih =>
    obtain ⟨other, value⟩ := member
    rw [weightAt_cons, membersWeight]
    split <;> omega

/-- Two keys have different values. -/
theorem weightAt_add_le {key other : String} (apart : key ≠ other) (members : Members) :
    weightAt key members + weightAt other members ≤ membersWeight members := by
  induction members with
  | nil => simp [weightAt]
  | cons member rest ih =>
    obtain ⟨present, value⟩ := member
    have first := weightAt_le key rest
    have second := weightAt_le other rest
    rw [weightAt_cons, weightAt_cons, membersWeight]
    split
    · next same =>
      subst same
      rw [if_neg apart]
      omega
    · split <;> omega

/-- A field that has to be there weighs something. -/
theorem weightAt_pos_of_required {α : Type} {key : String} {members : Members} {decode : Value → Decoded α}
    {found : Option α} {result : α} (decoded : (members.lookup key).mapM decode = .ok found)
    (there : required key found = .ok result) : 0 < weightAt key members := by
  unfold weightAt
  cases lookup : members.lookup key with
  | none =>
    rw [lookup] at decoded
    cases decoded
    cases there
  | some value => exact value.weight_pos

theorem mem_of_required {α : Type} {key : String} {found : Option α} {result : α}
    (there : required key found = .ok result) : result ∈ found := by
  cases found with
  | none => cases there
  | some value => exact congrArg some (Except.ok.inj there)

theorem breaks_simpleOfMembers {members : Members} {result : Command}
    (decoded : simpleOfMembers members = .ok result) : result.breaks = 0 := by
  obtain ⟨_, _, decoded⟩ := bind_eq_ok.mp decoded
  obtain ⟨_, _, decoded⟩ := bind_eq_ok.mp decoded
  obtain ⟨_, _, decoded⟩ := bind_eq_ok.mp decoded
  cases decoded
  rfl

theorem breaks_simpleOfElements {result : Command} : ∀ {fields : List Value}, simpleOfElements fields = .ok result →
    result.breaks = 0
  | [], decoded => by
    cases decoded
    rfl
  | [_], decoded => by
    obtain ⟨_, _, decoded⟩ := bind_eq_ok.mp decoded
    cases decoded
    rfl
  | [_, _], decoded => by
    obtain ⟨_, _, decoded⟩ := bind_eq_ok.mp decoded
    obtain ⟨_, _, decoded⟩ := bind_eq_ok.mp decoded
    cases decoded
    rfl
  | _ :: _ :: _ :: _, decoded => by
    obtain ⟨_, _, decoded⟩ := bind_eq_ok.mp decoded
    obtain ⟨_, _, decoded⟩ := bind_eq_ok.mp decoded
    obtain ⟨_, _, decoded⟩ := bind_eq_ok.mp decoded
    obtain ⟨_, _, decoded⟩ := bind_eq_ok.mp decoded
    cases decoded
    rfl

theorem breaks_enclosing_le (subshell : Bool) (body : Script) (location : Location) :
    (enclosing subshell body location).breaks ≤ AndOr.breaksOf body + 1 := by
  cases subshell with
  | false => exact Nat.le_refl _
  | true => exact Nat.le_succ _

/-! ## The links and groups of what is decoded -/

mutual

/-- What a value decodes to has half as many links and groups at most as there are values in it. The
recursion is that of the decoders; a decoder that looks for a field only counts the value of that. -/
theorem breaks_script {place : Place} : ∀ {value : Value} {result : Script}, script place value = .ok result →
    2 * AndOr.breaksOf result ≤ value.weight
  | .array [], result, decoded => by
    cases decoded
    exact Nat.zero_le _
  | .array (lists :: left), result, decoded => by
    obtain ⟨found, items, decoded⟩ := bind_eq_ok.mp decoded
    obtain ⟨_, _, decoded⟩ := bind_eq_ok.mp decoded
    cases decoded
    have bound := breaks_andOrs items
    simp only [Value.weight, elementsWeight]
    omega
  | .table members, result, decoded => by
    obtain ⟨_, _, decoded⟩ := bind_eq_ok.mp decoded
    have bound := breaks_listsIn decoded
    have inside := weightAt_le "lists" members
    simp only [Value.weight]
    omega
  | .dateTime _, result, decoded => by
    cases decoded
    exact Nat.zero_le _

theorem breaks_listsIn {place : Place} : ∀ {members : Members} {result : Script}, listsIn place members = .ok result →
    2 * AndOr.breaksOf result ≤ weightAt "lists" members
  | [], result, decoded => by
    cases decoded
    exact Nat.zero_le _
  | (key, value) :: rest, result, decoded => by
    rw [weightAt_cons]
    unfold listsIn at decoded
    split at decoded
    · next same =>
      rw [if_pos same]
      exact breaks_andOrs decoded
    · next apart =>
      rw [if_neg apart]
      exact breaks_listsIn decoded

theorem breaks_andOrs {place : Place} : ∀ {value : Value} {result : List AndOr}, andOrs place value = .ok result →
    2 * AndOr.breaksOf result ≤ value.weight
  | .array _, _, decoded => Nat.le_succ_of_le (breaks_andOrItems decoded)

theorem breaks_andOrItems {place : Place} : ∀ {values : List Value} {result : List AndOr},
    andOrItems place values = .ok result → 2 * AndOr.breaksOf result ≤ elementsWeight values
  | [], result, decoded => by
    cases decoded
    exact Nat.zero_le _
  | value :: rest, result, decoded => by
    obtain ⟨first, item, decoded⟩ := bind_eq_ok.mp decoded
    obtain ⟨others, items, decoded⟩ := bind_eq_ok.mp decoded
    cases decoded
    have bound := breaks_andOr item
    have bounds := breaks_andOrItems items
    simp only [AndOr.breaksOf, elementsWeight]
    omega

theorem breaks_andOr {place : Place} : ∀ {value : Value} {result : AndOr}, andOr place value = .ok result →
    2 * result.breaks ≤ value.weight
  | .array [first], result, decoded => by
    obtain ⟨_, item, decoded⟩ := bind_eq_ok.mp decoded
    cases decoded
    have bound := breaks_pipeline item
    simp only [AndOr.breaks, Link.breaksOf, Value.weight, elementsWeight]
    omega
  | .array [first, rest], result, decoded => by
    obtain ⟨_, item, decoded⟩ := bind_eq_ok.mp decoded
    obtain ⟨_, items, decoded⟩ := bind_eq_ok.mp decoded
    cases decoded
    have bound := breaks_pipeline item
    have bounds := breaks_links items
    simp only [AndOr.breaks, Value.weight, elementsWeight]
    omega
  | .array (first :: rest :: ending :: left), result, decoded => by
    obtain ⟨_, item, decoded⟩ := bind_eq_ok.mp decoded
    obtain ⟨_, items, decoded⟩ := bind_eq_ok.mp decoded
    obtain ⟨_, _, decoded⟩ := bind_eq_ok.mp decoded
    obtain ⟨_, _, decoded⟩ := bind_eq_ok.mp decoded
    cases decoded
    have bound := breaks_pipeline item
    have bounds := breaks_links items
    simp only [AndOr.breaks, Value.weight, elementsWeight]
    omega
  | .table members, result, decoded => by
    obtain ⟨_, _, decoded⟩ := bind_eq_ok.mp decoded
    obtain ⟨found, item, decoded⟩ := bind_eq_ok.mp decoded
    obtain ⟨_, items, decoded⟩ := bind_eq_ok.mp decoded
    obtain ⟨_, _, decoded⟩ := bind_eq_ok.mp decoded
    obtain ⟨first, there, decoded⟩ := bind_eq_ok.mp decoded
    cases decoded
    have bound := breaks_pipelineIn item first (mem_of_required there)
    have bounds := breaks_linksIn items
    have both := weightAt_add_le (by decide : "pipeline" ≠ "rest") members
    simp only [AndOr.breaks, Value.weight]
    omega

theorem breaks_pipeline {place : Place} : ∀ {value : Value} {result : Pipeline}, pipeline place value = .ok result →
    2 * result.breaks ≤ value.weight
  | .array [], result, decoded => by
    cases decoded
    exact Nat.zero_le _
  | .array [members], result, decoded => by
    obtain ⟨_, items, decoded⟩ := bind_eq_ok.mp decoded
    cases decoded
    have bounds := breaks_commands items
    simp only [Pipeline.breaks, Value.weight, elementsWeight]
    omega
  | .array (members :: status :: left), result, decoded => by
    obtain ⟨_, items, decoded⟩ := bind_eq_ok.mp decoded
    obtain ⟨_, _, decoded⟩ := bind_eq_ok.mp decoded
    obtain ⟨_, _, decoded⟩ := bind_eq_ok.mp decoded
    cases decoded
    have bounds := breaks_commands items
    simp only [Pipeline.breaks, Value.weight, elementsWeight]
    omega
  | .table members, result, decoded => by
    obtain ⟨_, _, decoded⟩ := bind_eq_ok.mp decoded
    obtain ⟨_, items, decoded⟩ := bind_eq_ok.mp decoded
    obtain ⟨_, _, decoded⟩ := bind_eq_ok.mp decoded
    cases decoded
    have bounds := breaks_commandsIn items
    have inside := weightAt_le "commands" members
    simp only [Pipeline.breaks, Value.weight]
    omega
  | .dateTime _, result, decoded => by
    cases decoded
    exact Nat.zero_le _

theorem breaks_pipelineIn {place : Place} : ∀ {members : Members} {found : Option Pipeline},
    pipelineIn place members = .ok found → ∀ result ∈ found, 2 * result.breaks ≤ weightAt "pipeline" members
  | [], found, decoded, result, member => by
    cases decoded
    cases member
  | (key, value) :: rest, found, decoded, result, member => by
    rw [weightAt_cons]
    unfold pipelineIn at decoded
    split at decoded
    · next same =>
      obtain ⟨_, item, decoded⟩ := bind_eq_ok.mp decoded
      cases decoded
      obtain rfl := Option.some.inj member
      rw [if_pos same]
      exact breaks_pipeline item
    · next apart =>
      rw [if_neg apart]
      exact breaks_pipelineIn decoded result member

theorem breaks_links {place : Place} : ∀ {value : Value} {result : List Link}, links place value = .ok result →
    2 * Link.breaksOf result ≤ value.weight
  | .array _, _, decoded => Nat.le_succ_of_le (breaks_linkItems decoded)

theorem breaks_linkItems {place : Place} : ∀ {values : List Value} {result : List Link},
    linkItems place values = .ok result → 2 * Link.breaksOf result ≤ elementsWeight values
  | [], result, decoded => by
    cases decoded
    exact Nat.zero_le _
  | value :: rest, result, decoded => by
    obtain ⟨first, item, decoded⟩ := bind_eq_ok.mp decoded
    obtain ⟨others, items, decoded⟩ := bind_eq_ok.mp decoded
    cases decoded
    have bound := breaks_link item
    have bounds := breaks_linkItems items
    simp only [Link.breaksOf, elementsWeight]
    omega

theorem breaks_linksIn {place : Place} : ∀ {members : Members} {result : List Link},
    linksIn place members = .ok result → 2 * Link.breaksOf result ≤ weightAt "rest" members
  | [], result, decoded => by
    cases decoded
    exact Nat.zero_le _
  | (key, value) :: rest, result, decoded => by
    rw [weightAt_cons]
    unfold linksIn at decoded
    split at decoded
    · next same =>
      rw [if_pos same]
      exact breaks_links decoded
    · next apart =>
      rw [if_neg apart]
      exact breaks_linksIn decoded

theorem breaks_link {place : Place} : ∀ {value : Value} {result : Link}, link place value = .ok result →
    2 * result.breaks ≤ value.weight
  | .array [operator], result, decoded => by
    obtain ⟨_, _, decoded⟩ := bind_eq_ok.mp decoded
    cases decoded
    have name := operator.weight_pos
    simp only [Link.breaks, Pipeline.empty, Pipeline.breaks, Command.breaksOf, Value.weight, elementsWeight]
    omega
  | .array (operator :: guarded :: left), result, decoded => by
    obtain ⟨_, _, decoded⟩ := bind_eq_ok.mp decoded
    obtain ⟨_, item, decoded⟩ := bind_eq_ok.mp decoded
    obtain ⟨_, _, decoded⟩ := bind_eq_ok.mp decoded
    cases decoded
    have name := operator.weight_pos
    have bound := breaks_pipeline item
    simp only [Link.breaks, Value.weight, elementsWeight]
    omega
  | .table members, result, decoded => by
    obtain ⟨_, _, decoded⟩ := bind_eq_ok.mp decoded
    obtain ⟨_, named, decoded⟩ := bind_eq_ok.mp decoded
    obtain ⟨found, item, decoded⟩ := bind_eq_ok.mp decoded
    obtain ⟨_, there, decoded⟩ := bind_eq_ok.mp decoded
    cases decoded
    have name := weightAt_pos_of_required named there
    have both := weightAt_add_le (by decide : "condition" ≠ "pipeline") members
    have bound := breaks_pipelineIn item
    simp only [Link.breaks, Value.weight]
    cases found with
    | none =>
      simp only [Option.getD_none, Pipeline.empty, Pipeline.breaks, Command.breaksOf]
      omega
    | some guarded =>
      have inside := bound guarded rfl
      simp only [Option.getD_some]
      omega

theorem breaks_commands : ∀ {value : Value} {result : List Command}, commands value = .ok result →
    2 * Command.breaksOf result ≤ value.weight
  | .array _, _, decoded => Nat.le_succ_of_le (breaks_commandItems decoded)

theorem breaks_commandItems : ∀ {values : List Value} {result : List Command},
    commandItems values = .ok result → 2 * Command.breaksOf result ≤ elementsWeight values
  | [], result, decoded => by
    cases decoded
    exact Nat.zero_le _
  | value :: rest, result, decoded => by
    obtain ⟨_, _, decoded⟩ := bind_eq_ok.mp decoded
    obtain ⟨first, item, decoded⟩ := bind_eq_ok.mp decoded
    obtain ⟨others, items, decoded⟩ := bind_eq_ok.mp decoded
    cases decoded
    have bound := breaks_command item
    have bounds := breaks_commandItems items
    simp only [Command.breaksOf, elementsWeight]
    omega

theorem breaks_commandsIn : ∀ {members : Members} {result : List Command}, commandsIn members = .ok result →
    2 * Command.breaksOf result ≤ weightAt "commands" members
  | [], result, decoded => by
    cases decoded
    exact Nat.zero_le _
  | (key, value) :: rest, result, decoded => by
    rw [weightAt_cons]
    unfold commandsIn at decoded
    split at decoded
    · next same =>
      rw [if_pos same]
      exact breaks_commands decoded
    · next apart =>
      rw [if_neg apart]
      exact breaks_commandsIn decoded

theorem breaks_command : ∀ {value : Value} {result : Command}, command value = .ok result →
    2 * result.breaks ≤ value.weight
  | .array (kind :: fields), result, decoded => by
    have name := kind.weight_pos
    obtain ⟨named, _, decoded⟩ := bind_eq_ok.mp decoded
    simp only [Value.weight, elementsWeight]
    cases named with
    | simple =>
      rw [breaks_simpleOfElements decoded]
      exact Nat.zero_le _
    | group =>
      have bound := breaks_enclosingOfElements decoded
      omega
    | subshell =>
      have bound := breaks_enclosingOfElements decoded
      omega
  | .table members, result, decoded => by
    obtain ⟨found, given, decoded⟩ := bind_eq_ok.mp decoded
    obtain ⟨named, there, decoded⟩ := bind_eq_ok.mp decoded
    have name := weightAt_pos_of_required given there
    have both := weightAt_add_le (by decide : "kind" ≠ "body") members
    simp only [Value.weight]
    cases named with
    | simple =>
      rw [breaks_simpleOfMembers decoded]
      exact Nat.zero_le _
    | group =>
      obtain ⟨_, items, decoded⟩ := bind_eq_ok.mp decoded
      obtain ⟨_, _, decoded⟩ := bind_eq_ok.mp decoded
      cases decoded
      have bound := breaks_bodyIn items
      simp only [Command.breaks]
      omega
    | subshell =>
      obtain ⟨_, items, decoded⟩ := bind_eq_ok.mp decoded
      obtain ⟨_, _, decoded⟩ := bind_eq_ok.mp decoded
      cases decoded
      have bound := breaks_bodyIn items
      simp only [Command.breaks]
      omega

/-- The kind of a command is no part of its fields, and weighs something itself. -/
theorem breaks_enclosingOfElements {subshell : Bool} : ∀ {fields : List Value} {result : Command},
    enclosingOfElements subshell fields = .ok result → 2 * result.breaks ≤ elementsWeight fields + 2
  | [], result, decoded => by
    cases decoded
    have bound := breaks_enclosing_le subshell [] {}
    simp only [AndOr.breaksOf, elementsWeight] at bound ⊢
    omega
  | [body], result, decoded => by
    obtain ⟨lists, items, decoded⟩ := bind_eq_ok.mp decoded
    cases decoded
    have bounds := breaks_script items
    have bound := breaks_enclosing_le subshell lists {}
    simp only [elementsWeight]
    omega
  | body :: place :: left, result, decoded => by
    obtain ⟨lists, items, decoded⟩ := bind_eq_ok.mp decoded
    obtain ⟨found, _, decoded⟩ := bind_eq_ok.mp decoded
    obtain ⟨_, _, decoded⟩ := bind_eq_ok.mp decoded
    cases decoded
    have bounds := breaks_script items
    have bound := breaks_enclosing_le subshell lists found
    simp only [elementsWeight]
    omega

theorem breaks_bodyIn : ∀ {members : Members} {result : Script}, bodyIn members = .ok result →
    2 * AndOr.breaksOf result ≤ weightAt "body" members
  | [], result, decoded => by
    cases decoded
    exact Nat.zero_le _
  | (key, value) :: rest, result, decoded => by
    rw [weightAt_cons]
    unfold bodyIn at decoded
    split at decoded
    · next same =>
      rw [if_pos same]
      exact breaks_script decoded
    · next apart =>
      rw [if_neg apart]
      exact breaks_bodyIn decoded

end

end Decode

/-- A tree has half as many links and groups at most as there are characters in a document of it. -/
theorem Script.breaks_of_ofText {text : String} {script : Script} (read : Script.ofText text = .ok script) :
    2 * script.breaks ≤ text.length := by
  unfold Script.ofText readDocument at read
  split at read
  · cases read
  · next members parsed =>
    have weight := Toml.weight_of_parse parsed
    split at read
    · next result decoded =>
      obtain rfl := Except.ok.inj read
      obtain ⟨_, _, decoded⟩ := bind_eq_ok.mp decoded
      have bound := Decode.breaks_listsIn decoded
      have inside := Decode.weightAt_le "lists" members
      unfold Script.breaks
      omega
    · cases read

/-- A text has no more characters than bytes. -/
theorem length_le_utf8ByteSize (text : String) : text.length ≤ text.utf8ByteSize := by
  rw [← String.length_toList]
  conv => rhs; rw [← @String.ofList_toList text]
  generalize text.toList = chars
  induction chars with
  | nil => exact Nat.zero_le _
  | cons c rest ih =>
    have whole : String.ofList (c :: rest) = String.singleton c ++ String.ofList rest := by simp
    have size := c.utf8Size_pos
    rw [whole, String.utf8ByteSize_append, String.utf8ByteSize_singleton, List.length_cons]
    omega

theorem Files.size_of_text {files : Files} {path text : String} (read : files.text path = .ok text) :
    ∃ bytes, files path = .file bytes ∧ text.utf8ByteSize = bytes.size := by
  unfold Files.text at read
  split at read
  · cases read
  · cases read
  · cases read
  · next bytes found =>
    split at read
    · next decoded valid =>
      obtain rfl := Except.ok.inj read
      refine ⟨bytes, found, ?_⟩
      unfold String.fromUTF8? at valid
      split at valid
      · obtain rfl := Option.some.inj valid
        rfl
      · cases valid
    · cases read

/-- A tree has half as many links and groups at most as there are bytes in the file that it is read from. -/
theorem Script.breaks_of_load {files : Files} {path : String} {script : Script}
    (loaded : Script.load files path = .ok script) :
    ∃ bytes, files path = .file bytes ∧ 2 * script.breaks ≤ bytes.size := by
  unfold Script.load at loaded
  split at loaded
  · split at loaded
    · cases loaded
    · next text read =>
      split at loaded
      · cases loaded
      · next found parsed =>
        obtain rfl := Except.ok.inj loaded
        obtain ⟨bytes, file, size⟩ := Files.size_of_text read
        have bound := breaks_of_ofText parsed
        have short := length_le_utf8ByteSize text
        exact ⟨bytes, file, by omega⟩
  · cases loaded

/-- A tree that is read from a file can be written in either mode, as long as the size of the file can be
told by a signed number of 64 bits. -/
theorem Script.exists_source_of_load {files : Files} {path : String} {script : Script}
    (loaded : Script.load files path = .ok script)
    (fits : ∀ bytes, files path = .file bytes → bytes.size < 2 ^ 63) (mode : LineMode) :
    ∃ text, script.source mode = .ok text := by
  obtain ⟨bytes, file, bound⟩ := breaks_of_load loaded
  have size := fits bytes file
  have wide : 2 ^ 62 ≤ mode.levelLimit := by cases mode <;> decide
  have room : script.breaks < mode.levelLimit := by omega
  exact exists_source room

end ShellTree
