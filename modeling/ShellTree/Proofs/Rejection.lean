import ShellTree.Decode.Spoiling
import ShellTree.Proofs.Decoding
import ShellTree.Success

/-!
# Spoiled documents are refused

Decoding stops at the first fault, so a value that decodes has decoded in all its parts: every field of a
record that is there, and every element of an array. Nothing that goes wrong is mended by a default, or by
another way of reading a word. So a spelling in which one thing has gone wrong, however deep, does not decode
(`Script.document_of_spoiled`).
-/

namespace ShellTree

open Toml (Value Members)

namespace Decode

/-- A value that decodes. -/
def Accepts {α : Type} (decode : Value → Decoded α) (value : Value) : Prop := ∃ result, decode value = .ok result

section

variable {α : Type} {decode : Value → Decoded α} {found : Option Value} {elements : List Value} {fallback result : α}

/-- A field that may be missing decodes if it is there. -/
theorem accepts_of_optional (decoded : optional fallback decode found = .ok result) :
    ∀ value ∈ found, Accepts decode value := by
  rintro value ⟨⟩
  exact ⟨result, decoded⟩

theorem accepts_of_mapM {result : Option α} (decoded : found.mapM decode = .ok result) :
    ∀ value ∈ found, Accepts decode value := by
  rintro value ⟨⟩
  rw [Option.mapM_some] at decoded
  obtain ⟨result, decoded, _⟩ := bind_eq_ok.mp decoded
  exact ⟨result, decoded⟩

theorem accepts_of_items {results : List α} (decoded : items decode elements = .ok results) :
    ∀ element ∈ elements, Accepts decode element := by
  induction elements generalizing results with
  | nil => simp
  | cons element rest ih =>
    obtain ⟨first, head, decoded⟩ := bind_eq_ok.mp decoded
    obtain ⟨others, tail, _⟩ := bind_eq_ok.mp decoded
    exact List.forall_mem_cons.mpr ⟨⟨first, head⟩, ih tail⟩

end

/-! ## Arrays -/

theorem andOrItems_eq_items (place : Place) (elements : List Value) :
    andOrItems place elements = items (andOr place) elements := by
  induction elements with
  | nil => rw [andOrItems, items]
  | cons element rest ih => rw [andOrItems, items, ih]

theorem linkItems_eq_items (place : Place) (elements : List Value) :
    linkItems place elements = items (link place) elements := by
  induction elements with
  | nil => rw [linkItems, items]
  | cons element rest ih => rw [linkItems, items, ih]

/-- The elements of an array all decode if the array does. -/
theorem accepts_of_andOrs {place : Place} {elements : List Value}
    (accepted : Accepts (andOrs place) (.array elements)) :
    ∀ element ∈ elements, Accepts (andOr place) element := by
  obtain ⟨lists, decoded⟩ := accepted
  rw [andOrs, andOrItems_eq_items] at decoded
  exact accepts_of_items decoded

theorem accepts_of_links {place : Place} {elements : List Value} (accepted : Accepts (links place) (.array elements)) :
    ∀ element ∈ elements, Accepts (link place) element := by
  obtain ⟨links, decoded⟩ := accepted
  rw [Decode.links, linkItems_eq_items] at decoded
  exact accepts_of_items decoded

theorem accepts_of_commands {elements : List Value} (accepted : Accepts commands (.array elements)) :
    ∀ element ∈ elements, Accepts command element := by
  obtain ⟨results, decoded⟩ := accepted
  rw [commands] at decoded
  induction elements generalizing results with
  | nil => simp
  | cons element rest ih =>
    rw [commandItems] at decoded
    obtain ⟨_, _, decoded⟩ := bind_eq_ok.mp decoded
    obtain ⟨first, head, decoded⟩ := bind_eq_ok.mp decoded
    obtain ⟨others, tail, _⟩ := bind_eq_ok.mp decoded
    exact List.forall_mem_cons.mpr ⟨⟨first, head⟩, ih others tail⟩

/-! ## Records -/

section

variable {place : Place} {members : Members}

/-- What the fields of a table decode as, if the table does. -/
theorem fields_of_script (accepted : Accepts (script place) (.table members)) :
    ∀ value ∈ members.lookup "lists", Accepts (andOrs place) value := by
  obtain ⟨result, decoded⟩ := accepted
  rw [script, listsIn_eq] at decoded
  obtain ⟨_, _, decoded⟩ := bind_eq_ok.mp decoded
  exact accepts_of_optional decoded

/-- The pipeline of a table, looked for as one that may be missing. -/
theorem accepts_of_pipelineIn {found : Option Pipeline} (decoded : pipelineIn place members = .ok found) :
    (∀ value ∈ members.lookup "pipeline", Accepts (pipeline place) value) ∧
      (members.lookup "pipeline" = none → found = none) := by
  rw [pipelineIn_eq] at decoded
  constructor
  · intro value present
    obtain ⟨found, decoded⟩ := accepts_of_optional decoded value present
    dsimp only at decoded
    cases inner : pipeline place value with
    | ok result => exact ⟨result, inner⟩
    | error fault =>
      rw [inner] at decoded
      cases decoded
  · intro absent
    rw [absent] at decoded
    exact (Except.ok.inj decoded).symm

theorem fields_of_andOr (accepted : Accepts (andOr place) (.table members)) :
    members.lookup "pipeline" ≠ none ∧ (∀ value ∈ members.lookup "pipeline", Accepts (pipeline place) value) ∧
      (∀ value ∈ members.lookup "rest", Accepts (links place) value) ∧
      ∀ value ∈ members.lookup "synchronicity", Accepts (terminator place) value := by
  obtain ⟨result, decoded⟩ := accepted
  rw [andOr, linksIn_eq] at decoded
  obtain ⟨_, _, decoded⟩ := bind_eq_ok.mp decoded
  obtain ⟨first, firstDecoded, decoded⟩ := bind_eq_ok.mp decoded
  obtain ⟨rest, restDecoded, decoded⟩ := bind_eq_ok.mp decoded
  obtain ⟨ending, endingDecoded, decoded⟩ := bind_eq_ok.mp decoded
  obtain ⟨firstAccepted, firstAbsent⟩ := accepts_of_pipelineIn firstDecoded
  refine ⟨?_, firstAccepted, accepts_of_optional restDecoded, accepts_of_optional endingDecoded⟩
  intro absent
  rw [firstAbsent absent] at decoded
  cases decoded

theorem fields_of_pipeline (accepted : Accepts (pipeline place) (.table members)) :
    (∀ value ∈ members.lookup "commands", Accepts commands value) ∧
      ∀ value ∈ members.lookup "exit_status", Accepts (exitStatus place) value := by
  obtain ⟨result, decoded⟩ := accepted
  rw [pipeline, commandsIn_eq] at decoded
  obtain ⟨_, _, decoded⟩ := bind_eq_ok.mp decoded
  obtain ⟨_, commandsDecoded, decoded⟩ := bind_eq_ok.mp decoded
  obtain ⟨_, statusDecoded, _⟩ := bind_eq_ok.mp decoded
  exact ⟨accepts_of_optional commandsDecoded, accepts_of_optional statusDecoded⟩

theorem fields_of_link (accepted : Accepts (link place) (.table members)) :
    members.lookup "condition" ≠ none ∧ (∀ value ∈ members.lookup "condition", Accepts (connective place) value) ∧
      ∀ value ∈ members.lookup "pipeline", Accepts (pipeline place) value := by
  obtain ⟨result, decoded⟩ := accepted
  rw [link] at decoded
  obtain ⟨_, _, decoded⟩ := bind_eq_ok.mp decoded
  obtain ⟨operator, operatorDecoded, decoded⟩ := bind_eq_ok.mp decoded
  obtain ⟨guarded, guardedDecoded, decoded⟩ := bind_eq_ok.mp decoded
  refine ⟨?_, accepts_of_mapM operatorDecoded, (accepts_of_pipelineIn guardedDecoded).1⟩
  intro absent
  rw [absent] at operatorDecoded
  cases operatorDecoded
  cases decoded

theorem fields_of_assignment (accepted : Accepts assignment (.table members)) :
    members.lookup "name" ≠ none ∧ (∀ value ∈ members.lookup "name", Accepts text value) ∧
      ∀ value ∈ members.lookup "value", Accepts word value := by
  obtain ⟨result, decoded⟩ := accepted
  rw [assignment] at decoded
  obtain ⟨name, nameDecoded, decoded⟩ := bind_eq_ok.mp decoded
  obtain ⟨value, valueDecoded, decoded⟩ := bind_eq_ok.mp decoded
  refine ⟨?_, accepts_of_mapM nameDecoded, accepts_of_optional valueDecoded⟩
  intro absent
  rw [absent] at nameDecoded
  cases nameDecoded
  cases decoded

theorem fields_of_location (accepted : Accepts location (.table members)) :
    (∀ value ∈ members.lookup "line", Accepts natural value) ∧
      ∀ value ∈ members.lookup "column", Accepts natural value := by
  obtain ⟨result, decoded⟩ := accepted
  rw [location] at decoded
  obtain ⟨_, columnDecoded, decoded⟩ := bind_eq_ok.mp decoded
  obtain ⟨_, _, decoded⟩ := bind_eq_ok.mp decoded
  obtain ⟨_, lineDecoded, _⟩ := bind_eq_ok.mp decoded
  exact ⟨accepts_of_optional lineDecoded, accepts_of_optional columnDecoded⟩

/-- A command that decodes has a kind. -/
theorem exists_kind_of_command (accepted : Accepts command (.table members)) :
    ∃ value kind, members.lookup "kind" = some value ∧ commandKind value = .ok kind := by
  obtain ⟨result, decoded⟩ := accepted
  rw [command] at decoded
  obtain ⟨found, kindDecoded, decoded⟩ := bind_eq_ok.mp decoded
  obtain ⟨_, given, _⟩ := bind_eq_ok.mp decoded
  cases present : members.lookup "kind" with
  | none =>
    rw [present] at kindDecoded
    cases kindDecoded
    cases given
  | some value =>
    rw [present] at kindDecoded
    obtain ⟨kind, known⟩ := accepts_of_mapM kindDecoded value rfl
    exact ⟨value, kind, rfl, known⟩

theorem fields_of_simple (kind : (members.lookup "kind").mapM commandKind = .ok (some .simple))
    (accepted : Accepts command (.table members)) :
    (∀ value ∈ members.lookup "assignments", Accepts (sequence assignment) value) ∧
      (∀ value ∈ members.lookup "words", Accepts (sequence word) value) ∧
      ∀ value ∈ members.lookup "location", Accepts location value := by
  obtain ⟨result, decoded⟩ := accepted
  rw [command, kind] at decoded
  change simpleOfMembers members = .ok result at decoded
  obtain ⟨_, assignmentsDecoded, decoded⟩ := bind_eq_ok.mp decoded
  obtain ⟨_, locationDecoded, decoded⟩ := bind_eq_ok.mp decoded
  obtain ⟨_, wordsDecoded, _⟩ := bind_eq_ok.mp decoded
  exact ⟨accepts_of_optional assignmentsDecoded, accepts_of_optional wordsDecoded, accepts_of_optional locationDecoded⟩

theorem fields_of_enclosing (subshell : Bool)
    (kind : (members.lookup "kind").mapM commandKind = .ok (some (.enclosing subshell)))
    (accepted : Accepts command (.table members)) :
    (∀ value ∈ members.lookup "body", Accepts (script .insideCommand) value) ∧
      ∀ value ∈ members.lookup "location", Accepts location value := by
  obtain ⟨result, decoded⟩ := accepted
  rw [command_table_enclosing kind, bodyIn_eq] at decoded
  obtain ⟨_, bodyDecoded, decoded⟩ := bind_eq_ok.mp decoded
  obtain ⟨_, locationDecoded, _⟩ := bind_eq_ok.mp decoded
  exact ⟨accepts_of_optional bodyDecoded, accepts_of_optional locationDecoded⟩

/-- Commands of every kind have a location. -/
theorem location_of_command (accepted : Accepts command (.table members)) :
    ∀ value ∈ members.lookup "location", Accepts location value := by
  obtain ⟨value, kind, present, known⟩ := exists_kind_of_command accepted
  have found : (members.lookup "kind").mapM commandKind = .ok (some kind) := by
    rw [present, Option.mapM_some, known]
    rfl
  cases kind with
  | simple =>
    obtain ⟨_, _, placed⟩ := fields_of_simple found accepted
    exact placed
  | group => exact (fields_of_enclosing false found accepted).2
  | subshell => exact (fields_of_enclosing true found accepted).2

end

/-! ## Faults -/

/-- A name that is none of the choices is refused. -/
theorem choiceOf_of_not_mem {α : Type} {choices : List (String × α)} {name : String}
    (unknown : name ∉ choices.map (·.1)) : ∃ fault, choiceOf choices name = .error fault := by
  have absent : choices.lookup name = none := by
    rw [List.lookup_eq_none_iff]
    intro choice member
    rw [bne_iff_ne]
    rintro rfl
    exact unknown (List.mem_map_of_mem member)
  exact ⟨_, by rw [choiceOf, absent]⟩

theorem not_accepts_choice {α : Type} {place : Place} {choices : List (String × α)} {name : String}
    (unknown : name ∉ choices.map (·.1)) : ¬ Accepts (choice place choices) (.string name) := by
  rintro ⟨result, decoded⟩
  obtain ⟨fault, refused⟩ := choiceOf_of_not_mem unknown
  have both : choiceOf choices name = .ok result := by cases place <;> exact decoded
  cases refused.symm.trans both

theorem not_accepts_kind {name : String} (unknown : name ∉ ["simple", "grouping", "subshell"]) :
    ¬ Accepts commandKind (.string name) := by
  rintro ⟨kind, decoded⟩
  let kinds := [("simple", CommandKind.simple), ("grouping", .group), ("subshell", .subshell)]
  have unknownKind : name ∉ kinds.map (·.1) := unknown
  obtain ⟨fault, refused⟩ := choiceOf_of_not_mem unknownKind
  cases refused.symm.trans decoded

/-- There is no other way to read a word than as a text or as an array of texts. -/
theorem not_accepts_word {value value' : Value} (spoiled : WordSpoiled value value') : ¬ Accepts word value' := by
  rintro ⟨result, decoded⟩
  cases spoiled with
  | word => cases decoded
  | fragment before fragment after number =>
    rw [word] at decoded
    split at decoded
    · next fragments texts =>
      obtain ⟨text, isText⟩ := accepts_of_items texts (.integer number) (by simp)
      cases isText
    · cases decoded

theorem not_accepts_natural {number : Int} (outside : number < 0 ∨ UInt32.size ≤ number) :
    ¬ Accepts natural (.integer number) := by
  rintro ⟨result, decoded⟩
  rw [natural, if_neg (by omega)] at decoded
  cases decoded

theorem not_accepts_location {value value' : Value} (spoiled : LocationSpoiled value value') :
    ¬ Accepts location value' := by
  intro accepted
  cases spoiled with
  | outOfRange counts present outside =>
    obtain ⟨line, column⟩ := fields_of_location accepted
    rcases counts with rfl | rfl
    · exact not_accepts_natural outside (line _ (by rw [Toml.Members.lookup_alter_self, present]; rfl))
    · exact not_accepts_natural outside (column _ (by rw [Toml.Members.lookup_alter_self, present]; rfl))

end Decode

/-! ## Parts and their values -/

open Decode

/-- The kind of a command. -/
def Command.kind : Command → CommandKind
  | .simple .. => .simple
  | .group .. => .group
  | .subshell .. => .subshell

theorem slot_spelledBy {slots : List Slot} {slot : Slot} {members : Members} {value : Value}
    (spelled : recordSpelledBy slots (.table members)) (member : slot ∈ slots)
    (present : members.lookup slot.key = some value) : slot.spelledBy value := by
  have found := spelled slot member
  rwa [present] at found

theorem spelledBy_of_getElem? {α : Type} {spelledBy : α → Value → Prop} {items : List α} {elements : List Value}
    {index : Nat} {item : α} {element : Value} (spelled : List.Forall₂ spelledBy items elements)
    (inItems : items[index]? = some item) (inElements : elements[index]? = some element) :
    spelledBy item element := by
  obtain ⟨here, rfl⟩ := List.getElem?_eq_some_iff.mp inItems
  obtain ⟨there, rfl⟩ := List.getElem?_eq_some_iff.mp inElements
  exact spelled.get here there

theorem AndOr.spelledItems_iff {lists : List AndOr} {values : List Value} :
    AndOr.SpelledItems lists values ↔ List.Forall₂ AndOr.SpelledBy lists values := by
  induction lists generalizing values with
  | nil => simp [AndOr.SpelledItems]
  | cons list rest ih =>
    simp only [AndOr.SpelledItems, List.forall₂_cons_left_iff, ih]
    exact exists_congr fun value => exists_congr fun others => by tauto

theorem Link.spelledItems_iff {links : List Link} {values : List Value} :
    Link.SpelledItems links values ↔ List.Forall₂ Link.SpelledBy links values := by
  induction links generalizing values with
  | nil => simp [Link.SpelledItems]
  | cons link rest ih =>
    simp only [Link.SpelledItems, List.forall₂_cons_left_iff, ih]
    exact exists_congr fun value => exists_congr fun others => by tauto

theorem Command.spelledItems_iff {commands : List Command} {values : List Value} :
    Command.SpelledItems commands values ↔ List.Forall₂ Command.SpelledBy commands values := by
  induction commands generalizing values with
  | nil => simp [Command.SpelledItems]
  | cons command rest ih =>
    simp only [Command.SpelledItems, List.forall₂_cons_left_iff, ih]
    exact exists_congr fun value => exists_congr fun others => by tauto

namespace Part

/-- The values that spell a part. -/
def SpelledBy : Part → Value → Prop
  | .script node => Script.SpelledBy node
  | .body node _ => Script.SpelledBy node
  | .andOr node => node.SpelledBy
  | .link node => node.SpelledBy
  | .pipeline node => node.SpelledBy
  | .command node => node.SpelledBy
  | .assignment node _ => node.SpelledBy
  | .name text _ => (· = .string text)
  | .word node _ => node.SpelledBy

/-- The values that decode where such a part is expected. -/
def Accepts : Part → Value → Prop
  | .script _, value => ∃ place, Decode.Accepts (Decode.script place) value
  | .body .., value => ∃ place, Decode.Accepts (Decode.script place) value
  | .andOr _, value => ∃ place, Decode.Accepts (Decode.andOr place) value
  | .link _, value => ∃ place, Decode.Accepts (Decode.link place) value
  | .pipeline _, value => ∃ place, Decode.Accepts (Decode.pipeline place) value
  | .command _, value => Decode.Accepts Decode.command value
  | .assignment .., value => Decode.Accepts Decode.assignment value
  | .name .., value => Decode.Accepts Decode.text value
  | .word .., value => Decode.Accepts Decode.word value

/-- If a part is a command, then its kind stands in the table. -/
def HasKind (part : Part) (members : Members) : Prop :=
  ∀ node, part = .command node → members.lookup "kind" = some (.string node.kind.name)

theorem hasKind_of_spelledBy {part : Part} {members : Members} (spelled : part.SpelledBy (.table members)) :
    part.HasKind members := by
  rintro node rfl
  have slot : (kindSlot node.kind.name).SpelledIn (members.lookup "kind") := by
    rw [SpelledBy] at spelled
    cases node <;> rw [Command.SpelledBy] at spelled <;> exact spelled _ List.mem_cons_self
  cases found : members.lookup "kind" with
  | none =>
    rw [found] at slot
    exact slot.elim
  | some value =>
    rw [found] at slot
    exact congrArg some slot

theorem HasKind.found {node : Command} {members : Members} (kind : (Part.command node).HasKind members) :
    (members.lookup "kind").mapM commandKind = .ok (some node.kind) := by
  rw [kind node rfl]
  cases node <;> rfl

/-- A part that stands alone under its key decodes if the table around it does. -/
theorem Accepts.field {part child : Part} {key : String} {members : Members} {value : Value}
    (accepted : part.Accepts (.table members)) (kind : part.HasKind members) (inside : part.Field key child)
    (present : members.lookup key = some value) : child.Accepts value := by
  cases inside with
  | first list =>
    obtain ⟨place, accepted⟩ := accepted
    obtain ⟨_, first, _⟩ := fields_of_andOr accepted
    exact ⟨place, first value present⟩
  | guarded link =>
    obtain ⟨place, accepted⟩ := accepted
    obtain ⟨_, _, guarded⟩ := fields_of_link accepted
    exact ⟨place, guarded value present⟩
  | groupBody => exact ⟨_, (fields_of_enclosing false kind.found accepted).1 value present⟩
  | subshellBody => exact ⟨_, (fields_of_enclosing true kind.found accepted).1 value present⟩

/-- A part among several decodes if the table around them does. -/
theorem Accepts.item {part child : Part} {key : String} {index : Nat} {members : Members} {elements : List Value}
    {element : Value} (accepted : part.Accepts (.table members)) (kind : part.HasKind members)
    (inside : part.Item key index child) (present : members.lookup key = some (.array elements))
    (among : element ∈ elements) : child.Accepts element := by
  cases inside with
  | list =>
    obtain ⟨place, accepted⟩ := accepted
    exact ⟨place, accepts_of_andOrs (fields_of_script accepted _ present) element among⟩
  | bodyList =>
    obtain ⟨place, accepted⟩ := accepted
    exact ⟨place, accepts_of_andOrs (fields_of_script accepted _ present) element among⟩
  | link =>
    obtain ⟨place, accepted⟩ := accepted
    obtain ⟨_, _, rest, _⟩ := fields_of_andOr accepted
    exact ⟨place, accepts_of_links (rest _ present) element among⟩
  | command =>
    obtain ⟨place, accepted⟩ := accepted
    obtain ⟨commands, _⟩ := fields_of_pipeline accepted
    exact accepts_of_commands (commands _ present) element among
  | assignment =>
    obtain ⟨assignments, _⟩ := fields_of_simple kind.found accepted
    obtain ⟨results, decoded⟩ := assignments _ present
    exact accepts_of_items decoded element among
  | word =>
    obtain ⟨_, words, _⟩ := fields_of_simple kind.found accepted
    obtain ⟨results, decoded⟩ := words _ present
    exact accepts_of_items decoded element among

/-- A part that stands alone under its key is spelled there. -/
theorem SpelledBy.field {part child : Part} {key : String} {members : Members} {value : Value}
    (spelled : part.SpelledBy (.table members)) (inside : part.Field key child)
    (present : members.lookup key = some value) : child.SpelledBy value := by
  cases inside with
  | first list =>
    obtain ⟨first, links, terminator⟩ := list
    rw [SpelledBy, AndOr.SpelledBy] at spelled
    exact slot_spelledBy spelled List.mem_cons_self present
  | guarded link =>
    obtain ⟨connective, pipeline⟩ := link
    rw [SpelledBy, Link.SpelledBy] at spelled
    exact slot_spelledBy spelled (List.mem_cons_of_mem _ List.mem_cons_self) present
  | groupBody body location =>
    rw [SpelledBy, Command.SpelledBy] at spelled
    exact slot_spelledBy spelled (List.mem_cons_of_mem _ List.mem_cons_self) present
  | subshellBody body location =>
    rw [SpelledBy, Command.SpelledBy] at spelled
    exact slot_spelledBy spelled (List.mem_cons_of_mem _ List.mem_cons_self) present

/-- A part among several is spelled by the element that has its number. -/
theorem SpelledBy.item {part child : Part} {key : String} {index : Nat} {members : Members} {elements : List Value}
    {element : Value} (spelled : part.SpelledBy (.table members)) (inside : part.Item key index child)
    (present : members.lookup key = some (.array elements)) (numbered : elements[index]? = some element) :
    child.SpelledBy element := by
  cases inside with
  | list _ found =>
    have row := AndOr.spelledItems_iff.mp (slot_spelledBy spelled List.mem_cons_self present)
    exact (spelledBy_of_getElem? row found numbered :)
  | bodyList _ found =>
    have row := AndOr.spelledItems_iff.mp (slot_spelledBy spelled List.mem_cons_self present)
    exact (spelledBy_of_getElem? row found numbered :)
  | @link list _ _ found =>
    obtain ⟨first, links, terminator⟩ := list
    rw [SpelledBy, AndOr.SpelledBy] at spelled
    have row := Link.spelledItems_iff.mp (slot_spelledBy spelled (List.mem_cons_of_mem _ List.mem_cons_self) present)
    exact (spelledBy_of_getElem? row found numbered :)
  | @command pipeline _ _ found =>
    obtain ⟨negated, commands⟩ := pipeline
    rw [SpelledBy, Pipeline.SpelledBy] at spelled
    have row := Command.spelledItems_iff.mp (slot_spelledBy spelled List.mem_cons_self present)
    exact (spelledBy_of_getElem? row found numbered :)
  | @assignment assignments _ _ _ _ found =>
    rw [SpelledBy, Command.SpelledBy] at spelled
    have row : List.Forall₂ Assignment.SpelledBy assignments elements :=
      slot_spelledBy spelled (List.mem_cons_of_mem _ List.mem_cons_self) present
    exact (spelledBy_of_getElem? row found numbered :)
  | @word _ words _ _ _ found =>
    rw [SpelledBy, Command.SpelledBy] at spelled
    have row : List.Forall₂ Word.SpelledBy words elements :=
      slot_spelledBy spelled (List.mem_cons_of_mem _ (List.mem_cons_of_mem _ List.mem_cons_self)) present
    exact (spelledBy_of_getElem? row found numbered :)

/-! ## Spoiled values -/

theorem lookup_ne_none_of_neededKeys {part : Part} {key : String} {members : Members} (needed : key ∈ part.neededKeys)
    (accepted : part.Accepts (.table members)) : members.lookup key ≠ none := by
  cases part with
  | andOr node =>
    obtain rfl := List.mem_singleton.mp needed
    obtain ⟨place, accepted⟩ := accepted
    exact (fields_of_andOr accepted).1
  | link node =>
    obtain rfl := List.mem_singleton.mp needed
    obtain ⟨place, accepted⟩ := accepted
    exact (fields_of_link accepted).1
  | command node =>
    obtain rfl := List.mem_singleton.mp needed
    obtain ⟨value, _, present, _⟩ := exists_kind_of_command accepted
    rw [present]
    exact Option.some_ne_none value
  | assignment node =>
    obtain rfl := List.mem_singleton.mp needed
    exact (fields_of_assignment accepted).1
  | _ => cases needed

/-- A choice in a table that decodes has one of its names. -/
theorem name_mem_of_accepts {part : Part} {key name : String} {names : List String} {members : Members}
    (choice : (key, names) ∈ part.choices) (present : members.lookup key = some (.string name))
    (accepted : part.Accepts (.table members)) : name ∈ names := by
  by_contra unknown
  cases part with
  | andOr node =>
    obtain ⟨rfl, rfl⟩ := Prod.mk.inj (List.mem_singleton.mp choice)
    obtain ⟨place, accepted⟩ := accepted
    obtain ⟨_, _, _, ending⟩ := fields_of_andOr accepted
    exact not_accepts_choice unknown (ending _ present)
  | link node =>
    obtain ⟨rfl, rfl⟩ := Prod.mk.inj (List.mem_singleton.mp choice)
    obtain ⟨place, accepted⟩ := accepted
    obtain ⟨_, operator, _⟩ := fields_of_link accepted
    exact not_accepts_choice unknown (operator _ present)
  | pipeline node =>
    obtain ⟨rfl, rfl⟩ := Prod.mk.inj (List.mem_singleton.mp choice)
    obtain ⟨place, accepted⟩ := accepted
    obtain ⟨_, status⟩ := fields_of_pipeline accepted
    exact not_accepts_choice unknown (status _ present)
  | command node =>
    obtain ⟨rfl, rfl⟩ := Prod.mk.inj (List.mem_singleton.mp choice)
    obtain ⟨value, kind, found, known⟩ := exists_kind_of_command accepted
    obtain rfl := Option.some.inj (found.symm.trans present)
    exact not_accepts_kind unknown ⟨kind, known⟩
  | _ => cases choice

/-- What is under another key does not change the kind of a command. -/
theorem HasKind.alter {part : Part} {members : Members} {key : String} (kind : part.HasKind members)
    (other : key ≠ "kind") (value : Option Value) : part.HasKind (members.alter key value) := by
  rintro node rfl
  rw [Toml.Members.lookup_alter_of_ne value other.symm]
  exact kind node rfl

theorem Field.key_ne_kind {part child : Part} {key : String} (inside : part.Field key child) : key ≠ "kind" := by
  cases inside <;> decide

theorem Item.key_ne_kind {part child : Part} {key : String} {index : Nat} (inside : part.Item key index child) :
    key ≠ "kind" := by
  cases inside <;> decide

/-- A spelling in which something has gone wrong does not decode, by recursion on the way down to it. -/
theorem not_accepts_of_spoiled {part : Part} {value value' : Value} (spoiled : Spoiled part value value')
    (spelled : part.SpelledBy value) : ¬ part.Accepts value' := by
  have altered {members : Members} {key : String} {value : Value} (new : Option Value)
      (present : members.lookup key = some value) : (members.alter key new).lookup key = new := by
    rw [Toml.Members.lookup_alter_self, present, Option.bind_some]
  induction spoiled with
  | missing needed =>
    intro accepted
    apply lookup_ne_none_of_neededKeys needed accepted
    rw [Toml.Members.lookup_alter_self, Option.bind_fun_none]
  | unknown choice present other =>
    intro accepted
    exact other (name_mem_of_accepts choice (altered _ present) accepted)
  | word spoiled => exact not_accepts_word spoiled
  | value present spoiled =>
    intro accepted
    obtain ⟨_, _, assigned⟩ := fields_of_assignment accepted
    exact not_accepts_word spoiled (assigned _ (altered _ present))
  | location present spoiled =>
    intro accepted
    exact not_accepts_location spoiled (location_of_command accepted _ (altered _ present))
  | @field _ _ _ _ _ value' inside present _ ih =>
    intro accepted
    have kind := (hasKind_of_spelledBy spelled).alter inside.key_ne_kind (some value')
    exact ih (spelled.field inside present) (accepted.field kind inside (altered _ present))
  | @item _ _ _ index _ elements _ value' inside present found _ ih =>
    intro accepted
    have kind := (hasKind_of_spelledBy spelled).alter inside.key_ne_kind (some (.array (elements.set index value')))
    obtain ⟨here, _⟩ := List.getElem?_eq_some_iff.mp found
    have among := List.mem_set here value'
    exact ih (spelled.item inside present found) (accepted.item kind inside (altered _ present) among)

end Part

/-! ## Documents -/

/-- A spelling of a tree in which one thing has gone wrong, at any depth, gives an error and no tree; so does
every text that denotes it. -/
theorem Script.document_of_spoiled {script : Script} {members members' : Members}
    (spelled : script.SpelledBy (.table members)) (spoiled : script.Spoiled members members') :
    (∃ fault, Decode.document members' = .error fault) ∧
      ∀ text, Toml.parse text = .ok members' → ∃ fault, Script.ofText text = .error fault := by
  have refused : ∃ fault, Decode.document members' = .error fault := by
    cases decoded : Decode.document members' with
    | error fault => exact ⟨fault, rfl⟩
    | ok result => exact absurd ⟨.outside, result, decoded⟩ (Part.not_accepts_of_spoiled spoiled spelled)
  refine ⟨refused, fun text parsed => ?_⟩
  obtain ⟨fault, decoded⟩ := refused
  simp only [Script.ofText, readDocument, parsed, decoded]
  exact ⟨_, rfl⟩

/-- A number among the fragments of a word, in the body of a group. -/
theorem Script.document_of_spoiled_nested :
    (∃ fault, Decode.document [("lists", .array [.table [("note", .integer 9), ("pipeline", .table [
      ("commands", .array [.table [
        ("body", .table [("lists", .array [.table [("pipeline", .table [("commands", .array [
          .table [("kind", .string "simple"), ("words", .array [.array [.string "a", .integer 5]])]])])]])]),
        ("kind", .string "grouping")]])])]])] = .error fault) ∧
    ∃ fault, Script.ofText "lists = [\x7b note = 9, pipeline = \x7b commands = [\x7b kind = 'grouping',
      body = \x7b lists = [\x7b pipeline = \x7b commands = [\x7b kind = 'simple',
        words = [['a', 5]] \x7d] \x7d \x7d] \x7d \x7d] \x7d \x7d]" = .error fault := by
  let simple : Command := .simple [] [⟨["a", "b"]⟩] {}
  let body : Script := [.mk (.mk false [simple]) [] .sequential]
  let spelledSimple := Value.table [("kind", .string "simple"), ("words", .array [.array [.string "a", .string "b"]])]
  let spelledBody := Value.table [
    ("lists", .array [.table [("pipeline", .table [("commands", .array [spelledSimple])])]])]
  let spelledGroup := Value.table [("body", spelledBody), ("kind", .string "grouping")]
  have spelled : Script.SpelledBy [.mk (.mk false [.group body {}]) [] .sequential] (.table [
      ("lists", .array [.table [("note", .integer 9), ("pipeline", .table [
        ("commands", .array [spelledGroup])])]])]) := by
    simp [spelledGroup, spelledBody, spelledSimple, body, simple, Script.SpelledBy, scriptSpelledBy, AndOr.SpelledItems,
      AndOr.SpelledBy, Pipeline.SpelledBy, Link.SpelledItems, Command.SpelledItems, Command.SpelledBy,
      recordSpelledBy, arraySpelledBy, Slot.SpelledIn, exitStatusName, kindSlot, locationSlot, Word.SpelledBy,
      List.lookup_cons]
  have inWord : ShellTree.Spoiled (.word ⟨["a", "b"]⟩ {}) (.array [.string "a", .string "b"]) _ :=
    .word (.fragment [.string "a"] (.string "b") [] 5)
  have inSimple : ShellTree.Spoiled (.command simple) spelledSimple _ := .item (.word 0 rfl) rfl rfl inWord
  have inBody : ShellTree.Spoiled (.body body {}) spelledBody _ :=
    .item (.bodyList 0 rfl) rfl rfl (.field (.first _) rfl (.item (.command 0 rfl) rfl rfl inSimple))
  have inGroup : ShellTree.Spoiled (.command (.group body {})) spelledGroup _ := .field (.groupBody _ _) rfl inBody
  refine (Script.document_of_spoiled spelled (.item (.list 0 rfl) rfl rfl
    (.field (.first _) rfl (.item (.command 0 rfl) rfl rfl inGroup)))).imp_right fun ofText => ofText _ ?parsed
  cbv

end ShellTree
