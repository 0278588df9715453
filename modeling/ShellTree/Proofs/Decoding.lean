import Mathlib
import ShellTree.Decode.Spelling
import ShellTree.Document

/-!
# Decoding what was spelled

Whichever way a tree is spelled as a value, decoding gives the tree back
(`Script.document_of_spelledBy`). The proof follows the tree. What a record adds to its parts is the
same for all records: whether it is a table or an array, each of its fields is found under its key or in
its place, or else holds its default (`reads_record`).

All that is asked of a value besides spelling the tree is that its numbers are those of TOML, for numbers
are looked at also where they mean nothing.
-/

namespace ShellTree

open Toml (Value Members Bounds)

/-! ## Numbers of a document -/

/-- A value whose numbers are all legible and within 64 bits, as the numbers of TOML are. -/
abbrev Legible (value : Value) : Prop := Bounds.standard.allow value = true

theorem legible_table {members : Members} :
    Legible (.table members) ↔ ∀ member ∈ members, Legible member.2 := by
  rw [Legible, Bounds.allow]
  induction members with
  | nil => simp [Bounds.allowMembers]
  | cons member rest ih => simp [Bounds.allowMembers, ih]

theorem legible_array {elements : List Value} :
    Legible (.array elements) ↔ ∀ element ∈ elements, Legible element := by
  rw [Legible, Bounds.allow]
  induction elements with
  | nil => simp [Bounds.allowElements]
  | cons element rest ih => simp [Bounds.allowElements, ih]

theorem legible_cons {first : Value} {rest : List Value} :
    Legible (.array (first :: rest)) ↔ Legible first ∧ Legible (.array rest) := by
  simp only [legible_array, List.forall_mem_cons]

theorem legible_of_lookup {members : Members} (legible : Legible (.table members)) (key : String) :
    ∀ value ∈ members.lookup key, Legible value := by
  rw [legible_table] at legible
  intro value found
  obtain ⟨before, after, rfl, _⟩ := List.lookup_eq_some_iff.mp found
  exact legible (key, value) (List.mem_append_right _ (List.mem_cons_self ..))

theorem legible_filter {members : Members} (legible : Legible (.table members)) (keep : String × Value → Bool) :
    Legible (.table (members.filter keep)) := by
  rw [legible_table] at legible ⊢
  exact fun member kept => legible member (List.mem_filter.mp kept).1

/-! ## Fields of a record -/

/-- What was found for a field spells what the field holds. -/
def Slot.Holds (slot : Slot) (found : Option Value) : Prop :=
  slot.SpelledIn found ∧ ∀ value ∈ found, Legible value

/-- What is found in a row spells what fields hold, one after the other, and nothing is left. -/
def Slot.HoldInOrder : List Slot → List Value → Prop
  | [], values => values = []
  | slot :: slots, values => slot.Holds values.head? ∧ Slot.HoldInOrder slots values.tail

theorem Slot.holdInOrder_of_spelledInOrder {slots : List Slot} {values : List Value}
    (spelled : Slot.SpelledInOrder slots values) (legible : Legible (.array values)) :
    Slot.HoldInOrder slots values := by
  induction slots generalizing values with
  | nil =>
    cases values with
    | nil => rfl
    | cons value rest => exact spelled.elim
  | cons slot slots ih =>
    cases values with
    | nil =>
      rw [Slot.SpelledInOrder, List.forall_mem_cons] at spelled
      refine ⟨⟨spelled.1, nofun⟩, ih ?_ legible⟩
      rw [List.tail_nil, Slot.SpelledInOrder]
      exact spelled.2
    | cons value rest =>
      rw [legible_cons] at legible
      refine ⟨⟨spelled.1, ?_⟩, ih spelled.2 legible.2⟩
      rintro _ ⟨⟩
      exact legible.1

namespace Decode

/-- Keys that mean nothing are passed over. -/
theorem passOver_of_legible {record : Record} {members : Members} (legible : Legible (.table members)) :
    record.passOver members = .ok () := by
  rw [Record.passOver, numbersWithin]
  exact if_pos (Bounds.allow_of_le (by decide) (by decide) _ (legible_filter legible _))

theorem numbersWithin_word {value : Value} (legible : Legible value) : numbersWithin .word value = .ok () := by
  have wide : Bounds.word.allow value = true := Bounds.allow_of_le (by decide) (by decide) _ legible
  rw [numbersWithin, if_pos wide]

@[simp] theorem noneLeft_nil (place : Place) (fields : Nat) : place.noneLeft fields [] = .ok () :=
  if_neg (by simp)

/-- A decoder gives the same result for all values that spell it. -/
def Reads {α : Type} (spelledBy : Value → Prop) (decode : Value → Decoded α) (result : α) : Prop :=
  ∀ value, spelledBy value → Legible value → decode value = .ok result

/-- A decoder of items gives the same results for all values in a row that spell them. -/
def ReadsAll {α : Type} (spelledBy : List Value → Prop) (decodeItems : List Value → Decoded (List α))
    (results : List α) : Prop :=
  ∀ values, spelledBy values → Legible (.array values) → decodeItems values = .ok results

section

variable {α : Type} {decode : Value → Decoded α} {result fallback : α} {slot : Slot} {slots : List Slot}
  {found : Option Value} {elements : List Value} {row : List Value → Prop}

theorem Reads.optional (reads : Reads slot.spelledBy decode result) (default : slot.omittable → fallback = result)
    (holds : slot.Holds found) : optional fallback decode found = .ok result := by
  obtain ⟨spelled, legible⟩ := holds
  cases found with
  | none => rw [Decode.optional, default spelled]
  | some value => exact reads value spelled (legible value rfl)

/-- A field that is never left out is decoded before it is known to be there. -/
theorem Reads.mapM (reads : Reads slot.spelledBy decode result) (needed : ¬ slot.omittable)
    (holds : slot.Holds found) : found.mapM decode = .ok (some result) := by
  obtain ⟨spelled, legible⟩ := holds
  cases found with
  | none => exact (needed spelled).elim
  | some value =>
    rw [Option.mapM_some, reads value spelled (legible value rfl)]
    rfl

/-- A field that is never left out comes first in an array. -/
theorem Reads.first (reads : Reads slot.spelledBy decode result) (needed : ¬ slot.omittable)
    (hold : Slot.HoldInOrder (slot :: slots) elements) :
    ∃ value rest, elements = value :: rest ∧ decode value = .ok result ∧ Slot.HoldInOrder slots rest := by
  obtain ⟨⟨spelled, legible⟩, others⟩ := hold
  cases elements with
  | nil => exact (needed spelled).elim
  | cons value rest => exact ⟨value, rest, rfl, reads value spelled (legible value rfl), others⟩

/-- A record is read from its fields, wherever these stand. -/
theorem reads_record
    (table : ∀ members, Legible (.table members) → (∀ slot ∈ slots, slot.Holds (members.lookup slot.key)) →
      decode (.table members) = .ok result)
    (array : ∀ elements, Slot.HoldInOrder slots elements → decode (.array elements) = .ok result) :
    Reads (recordSpelledBy slots) decode result := by
  intro value spelled legible
  cases value with
  | table members =>
    refine table members legible fun slot member => ⟨spelled slot member, ?_⟩
    exact legible_of_lookup legible slot.key
  | array elements => exact array elements (Slot.holdInOrder_of_spelledInOrder spelled legible)
  | _ => exact spelled.elim

theorem reads_array {decodeItems : List Value → Decoded (List α)} {decode : Value → Decoded (List α)}
    {results : List α} (each : ReadsAll row decodeItems results)
    (array : ∀ elements, decode (.array elements) = decodeItems elements) :
    Reads (arraySpelledBy row) decode results := by
  intro value spelled legible
  cases value with
  | array elements => rw [array, each elements spelled legible]
  | _ => exact spelled.elim

/-- An array of items is read item by item. -/
theorem reads_sequence {spelledBy : α → Value → Prop} {results : List α}
    (reads : ∀ result, Reads (spelledBy result) decode result) :
    Reads (arraySpelledBy (List.Forall₂ spelledBy results)) (sequence decode) results := by
  have each : ReadsAll (List.Forall₂ spelledBy results) (items decode) results := by
    intro values spelled legible
    induction spelled with
    | nil => rfl
    | cons first rest ih =>
      rw [legible_cons] at legible
      rw [items, reads _ _ first legible.1, ih legible.2]
      rfl
  exact reads_array each fun _ => rfl

/-- A choice is read from its name and from a table of this name alone, inside commands and outside. -/
theorem reads_choice {place : Place} {choices : List (String × α)} {name : String}
    (known : choices.lookup name = some result) : Reads (choiceSpelledBy name) (choice place choices) result := by
  have chosen : choiceOf choices name = .ok result := by rw [choiceOf, known]
  intro value spelled _
  rcases spelled with rfl | rfl
  · cases place <;> exact chosen
  · cases place <;> rw [choice, chosen] <;> rfl

end

/-! ## Parts of a command -/

theorem items_text (texts : List String) : items text (texts.map .string) = .ok texts := by
  induction texts with
  | nil => rfl
  | cons first rest ih => rw [List.map_cons, items, ih]; rfl

theorem reads_word (result : Word) : Reads result.SpelledBy word result := by
  intro value spelled _
  rcases spelled with rfl | ⟨text, only, rfl⟩
  · rw [word, items_text]
  · rw [word, Word.literal, ← only]

theorem reads_text (result : String) : Reads (· = .string result) text result := by
  rintro _ rfl _
  rfl

theorem reads_natural (result : UInt32) : Reads (· = .integer result.toNat) natural result := by
  rintro _ rfl _
  have bound : result.toNat < UInt32.size := result.toNat_lt
  have within : 0 ≤ (result.toNat : Int) ∧ (result.toNat : Int) < UInt32.size := by omega
  rw [natural, if_pos within, Int.toNat_natCast, UInt32.ofNat_toNat]

theorem mapM_file {location : Location} {found : Option Value}
    (holds : Slot.Holds ⟨"file", fun value => ∃ file, location.file = some file ∧ value = .string file,
      location.file = none⟩ found) : found.mapM text = .ok location.file := by
  obtain ⟨spelled, _⟩ := holds
  cases found with
  | none =>
    have absent : location.file = none := spelled
    rw [absent]
    rfl
  | some value =>
    obtain ⟨file, present, rfl⟩ := spelled
    rw [present]
    rfl

theorem assignment_array {name : Value} {rest : List Value} (short : rest.tail = []) :
    assignment (.array (name :: rest)) = (do
      let name ← text name
      let value ← optional {} word rest.head?
      return { name, value }) := by
  match rest, short with
  | [], _ => rfl
  | [_], _ => rfl

theorem reads_assignment (result : Assignment) : Reads result.SpelledBy assignment result := by
  refine reads_record (fun members _ fields => ?_) (fun elements fields => ?_)
  · simp only [List.forall_mem_cons] at fields
    obtain ⟨name, value, _⟩ := fields
    rw [assignment, (reads_text _).mapM id name, (reads_word _).optional Eq.symm value]
    rfl
  · obtain ⟨name, rest, rfl, decoded, value, short⟩ := (reads_text _).first id fields
    rw [assignment_array short, decoded, (reads_word _).optional Eq.symm value]
    rfl

theorem location_array {elements : List Value} (short : elements.tail.tail.tail = []) :
    location (.array elements) = (do
      let file ← elements.head?.mapM text
      let line ← optional 1 natural elements.tail.head?
      let column ← optional 1 natural elements.tail.tail.head?
      return { file, line, column }) := by
  -- An array hands a file on as one that is there; both sides agree on this once the file is known.
  match elements, short with
  | [], _ => rfl
  | [file], _ => cases file <;> rfl
  | [file, line], _ => cases file <;> rfl
  | [file, line, column], _ => cases file <;> rfl

theorem reads_location (result : Location) : Reads result.SpelledBy location result := by
  refine reads_record (fun members _ fields => ?_) (fun elements fields => ?_)
  · simp only [List.forall_mem_cons] at fields
    obtain ⟨file, line, column, _⟩ := fields
    rw [location, mapM_file file, (reads_natural _).optional Eq.symm line, (reads_natural _).optional Eq.symm column]
    rfl
  · obtain ⟨file, line, column, short⟩ := fields
    rw [location_array short, mapM_file file, (reads_natural _).optional Eq.symm line,
      (reads_natural _).optional Eq.symm column]
    rfl

/-! ## Choices -/

theorem reads_exitStatus (place : Place) (negated : Bool) :
    Reads (choiceSpelledBy (exitStatusName negated)) (exitStatus place) negated := by
  cases negated with
  | false => exact reads_choice (by decide)
  | true => exact reads_choice (by decide)

theorem reads_connective (place : Place) (result : Connective) :
    Reads (choiceSpelledBy result.choiceName) (connective place) result := by
  cases result with
  | andThen => exact reads_choice (by decide)
  | orElse => exact reads_choice (by decide)

theorem reads_terminator (place : Place) (result : Terminator) :
    Reads (choiceSpelledBy result.choiceName) (terminator place) result := by
  cases result with
  | sequential => exact reads_choice (by decide)
  | asynchronous => exact reads_choice (by decide)

/-- The name of a kind of command. -/
def CommandKind.name : CommandKind → String
  | .simple => "simple"
  | .group => "grouping"
  | .subshell => "subshell"

theorem reads_kind (kind : CommandKind) : Reads (kindSlot kind.name).spelledBy commandKind kind := by
  rintro _ rfl _
  cases kind with
  | simple => rfl
  | group => rfl
  | subshell => rfl

/-! ## Fields that hold trees -/

/-- A function that looks for one key among the members of a table decodes what stands under it. -/
theorem eq_optional_of_search {α : Type} {search : Members → Decoded α} {key : String} {fallback : α}
    {decode : Value → Decoded α} (nil : search [] = .ok fallback)
    (cons : ∀ other value rest, search ((other, value) :: rest) = if other = key then decode value else search rest)
    (members : Members) : search members = optional fallback decode (members.lookup key) := by
  induction members with
  | nil => exact nil
  | cons member rest ih =>
    obtain ⟨other, value⟩ := member
    rw [cons, ih, List.lookup_cons]
    by_cases same : other = key
    · rw [if_pos same, beq_iff_eq.mpr same.symm, optional]
    · rw [if_neg same, beq_false_of_ne (Ne.symm same)]

theorem listsIn_eq (place : Place) (members : Members) :
    listsIn place members = optional [] (andOrs place) (members.lookup "lists") :=
  eq_optional_of_search (by rw [listsIn]) (fun _ _ _ => by rw [listsIn]) members

theorem linksIn_eq (place : Place) (members : Members) :
    linksIn place members = optional [] (links place) (members.lookup "rest") :=
  eq_optional_of_search (by rw [linksIn]) (fun _ _ _ => by rw [linksIn]) members

theorem commandsIn_eq (members : Members) :
    commandsIn members = optional [] commands (members.lookup "commands") :=
  eq_optional_of_search (by rw [commandsIn]) (fun _ _ _ => by rw [commandsIn]) members

theorem bodyIn_eq (members : Members) :
    bodyIn members = optional [] (script .insideCommand) (members.lookup "body") :=
  eq_optional_of_search (by rw [bodyIn]) (fun _ _ _ => by rw [bodyIn]) members

theorem pipelineIn_eq (place : Place) (members : Members) :
    pipelineIn place members = optional none (fun value => some <$> pipeline place value) (members.lookup "pipeline") :=
  eq_optional_of_search (by rw [pipelineIn]) (fun _ _ _ => by rw [pipelineIn]; rfl) members

/-! ## Commands -/

theorem simpleOfElements_eq {elements : List Value} (short : elements.tail.tail.tail = []) :
    simpleOfElements elements = (do
      let assignments ← optional [] (sequence assignment) elements.head?
      let words ← optional [] (sequence word) elements.tail.head?
      let place ← optional {} location elements.tail.tail.head?
      return .simple assignments words place) := by
  match elements, short with
  | [], _ => rfl
  | [_], _ => rfl
  | [_, _], _ => rfl
  | [_, _, _], _ => rfl

theorem enclosingOfElements_eq {subshell : Bool} {elements : List Value} (short : elements.tail.tail = []) :
    enclosingOfElements subshell elements = (do
      let body ← optional [] (script .insideCommand) elements.head?
      let place ← optional {} location elements.tail.head?
      return enclosing subshell body place) := by
  match elements, short with
  | [], _ => rw [enclosingOfElements]; rfl
  | [_], _ => rw [enclosingOfElements]; rfl
  | [_, _], _ => rw [enclosingOfElements]; rfl

theorem reads_simple (assignments : List Assignment) (words : List Word) (place : Location) :
    Reads (Command.simple assignments words place).SpelledBy command (.simple assignments words place) := by
  have assignmentsRead : Reads (arraySpelledBy (List.Forall₂ Assignment.SpelledBy assignments))
      (sequence assignment) assignments := reads_sequence reads_assignment
  have wordsRead : Reads (arraySpelledBy (List.Forall₂ Word.SpelledBy words)) (sequence word) words :=
    reads_sequence reads_word
  rw [Command.SpelledBy]
  refine reads_record (fun members _ fields => ?_) (fun elements fields => ?_)
  · simp only [List.forall_mem_cons, kindSlot_key, locationSlot_key] at fields
    obtain ⟨kind, assignmentsHold, wordsHold, placeHolds, _⟩ := fields
    rw [command, (reads_kind .simple).mapM id kind]
    change simpleOfMembers members = _
    rw [simpleOfMembers, assignmentsRead.optional Eq.symm assignmentsHold,
      (reads_location place).optional Eq.symm placeHolds, wordsRead.optional Eq.symm wordsHold]
    rfl
  · obtain ⟨kind, rest, rfl, decoded, assignmentsHold, wordsHold, placeHolds, short⟩ :=
      (reads_kind .simple).first id fields
    rw [command, decoded]
    change simpleOfElements rest = _
    rw [simpleOfElements_eq short, assignmentsRead.optional Eq.symm assignmentsHold,
      wordsRead.optional Eq.symm wordsHold, (reads_location place).optional Eq.symm placeHolds]
    rfl

/-- The kind of a command that encloses a script. -/
def CommandKind.enclosing (subshell : Bool) : CommandKind := if subshell then .subshell else .group

theorem command_table_enclosing {subshell : Bool} {members : Members}
    (kind : (members.lookup "kind").mapM commandKind = .ok (some (.enclosing subshell))) :
    command (.table members) = (do
      let body ← bodyIn members
      let place ← optional {} location (members.lookup "location")
      return enclosing subshell body place) := by
  rw [command, kind]
  cases subshell with
  | false => rfl
  | true => rfl

theorem command_array_enclosing {subshell : Bool} {kind : Value} {rest : List Value}
    (decoded : commandKind kind = .ok (.enclosing subshell)) :
    command (.array (kind :: rest)) = enclosingOfElements subshell rest := by
  rw [command, decoded]
  cases subshell with
  | false => rfl
  | true => rfl

/-- Groups and subshells differ in their kind alone. -/
theorem reads_enclosing (subshell : Bool) {body : Script} {bodySpelledBy : Value → Prop}
    (bodyReads : Reads bodySpelledBy (script .insideCommand) body) (place : Location) :
    Reads (recordSpelledBy [
      kindSlot (CommandKind.enclosing subshell).name, ⟨"body", bodySpelledBy, body = []⟩, locationSlot place])
      command (enclosing subshell body place) := by
  have kindReads := reads_kind (.enclosing subshell)
  refine reads_record (fun members _ fields => ?_) (fun elements fields => ?_)
  · simp only [List.forall_mem_cons, kindSlot_key, locationSlot_key] at fields
    obtain ⟨kind, bodyHolds, placeHolds, _⟩ := fields
    rw [command_table_enclosing (kindReads.mapM id kind), bodyIn_eq, bodyReads.optional Eq.symm bodyHolds,
      (reads_location place).optional Eq.symm placeHolds]
    rfl
  · obtain ⟨kind, rest, rfl, decoded, bodyHolds, placeHolds, short⟩ := kindReads.first id fields
    rw [command_array_enclosing decoded, enclosingOfElements_eq short, bodyReads.optional Eq.symm bodyHolds,
      (reads_location place).optional Eq.symm placeHolds]
    rfl

/-! ## Pipelines, links and lists -/

theorem pipeline_array {place : Place} {elements : List Value} (short : elements.tail.tail = []) :
    pipeline place (.array elements) = (do
      let members ← optional [] commands elements.head?
      let negated ← optional false (exitStatus place) elements.tail.head?
      return .mk negated members) := by
  match elements, short with
  | [], _ => rw [pipeline]; rfl
  | [_], _ => rw [pipeline]; rfl
  | [_, _], _ => rw [pipeline, noneLeft_nil]; rfl

theorem link_array {place : Place} {operator : Value} {rest : List Value} (short : rest.tail = []) :
    link place (.array (operator :: rest)) = (do
      let operator ← connective place operator
      let guarded ← optional .empty (pipeline place) rest.head?
      return .mk operator guarded) := by
  match rest, short with
  | [], _ => rw [link]; rfl
  | [_], _ => rw [link, noneLeft_nil]; rfl

theorem andOr_array {place : Place} {first : Value} {rest : List Value} (short : rest.tail.tail = []) :
    andOr place (.array (first :: rest)) = (do
      let first ← pipeline place first
      let links ← optional [] (links place) rest.head?
      let ending ← optional .sequential (terminator place) rest.tail.head?
      return .mk first links ending) := by
  match rest, short with
  | [], _ => rw [andOr]; rfl
  | [_], _ => rw [andOr]; rfl
  | [_, _], _ => rw [andOr, noneLeft_nil]; rfl

theorem script_array {place : Place} {elements : List Value} (short : elements.tail = []) :
    script place (.array elements) = optional [] (andOrs place) elements.head? := by
  match elements, short with
  | [], _ => rw [script]; rfl
  | [lists], _ =>
    rw [script, noneLeft_nil]
    exact bind_pure (andOrs place lists)

theorem reads_script {place : Place} {lists : Script} {row : List Value → Prop}
    (each : ReadsAll row (andOrItems place) lists) :
    Reads (scriptSpelledBy row (lists = [])) (script place) lists := by
  have inner : Reads (arraySpelledBy row) (andOrs place) lists := reads_array each fun _ => by rw [andOrs]
  refine reads_record (fun members legible fields => ?_) (fun elements fields => ?_)
  · simp only [List.forall_mem_cons] at fields
    rw [script, passOver_of_legible legible, listsIn_eq, inner.optional Eq.symm fields.1]
    rfl
  · obtain ⟨holds, short⟩ := fields
    rw [script_array short, inner.optional Eq.symm holds]

theorem reads_pipeline {place : Place} {negated : Bool} {members : List Command} {row : List Value → Prop}
    (each : ReadsAll row commandItems members) :
    Reads (recordSpelledBy [
      ⟨"commands", arraySpelledBy row, members = []⟩,
      ⟨"exit_status", choiceSpelledBy (exitStatusName negated), negated = false⟩])
      (pipeline place) (.mk negated members) := by
  have inner : Reads (arraySpelledBy row) commands members := reads_array each fun _ => by rw [commands]
  have statusReads := reads_exitStatus place negated
  refine reads_record (fun members legible fields => ?_) (fun elements fields => ?_)
  · simp only [List.forall_mem_cons] at fields
    obtain ⟨membersHold, statusHolds, _⟩ := fields
    rw [pipeline, passOver_of_legible legible, commandsIn_eq, inner.optional Eq.symm membersHold,
      statusReads.optional Eq.symm statusHolds]
    rfl
  · obtain ⟨membersHold, statusHolds, short⟩ := fields
    rw [pipeline_array short, inner.optional Eq.symm membersHold, statusReads.optional Eq.symm statusHolds]
    rfl

/-- The pipeline of a list is looked for as one that may be missing. -/
theorem Reads.some {α : Type} {spelledBy : Value → Prop} {decode : Value → Decoded α} {result : α}
    (reads : Reads spelledBy decode result) :
    Reads spelledBy (fun value => Option.some <$> decode value) (.some result) := by
  intro value spelled legible
  simp only [reads value spelled legible]
  rfl

/-- A pipeline that may be left out is either found or the empty one. -/
theorem pipelineIn_of_holds {place : Place} {members : Members} {result : Pipeline} {spelledBy : Value → Prop}
    (reads : Reads spelledBy (pipeline place) result)
    (holds : Slot.Holds ⟨"pipeline", spelledBy, result = .empty⟩ (members.lookup "pipeline")) :
    ∃ guarded, pipelineIn place members = .ok guarded ∧ guarded.getD .empty = result := by
  rw [pipelineIn_eq]
  obtain ⟨spelled, legible⟩ := holds
  cases found : members.lookup "pipeline" with
  | none =>
    rw [found] at spelled
    exact ⟨none, rfl, Eq.symm spelled⟩
  | some value =>
    rw [found] at spelled legible
    exact ⟨some result, reads.some value spelled (legible value rfl), rfl⟩

theorem reads_link {place : Place} {operator : Connective} {guarded : Pipeline} {spelledBy : Value → Prop}
    (inner : Reads spelledBy (pipeline place) guarded) :
    Reads (recordSpelledBy [
      ⟨"condition", choiceSpelledBy operator.choiceName, False⟩,
      ⟨"pipeline", spelledBy, guarded = .empty⟩])
      (link place) (.mk operator guarded) := by
  have operatorReads := reads_connective place operator
  refine reads_record (fun members legible fields => ?_) (fun elements fields => ?_)
  · simp only [List.forall_mem_cons] at fields
    obtain ⟨operatorHolds, guardedHolds, _⟩ := fields
    obtain ⟨guarded, found, rfl⟩ := pipelineIn_of_holds inner guardedHolds
    rw [link, passOver_of_legible legible, operatorReads.mapM id operatorHolds, found]
    rfl
  · obtain ⟨_, rest, rfl, decoded, guardedHolds, short⟩ := operatorReads.first id fields
    rw [link_array short, decoded, inner.optional Eq.symm guardedHolds]
    rfl

theorem reads_andOr {place : Place} {first : Pipeline} {rest : List Link} {ending : Terminator}
    {firstSpelledBy : Value → Prop} {row : List Value → Prop}
    (firstReads : Reads firstSpelledBy (pipeline place) first)
    (each : ReadsAll row (linkItems place) rest) :
    Reads (recordSpelledBy [
      ⟨"pipeline", firstSpelledBy, False⟩,
      ⟨"rest", arraySpelledBy row, rest = []⟩,
      ⟨"synchronicity", choiceSpelledBy ending.choiceName, ending = .sequential⟩])
      (andOr place) (.mk first rest ending) := by
  have restReads : Reads (arraySpelledBy row) (links place) rest := reads_array each fun _ => by rw [links]
  have endingReads := reads_terminator place ending
  refine reads_record (fun members legible fields => ?_) (fun elements fields => ?_)
  · simp only [List.forall_mem_cons] at fields
    obtain ⟨firstHolds, restHold, endingHolds, _⟩ := fields
    rw [andOr, passOver_of_legible legible, pipelineIn_eq, firstReads.some.optional False.elim firstHolds,
      linksIn_eq, restReads.optional Eq.symm restHold, endingReads.optional Eq.symm endingHolds]
    rfl
  · obtain ⟨_, others, rfl, decoded, restHold, endingHolds, short⟩ := firstReads.first id fields
    rw [andOr_array short, decoded, restReads.optional Eq.symm restHold, endingReads.optional Eq.symm endingHolds]
    rfl

/-! ## Trees -/

mutual

/-- Every kind of node is read from its spellings, by recursion on the tree. The bodies of groups and
subshells are inside a command wherever the command itself stands, so the place is free for the others. -/
theorem reads_command : (result : Command) → Reads result.SpelledBy command result
  | .simple assignments words place => reads_simple assignments words place
  | .group body place => by
    rw [Command.SpelledBy]
    exact reads_enclosing false (reads_script (reads_lists .insideCommand body)) place
  | .subshell body place => by
    rw [Command.SpelledBy]
    exact reads_enclosing true (reads_script (reads_lists .insideCommand body)) place

theorem reads_pipelineIn (place : Place) : (result : Pipeline) → Reads result.SpelledBy (pipeline place) result
  | .mk negated members => by
    rw [Pipeline.SpelledBy]
    exact reads_pipeline (reads_commands members)

theorem reads_commands : (results : List Command) → ReadsAll (Command.SpelledItems results) commandItems results
  | [], values, spelled, _ => by
    rw [Command.SpelledItems] at spelled
    rw [spelled, commandItems]
  | result :: results, values, spelled, legible => by
    rw [Command.SpelledItems] at spelled
    obtain ⟨value, others, rfl, first, rest⟩ := spelled
    rw [legible_cons] at legible
    -- The numbers of the whole command are looked at before its kind is known.
    rw [commandItems, numbersWithin_word legible.1, reads_command result value first legible.1,
      reads_commands results others rest legible.2]
    rfl

theorem reads_linkIn (place : Place) : (result : Link) → Reads result.SpelledBy (link place) result
  | .mk operator guarded => by
    rw [Link.SpelledBy]
    exact reads_link (reads_pipelineIn place guarded)

theorem reads_links (place : Place) :
    (results : List Link) → ReadsAll (Link.SpelledItems results) (linkItems place) results
  | [], values, spelled, _ => by
    rw [Link.SpelledItems] at spelled
    rw [spelled, linkItems]
  | result :: results, values, spelled, legible => by
    rw [Link.SpelledItems] at spelled
    obtain ⟨value, others, rfl, first, rest⟩ := spelled
    rw [legible_cons] at legible
    rw [linkItems, reads_linkIn place result value first legible.1, reads_links place results others rest legible.2]
    rfl

theorem reads_list (place : Place) : (result : AndOr) → Reads result.SpelledBy (andOr place) result
  | .mk first rest ending => by
    rw [AndOr.SpelledBy]
    exact reads_andOr (reads_pipelineIn place first) (reads_links place rest)

theorem reads_lists (place : Place) :
    (results : List AndOr) → ReadsAll (AndOr.SpelledItems results) (andOrItems place) results
  | [], values, spelled, _ => by
    rw [AndOr.SpelledItems] at spelled
    rw [spelled, andOrItems]
  | result :: results, values, spelled, legible => by
    rw [AndOr.SpelledItems] at spelled
    obtain ⟨value, others, rfl, first, rest⟩ := spelled
    rw [legible_cons] at legible
    rw [andOrItems, reads_list place result value first legible.1, reads_lists place results others rest legible.2]
    rfl

end

end Decode

/-! ## Documents -/

/-- Every spelling of a tree decodes to this tree, and every text that denotes such a spelling reads as
the tree. -/
theorem Script.document_of_spelledBy {script : Script} {members : Members} (legible : Legible (.table members))
    (spelled : script.SpelledBy (.table members)) :
    Decode.document members = .ok script ∧
      ∀ text, Toml.parse text = .ok members → Script.ofText text = .ok script := by
  have decoded : Decode.document members = .ok script :=
    Decode.reads_script (Decode.reads_lists .outside script) (.table members) spelled legible
  refine ⟨decoded, fun text parsed => ?_⟩
  simp only [Script.ofText, readDocument, parsed, decoded]

/-- A document with tables and arrays, choices of both forms, a key that means nothing, and defaults that
are left out. -/
theorem Script.document_of_spelledBy_mixed :
    Decode.document [("lists", .array [.table [
      ("note", .integer 9),
      ("pipeline", .array [
        .array [
          .array [.string "simple", .array [.array [.string "a", .string "b"]], .array [],
            .table [("line", .integer 3)]],
          .table [("kind", .string "grouping")]],
        .table [("negated", .table [])]]),
      ("rest", .array [.array [.string "or-else"]])]])] =
        .ok [.mk (.mk true [.simple [⟨"a", ⟨["b"]⟩⟩] [] { line := 3 }, .group [] {}])
          [.mk .orElse .empty] .sequential] ∧
    Script.ofText "lists = [\x7b note = 9, pipeline = [
      [['simple', [['a', 'b']], [], \x7b line = 3 \x7d], \x7b kind = 'grouping' \x7d],
      \x7b negated = \x7b\x7d \x7d
    ], rest = [['or-else']] \x7d]" =
        .ok [.mk (.mk true [.simple [⟨"a", ⟨["b"]⟩⟩] [] { line := 3 }, .group [] {}])
          [.mk .orElse .empty] .sequential] := by
  refine (Script.document_of_spelledBy ?legible ?spelled).imp_right fun ofText => ofText _ ?parsed
  case legible => decide
  case parsed => cbv
  case spelled =>
    simp [Script.SpelledBy, scriptSpelledBy, AndOr.SpelledItems, AndOr.SpelledBy, Pipeline.SpelledBy,
      Link.SpelledItems, Link.SpelledBy, Command.SpelledItems, Command.SpelledBy, recordSpelledBy, arraySpelledBy,
      Slot.SpelledIn, Slot.SpelledInOrder, choiceSpelledBy, exitStatusName, Connective.choiceName, kindSlot,
      locationSlot, Assignment.SpelledBy, Word.SpelledBy, Location.SpelledBy, List.lookup_cons, Pipeline.empty]

end ShellTree
