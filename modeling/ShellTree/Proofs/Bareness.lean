import Mathlib.Data.List.Forall2
import ShellTree.Proofs.Defects
import ShellTree.Proofs.Settled
import ShellTree.Tree.Bare

/-!
# What locations and fragments do not show in

Writing a tree and writing the bare tree are the same thing, on every sink, also where they fail: a word
without fragments commits nothing, and every other word is written as its text. The value of an assignment
need not be told apart from an empty one, since the name and the `=` in front of it commit what is pending
anyway. The issues of a tree are those of the bare tree as well, but for their locations.
-/

namespace ShellTree

/-! ## Writing -/

@[simp] theorem Word.render_bare (word : Word) (sink : Sink) : word.bare.render sink = word.render sink := by
  rw [Word.render_eq, Word.render_eq, Word.text_bare]
  simp only [Word.fragments_bare_eq_nil]

@[simp] theorem Assignment.render_bare (assignment : Assignment) (sink : Sink) :
    assignment.bare.render sink = assignment.render sink := by
  rw [Assignment.render_eq, Assignment.render_eq]
  simp [Assignment.bare, Assignment.text, Word.literal, Word.text]

theorem renderSpaced_map {α : Type} {render : α → Sink → Sink} {change : α → α}
    (same : ∀ item sink, render (change item) sink = render item sink) (items : List α) (sink : Sink) :
    renderSpaced render (items.map change) sink = renderSpaced render items sink := by
  simp only [renderSpaced, List.foldl_map, same]

mutual

theorem Command.render_bare : ∀ (command : Command) (sink : Sink), command.bare.render sink = command.render sink
  | .simple assignments words _, sink => by
    simp only [Command.bare, Command.render, renderSpaced_map Word.render_bare,
      renderSpaced_map Assignment.render_bare]
  | .group body _, sink => by
    simp only [Command.bare, Command.render, AndOr.render_bareList body]
  | .subshell body _, sink => by
    simp only [Command.bare, Command.render, AndOr.render_bareList body]

theorem Pipeline.render_bare : ∀ (pipeline : Pipeline) (sink : Sink), pipeline.bare.render sink = pipeline.render sink
  | .mk negated commands, sink => by
    simp only [Pipeline.bare, Pipeline.render, Command.renderPiped_bareList commands]

theorem Command.renderPiped_bareList : ∀ (commands : List Command) (sink : Sink),
    Command.renderPiped (Command.bareList commands) sink = Command.renderPiped commands sink
  | [], _ => rfl
  | command :: rest, sink => by
    simp only [Command.bareList, Command.renderPiped, Command.render_bare command, Command.renderTail_bareList rest]

theorem Command.renderTail_bareList : ∀ (commands : List Command) (sink : Sink),
    Command.renderTail (Command.bareList commands) sink = Command.renderTail commands sink
  | [], _ => rfl
  | command :: rest, sink => by
    simp only [Command.bareList, Command.renderTail, Command.render_bare command, Command.renderTail_bareList rest]

theorem Link.render_bare : ∀ (link : Link) (sink : Sink), link.bare.render sink = link.render sink
  | .mk connective pipeline, sink => by
    simp only [Link.bare, Link.render, Pipeline.render_bare pipeline]

theorem Link.render_bareList : ∀ (links : List Link) (sink : Sink),
    Link.renderList (Link.bareList links) sink = Link.renderList links sink
  | [], _ => rfl
  | link :: rest, sink => by
    simp only [Link.bareList, Link.renderList, Link.render_bare link, Link.render_bareList rest]

theorem AndOr.render_bare : ∀ (list : AndOr) (sink : Sink), list.bare.render sink = list.render sink
  | .mk first links terminator, sink => by
    simp only [AndOr.bare, AndOr.render, Pipeline.render_bare first, Link.render_bareList links]

theorem AndOr.render_bareList : ∀ (lists : List AndOr) (sink : Sink),
    AndOr.renderList (AndOr.bareList lists) sink = AndOr.renderList lists sink
  | [], _ => rfl
  | list :: rest, sink => by
    simp only [AndOr.bareList, AndOr.renderList, AndOr.render_bare list, AndOr.render_bareList rest]

end

/-! ## Issues without their locations -/

/-- The issue without the location of its command. -/
def Issue.unlocated (issue : Issue) : Issue := { issue with location := none }

theorem unlocated_under (segment : Segment) (issues : List Issue) :
    (issues.map (Issue.under segment)).map Issue.unlocated =
      (issues.map Issue.unlocated).map (Issue.under segment) := by
  rw [List.map_map, List.map_map]
  rfl

/-- Whether a node lacks something shows without the location. -/
theorem unlocated_defectIssues (defect : Defect) (lacking : Bool) (location location' : Option Location) :
    (defect.issues lacking location).map Issue.unlocated = (defect.issues lacking location').map Issue.unlocated := by
  cases lacking <;> rfl

theorem unlocated_issuesOfParts {α : Type} {issues issues' : α → List Issue} {change : α → α}
    (same : ∀ item, (issues' (change item)).map Issue.unlocated = (issues item).map Issue.unlocated)
    (segment : Nat → Segment) (first : Nat) (items : List α) :
    (issuesOfParts segment issues' first (items.map change)).map Issue.unlocated =
      (issuesOfParts segment issues first items).map Issue.unlocated := by
  induction items generalizing first with
  | nil => rfl
  | cons item rest ih =>
    simp only [List.map_cons, issuesOfParts, List.map_append, unlocated_under, same, ih]

theorem Word.unlocated_issues_bare (location location' : Location) (word : Word) :
    (word.bare.issues location').map Issue.unlocated = (word.issues location).map Issue.unlocated := by
  have same : word.bare.fragments.isEmpty = word.fragments.isEmpty := by
    rw [Bool.eq_iff_iff, List.isEmpty_iff, List.isEmpty_iff]
    exact Word.fragments_bare_eq_nil
  rw [Word.issues, Word.issues, same]
  exact unlocated_defectIssues ..

theorem Assignment.unlocated_issues_bare (location location' : Location) (assignment : Assignment) :
    (assignment.bare.issues location').map Issue.unlocated =
      (assignment.issues location).map Issue.unlocated := by
  rw [Assignment.issues, Assignment.issues, unlocated_under, unlocated_under]
  exact congrArg _ (unlocated_defectIssues ..)

theorem AndOr.isEmpty_bareList (lists : List AndOr) : (AndOr.bareList lists).isEmpty = lists.isEmpty := by
  cases lists <;> rfl

theorem Command.isEmpty_bareList (commands : List Command) :
    (Command.bareList commands).isEmpty = commands.isEmpty := by
  cases commands <;> rfl

mutual

theorem Command.unlocated_issues_bare : ∀ command : Command,
    command.bare.issues.map Issue.unlocated = command.issues.map Issue.unlocated
  | .simple assignments words location => by
    simp only [Command.bare, Command.issues, List.map_append, List.isEmpty_map,
      unlocated_issuesOfParts (Word.unlocated_issues_bare location {}),
      unlocated_issuesOfParts (Assignment.unlocated_issues_bare location {}),
      unlocated_defectIssues _ _ (some {}) (some location)]
  | .group body location => by
    simp only [Command.bare, Command.issues, List.map_append, unlocated_under, AndOr.isEmpty_bareList,
      AndOr.unlocated_issuesFrom_bareList body, unlocated_defectIssues _ _ (some {}) (some location)]
  | .subshell body location => by
    simp only [Command.bare, Command.issues, List.map_append, unlocated_under, AndOr.isEmpty_bareList,
      AndOr.unlocated_issuesFrom_bareList body, unlocated_defectIssues _ _ (some {}) (some location)]

theorem Pipeline.unlocated_issues_bare : ∀ pipeline : Pipeline,
    pipeline.bare.issues.map Issue.unlocated = pipeline.issues.map Issue.unlocated
  | .mk negated commands => by
    simp only [Pipeline.bare, Pipeline.issues, List.map_append, Command.isEmpty_bareList,
      Command.unlocated_issuesFrom_bareList commands]

theorem Command.unlocated_issuesFrom_bareList : ∀ (commands : List Command) (first : Nat),
    (Command.issuesFrom first (Command.bareList commands)).map Issue.unlocated =
      (Command.issuesFrom first commands).map Issue.unlocated
  | [], _ => rfl
  | command :: rest, first => by
    simp only [Command.bareList, Command.issuesFrom, List.map_append, unlocated_under,
      Command.unlocated_issues_bare command, Command.unlocated_issuesFrom_bareList rest]

theorem Link.unlocated_issues_bare : ∀ link : Link,
    link.bare.issues.map Issue.unlocated = link.issues.map Issue.unlocated
  | .mk connective pipeline => by
    simp only [Link.bare, Link.issues, unlocated_under, Pipeline.unlocated_issues_bare pipeline]

theorem Link.unlocated_issuesFrom_bareList : ∀ (links : List Link) (first : Nat),
    (Link.issuesFrom first (Link.bareList links)).map Issue.unlocated =
      (Link.issuesFrom first links).map Issue.unlocated
  | [], _ => rfl
  | link :: rest, first => by
    simp only [Link.bareList, Link.issuesFrom, List.map_append, unlocated_under, Link.unlocated_issues_bare link,
      Link.unlocated_issuesFrom_bareList rest]

theorem AndOr.unlocated_issues_bare : ∀ list : AndOr,
    list.bare.issues.map Issue.unlocated = list.issues.map Issue.unlocated
  | .mk first links terminator => by
    simp only [AndOr.bare, AndOr.issues, List.map_append, unlocated_under, Pipeline.unlocated_issues_bare first,
      Link.unlocated_issuesFrom_bareList links]

theorem AndOr.unlocated_issuesFrom_bareList : ∀ (lists : List AndOr) (first : Nat),
    (AndOr.issuesFrom first (AndOr.bareList lists)).map Issue.unlocated =
      (AndOr.issuesFrom first lists).map Issue.unlocated
  | [], _ => rfl
  | list :: rest, first => by
    simp only [AndOr.bareList, AndOr.issuesFrom, List.map_append, unlocated_under, AndOr.unlocated_issues_bare list,
      AndOr.unlocated_issuesFrom_bareList rest]

end

/-- Scripts with one bare script have the same issues in the same order, but for their locations. -/
theorem Script.unlocated_issues_eq {script other : Script} (alike : script.bare = other.bare) :
    script.issues.map Issue.unlocated = other.issues.map Issue.unlocated := by
  have bare (script : Script) : script.bare.issues.map Issue.unlocated = script.issues.map Issue.unlocated :=
    AndOr.unlocated_issuesFrom_bareList script 0
  rw [← bare script, alike, bare other]

/-! ## The command that an issue is located at -/

/-- The node at `address` is held by the command at `front`: no other command is met on the way down from
there. -/
def Script.HeldBy (script : Script) (address front : Address) (command : Command) : Prop :=
  script.at? front = some (.command command) ∧ ∃ back, address = front ++ back ∧ ∀ index, .command index ∉ back

/-- The way to a command ends with a step to a command. -/
theorem Part.command_mem_of_follow? {part : Part} {address : Address} {command : Command} (moved : address ≠ [])
    (reached : part.follow? address = some (.command command)) : ∃ index, .command index ∈ address := by
  induction address generalizing part with
  | nil => contradiction
  | cons segment rest ih =>
    obtain ⟨child, step, reached⟩ := Option.bind_eq_some_iff.mp reached
    by_cases ended : rest = []
    · subst ended
      cases reached
      unfold child? at step
      split at step <;> simp_all
    · obtain ⟨index, member⟩ := ih ended reached
      exact ⟨index, List.mem_cons_of_mem segment member⟩

/-- What holds a node in one script holds it in every script, where it is held at all. -/
theorem Script.HeldBy.front_unique {script other : Script} {address front front' : Address}
    {command command' : Command} (held : script.HeldBy address front command)
    (held' : other.HeldBy address front' command') : front = front' := by
  -- a longer way would lead from one command down to the other
  have stops {script : Script} {front more : Address} {command : Command}
      (reached : script.at? (front ++ more) = some (.command command))
      (last : ∀ index, .command index ∉ more) : more = [] := by
    rw [at?, Part.follow?_append] at reached
    obtain ⟨middle, _, reached⟩ := Option.bind_eq_some_iff.mp reached
    by_contra moved
    obtain ⟨index, member⟩ := Part.command_mem_of_follow? moved reached
    exact last index member
  obtain ⟨reached, back, rfl, last⟩ := held
  obtain ⟨reached', back', same, last'⟩ := held'
  rcases List.append_eq_append_iff.mp same with ⟨more, rfl, rfl⟩ | ⟨more, rfl, rfl⟩
  · rw [stops reached' fun index member => last index (List.mem_append_left back' member), List.append_nil]
  · rw [stops reached fun index member => last' index (List.mem_append_left back member), List.append_nil]

/-- An issue of a script has the location of the command that holds its node; that of an empty pipeline has
none. -/
theorem Script.holder_of_mem_issues {script : Script} {issue : Issue} (member : issue ∈ script.issues) :
    (issue.location = none ↔ issue.defect = .emptyPipeline) ∧
      ∀ location, issue.location = some location →
        ∃ front command, script.HeldBy issue.address front command ∧ command.location = location := by
  obtain ⟨part, reached, lacks⟩ := (script.hasIssues.mem_iff issue).mp member
  obtain ⟨located, held⟩ := Part.holder?_of_defect? lacks
  refine ⟨located, ?_⟩
  intro location known
  rcases Part.exists_command_of_holder? reached (held.symm.trans known) with
    ⟨front, command, back, way, found, same, last⟩ | ⟨outside, _⟩
  · exact ⟨front, command, ⟨found, back, way, last⟩, same⟩
  · cases outside

/-- Two issues, each of its own script, that tell of the same defect of corresponding nodes. If they have
locations, these are those of the two commands that hold the nodes, and the commands correspond too. -/
structure Issue.Counterpart (script other : Script) (issue issue' : Issue) : Prop where
  defect : issue.defect = issue'.defect
  address : issue.address = issue'.address
  location : issue.location = none ∧ issue'.location = none ∨
    ∃ front command command', script.HeldBy issue.address front command ∧
      other.HeldBy issue.address front command' ∧
      issue.location = some command.location ∧ issue'.location = some command'.location

theorem Issue.counterpart_of_unlocated_eq {script other : Script} {issue issue' : Issue}
    (member : issue ∈ script.issues) (member' : issue' ∈ other.issues)
    (same : issue.unlocated = issue'.unlocated) : issue.Counterpart script other issue' := by
  obtain ⟨located, holder⟩ := script.holder_of_mem_issues member
  obtain ⟨located', holder'⟩ := other.holder_of_mem_issues member'
  simp only [unlocated, Issue.mk.injEq, and_true] at same
  obtain ⟨defect, address⟩ := same
  rw [← defect] at located'
  constructor
  · exact defect
  · exact address
  · cases known : issue.location with
    | none => exact .inl ⟨rfl, located'.mpr (located.mp known)⟩
    | some location =>
      cases known' : issue'.location with
      | none => exact nomatch known.symm.trans (located.mpr (located'.mp known'))
      | some location' =>
        obtain ⟨front, command, held, rfl⟩ := holder location known
        obtain ⟨front', command', held', rfl⟩ := holder' location' known'
        rw [← address] at held'
        obtain rfl := held.front_unique held'
        exact .inr ⟨front, command, command', held, held', rfl, rfl⟩

/-! ## Scripts that differ in locations and fragments alone -/

/-- Two words are bared to one word exactly if they have the same text and both or neither have fragments. -/
theorem Word.bare_eq_bare_iff {word other : Word} :
    word.bare = other.bare ↔ word.text = other.text ∧ (word.fragments = [] ↔ other.fragments = []) := by
  constructor
  · intro same
    constructor
    · rw [← word.text_bare, same, other.text_bare]
    · rw [← fragments_bare_eq_nil, same, fragments_bare_eq_nil]
  · rintro ⟨text, fragments⟩
    obtain ⟨_ | _⟩ := word <;> obtain ⟨_ | _⟩ := other <;> simp_all [bare]

theorem Assignment.bare_eq_bare_iff {assignment other : Assignment} :
    assignment.bare = other.bare ↔ assignment.name = other.name ∧ assignment.value.text = other.value.text := by
  simp [bare, Word.literal]

/-- Scripts that differ only in locations and in how words are divided, where no word of a command has
fragments in one script and none in the other, are written the same way to every sink, and writing one
fails where writing the other does. Their issues are the same, in the same order, and each is located at the
command in its own script that corresponds to the one in the other. -/
theorem Script.render_and_issues_of_bare_eq {script other : Script} (alike : script.bare = other.bare) :
    (∀ sink, script.render sink = other.render sink) ∧
      List.Forall₂ (Issue.Counterpart script other) script.issues other.issues := by
  constructor
  · intro sink
    have bare (script : Script) : script.bare.render sink = script.render sink :=
      AndOr.render_bareList script sink
    rw [← bare script, alike, bare other]
  · have unlocated := Script.unlocated_issues_eq alike
    rw [← List.forall₂_eq_eq_eq, List.forall₂_map_left_iff, List.forall₂_map_right_iff] at unlocated
    rw [List.forall₂_iff_get] at unlocated ⊢
    obtain ⟨length, same⟩ := unlocated
    refine ⟨length, ?_⟩
    intro index inside inside'
    exact Issue.counterpart_of_unlocated_eq (List.get_mem ..) (List.get_mem ..) (same index inside inside')

/-- A group whose command has a word in two fragments or in one, an empty word that has fragments, a word that
has none, and an assignment with or without a fragment, all written at other places. -/
theorem Script.render_and_issues_of_bare_eq_group :
    let place : Location := { file := some "a.sh", line := 3, column := 7 }
    let script : Script := [.mk (.mk true [.group [.mk (.mk false [
        .simple [⟨"A", {}⟩] [⟨["ec", "ho"]⟩, ⟨[""]⟩, {}] place]) [] .sequential] {}])
      [.mk .orElse .empty] .asynchronous]
    let other : Script := [.mk (.mk true [.group [.mk (.mk false [
        .simple [⟨"A", ⟨["", ""]⟩⟩] [⟨["echo"]⟩, ⟨["", ""]⟩, {}] {}]) [] .sequential] place])
      [.mk .orElse .empty] .asynchronous]
    let word : Address := [.list 0, .pipeline, .command 0, .body, .list 0, .pipeline, .command 0, .word 2]
    let link : Address := [.list 0, .link 0, .pipeline]
    script.bare = other.bare ∧
      script.issues = [⟨.emptyWord, word, some place⟩, ⟨.emptyPipeline, link, none⟩] ∧
      other.issues = [⟨.emptyWord, word, some {}⟩, ⟨.emptyPipeline, link, none⟩] ∧
      (∀ sink, script.render sink = other.render sink) ∧
      List.Forall₂ (Issue.Counterpart script other) script.issues other.issues := by
  intro place script other word link
  have alike : script.bare = other.bare := by
    simp [script, other, Script.bare, AndOr.bareList, AndOr.bare, Pipeline.bare, Command.bareList, Command.bare,
      Word.bare_eq_bare_iff, Assignment.bare_eq_bare_iff, Word.text]
  obtain ⟨written, issues⟩ := Script.render_and_issues_of_bare_eq alike
  exact ⟨alike, by decide, by decide, written, issues⟩

end ShellTree
