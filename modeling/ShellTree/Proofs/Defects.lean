import ShellTree.Address

/-!
# Which issues a script has

The issues of a script are told twice: by listing them while the tree is walked, and by asking of every
address what is found there. Both tell the same. A node that is reached and lacks something has one
issue, there are no others, and they are listed in the order of their addresses, so none comes twice.
The text of an address is enough to find the node.
-/

namespace ShellTree

namespace Part

/-- An issue is shown by a part if its address leads from there to a node that lacks just this. -/
def Shows (part : Part) (issue : Issue) : Prop :=
  ∃ found, part.follow? issue.address = some found ∧ found.defect? = some (issue.defect, issue.location)

/-- A list of the issues that a part shows, in the order of a walk. -/
structure HasIssues (part : Part) (issues : List Issue) : Prop where
  mem_iff : ∀ issue, issue ∈ issues ↔ part.Shows issue
  ordered : issues.Pairwise fun first second => first.address.Before second.address

/-- The issue of a part itself, if it lacks something. -/
def ownIssues (part : Part) : List Issue :=
  part.defect?.toList.map fun (defect, location) => ⟨defect, [], location⟩

theorem mem_ownIssues {part : Part} {issue : Issue} :
    issue ∈ part.ownIssues ↔ issue.address = [] ∧ part.defect? = some (issue.defect, issue.location) := by
  obtain ⟨defect, address, location⟩ := issue
  simp only [ownIssues, List.mem_map, Option.mem_toList, Prod.exists, Issue.mk.injEq]
  constructor
  · rintro ⟨_, _, lacks, rfl, rfl, rfl⟩
    exact ⟨rfl, lacks⟩
  · rintro ⟨rfl, lacks⟩
    exact ⟨_, _, lacks, rfl, rfl, rfl⟩

theorem shows_nil {part : Part} {defect : Defect} {location : Option Location} :
    part.Shows ⟨defect, [], location⟩ ↔ part.defect? = some (defect, location) := by
  simp [Shows, follow?]

theorem shows_cons {part : Part} {defect : Defect} {segment : Segment} {rest : Address} {location : Option Location} :
    part.Shows ⟨defect, segment :: rest, location⟩ ↔
      ∃ child, part.child? segment = some child ∧ child.Shows ⟨defect, rest, location⟩ := by
  simp only [Shows, follow?, Option.bind_eq_some_iff]
  constructor
  · rintro ⟨found, ⟨child, step, reached⟩, lacks⟩
    exact ⟨child, step, found, reached, lacks⟩
  · rintro ⟨child, step, found, reached, lacks⟩
    exact ⟨found, ⟨child, step, reached⟩, lacks⟩

end Part

/-- A part of a node: the segment that leads to it, and the issues listed for it. -/
structure Branch where
  segment : Segment
  part : Part
  issues : List Issue

/-- The issues of a branch, addressed from the node. -/
def Branch.listed (branch : Branch) : List Issue := branch.issues.map (Issue.under branch.segment)

/-- The issues of a node are its own and those of its branches one after the other. The branches have to be
all parts of the node, from left to right. -/
theorem Part.hasIssues_of_branches {part : Part} (branches : List Branch)
    (all : ∀ segment child, part.child? segment = some child ↔
      ∃ branch ∈ branches, branch.segment = segment ∧ branch.part = child)
    (sorted : branches.Pairwise fun left right => left.segment.Before right.segment)
    (each : ∀ branch ∈ branches, branch.part.HasIssues branch.issues) :
    part.HasIssues (part.ownIssues ++ branches.flatMap Branch.listed) := by
  constructor
  · rintro ⟨defect, address, location⟩
    simp only [List.mem_append, mem_ownIssues, List.mem_flatMap, Branch.listed, List.mem_map]
    cases address with
    | nil =>
      rw [shows_nil]
      constructor
      · rintro (⟨_, lacks⟩ | ⟨branch, _, inner, _, same⟩)
        · exact lacks
        · exact nomatch (Issue.mk.inj same).2.1
      · exact fun lacks => .inl ⟨rfl, lacks⟩
    | cons segment rest =>
      rw [shows_cons]
      constructor
      · rintro (⟨empty, _⟩ | ⟨branch, member, inner, listed, same⟩)
        · exact nomatch empty
        · obtain ⟨rfl, address, rfl⟩ := Issue.mk.inj same
          obtain ⟨rfl, rfl⟩ := List.cons.inj address
          have step := (all branch.segment branch.part).mpr ⟨branch, member, rfl, rfl⟩
          exact ⟨branch.part, step, ((each branch member).mem_iff inner).mp listed⟩
      · rintro ⟨child, step, shown⟩
        obtain ⟨branch, member, rfl, rfl⟩ := (all segment child).mp step
        exact .inr ⟨branch, member, _, ((each branch member).mem_iff _).mpr shown, rfl⟩
  · rw [List.pairwise_append, List.pairwise_flatMap]
    refine ⟨?_, ⟨?_, ?_⟩, ?_⟩
    · unfold ownIssues
      cases part.defect? <;> simp
    · intro branch member
      rw [Branch.listed, List.pairwise_map]
      exact (each branch member).ordered.imp fun before => List.Lex.cons before
    · refine sorted.imp ?_
      intro left right before first inLeft second inRight
      obtain ⟨inner, _, rfl⟩ := List.mem_map.mp inLeft
      obtain ⟨inner', _, rfl⟩ := List.mem_map.mp inRight
      exact List.Lex.rel before
    · intro own isOwn other isListed
      obtain ⟨branch, _, isListed⟩ := List.mem_flatMap.mp isListed
      obtain ⟨inner, _, rfl⟩ := List.mem_map.mp isListed
      rw [Address.Before, (mem_ownIssues.mp isOwn).1]
      exact List.Lex.nil

/-! ## Numbered parts -/

section

variable {α : Type} (segment : Nat → Segment) (part : α → Part) (issues : α → List Issue)

/-- The branches to numbered parts. -/
def branchesTo (items : List α) : List Branch :=
  items.mapIdx fun index item => ⟨segment index, part item, issues item⟩

theorem mem_branchesTo {items : List α} {branch : Branch} :
    branch ∈ branchesTo segment part issues items ↔
      ∃ index item, items[index]? = some item ∧ branch = ⟨segment index, part item, issues item⟩ := by
  simp only [branchesTo, List.mem_iff_getElem?, List.getElem?_mapIdx, Option.map_eq_some_iff]
  constructor
  · rintro ⟨index, item, found, rfl⟩
    exact ⟨index, item, found, rfl⟩
  · rintro ⟨index, item, found, rfl⟩
    exact ⟨index, item, found, rfl⟩

theorem pairwise_branchesTo
    (ordered : ∀ {first second : Nat}, first < second → (segment first).Before (segment second)) (items : List α) :
    (branchesTo segment part issues items).Pairwise fun left right => left.segment.Before right.segment := by
  rw [List.pairwise_iff_getElem]
  intro first second _ _ less
  simp only [branchesTo, List.getElem_mapIdx]
  exact ordered less

theorem issuesOfParts_eq_flatMap (items : List α) :
    issuesOfParts segment issues 0 items = (branchesTo segment part issues items).flatMap Branch.listed := by
  have shifted (first : Nat) : issuesOfParts segment issues first items =
      (branchesTo (fun index => segment (first + index)) part issues items).flatMap Branch.listed := by
    induction items generalizing first with
    | nil => rfl
    | cons item rest ih =>
      rw [issuesOfParts, ih (first + 1)]
      simp only [branchesTo, List.mapIdx_cons, List.flatMap_cons, Branch.listed, Nat.add_zero, Nat.add_assoc,
        Nat.add_comm 1]
  simpa using shifted 0

end

theorem AndOr.issuesFrom_eq_issuesOfParts (first : Nat) (lists : List AndOr) :
    AndOr.issuesFrom first lists = issuesOfParts .list AndOr.issues first lists := by
  induction lists generalizing first with
  | nil => rfl
  | cons list rest ih => rw [AndOr.issuesFrom, issuesOfParts, ih]

theorem Command.issuesFrom_eq_issuesOfParts (first : Nat) (commands : List Command) :
    Command.issuesFrom first commands = issuesOfParts .command Command.issues first commands := by
  induction commands generalizing first with
  | nil => rfl
  | cons command rest ih => rw [Command.issuesFrom, issuesOfParts, ih]

theorem Link.issuesFrom_eq_issuesOfParts (first : Nat) (links : List Link) :
    Link.issuesFrom first links = issuesOfParts .link Link.issues first links := by
  induction links generalizing first with
  | nil => rfl
  | cons link rest ih => rw [Link.issuesFrom, issuesOfParts, ih]

/-- A node without parts has its own issue only. -/
theorem Part.hasIssues_of_leaf {part : Part} (leaf : ∀ segment, part.child? segment = none) :
    part.HasIssues part.ownIssues := by
  have listed := part.hasIssues_of_branches [] (by simp [leaf]) .nil (by simp)
  rwa [List.flatMap_nil, List.append_nil] at listed

/-- A node with a single part has its own issue and those of the part. -/
theorem Part.hasIssues_of_only {part child : Part} {segment : Segment} {issues : List Issue}
    (only : ∀ step found, part.child? step = some found ↔ step = segment ∧ child = found)
    (inside : child.HasIssues issues) :
    part.HasIssues (part.ownIssues ++ issues.map (Issue.under segment)) := by
  have listed := part.hasIssues_of_branches [⟨segment, child, issues⟩]
    (by simp [only, eq_comm]) (List.pairwise_singleton ..) (List.forall_mem_singleton.mpr inside)
  rwa [List.flatMap_singleton] at listed

/-- A node all of whose parts are numbered has its own issue and those of its parts in a row. -/
theorem Part.hasIssues_of_numbered {α : Type} {part : Part} {segment : Nat → Segment} {inner : α → Part}
    {issues : α → List Issue} {items : List α}
    (all : ∀ step child, part.child? step = some child ↔
      ∃ index item, step = segment index ∧ items[index]? = some item ∧ inner item = child)
    (ordered : ∀ {first second : Nat}, first < second → (segment first).Before (segment second))
    (each : ∀ item ∈ items, (inner item).HasIssues (issues item)) :
    part.HasIssues (part.ownIssues ++ issuesOfParts segment issues 0 items) := by
  rw [issuesOfParts_eq_flatMap segment inner]
  apply Part.hasIssues_of_branches
  · intro step child
    simp only [all, mem_branchesTo]
    constructor
    · rintro ⟨index, item, rfl, found, rfl⟩
      exact ⟨_, ⟨index, item, found, rfl⟩, rfl, rfl⟩
    · rintro ⟨_, ⟨index, item, found, rfl⟩, rfl, rfl⟩
      exact ⟨index, item, rfl, found, rfl⟩
  · exact pairwise_branchesTo segment inner issues ordered items
  · intro branch member
    obtain ⟨index, item, found, rfl⟩ := (mem_branchesTo segment inner issues).mp member
    exact each item (List.mem_of_getElem? found)

/-! ## Every kind of node -/

theorem Word.hasIssues (word : Word) (holder : Location) :
    (Part.word word holder).HasIssues (word.issues holder) := by
  have own : (Part.word word holder).ownIssues = word.issues holder := by
    obtain ⟨_ | _⟩ := word <;> rfl
  rw [← own]
  exact Part.hasIssues_of_leaf fun _ => rfl

theorem Assignment.hasIssues (assignment : Assignment) (holder : Location) :
    (Part.assignment assignment holder).HasIssues (assignment.issues holder) := by
  have own : (Part.name assignment.name holder).ownIssues =
      Defect.emptyAssignmentName.issues assignment.name.isEmpty holder := by
    by_cases empty : assignment.name = ""
    · rw [empty]
      rfl
    · simp [Part.ownIssues, Part.defect?, Defect.issues, empty]
  have name : (Part.name assignment.name holder).HasIssues (Part.name assignment.name holder).ownIssues :=
    Part.hasIssues_of_leaf fun _ => rfl
  rw [Assignment.issues, ← own]
  refine Part.hasIssues_of_only ?_ name
  intro segment child
  cases segment <;> simp [Part.child?]

theorem Command.hasIssues_simple (assignments : List Assignment) (words : List Word) (location : Location) :
    (Part.command (.simple assignments words location)).HasIssues
      (Command.simple assignments words location).issues := by
  have own : (Part.command (.simple assignments words location)).ownIssues =
      Defect.emptyCommand.issues (words.isEmpty && assignments.isEmpty) location := by
    cases assignments <;> cases words <;> rfl
  rw [Command.issues, ← own, List.append_assoc,
    issuesOfParts_eq_flatMap .assignment (Part.assignment · location),
    issuesOfParts_eq_flatMap .word (Part.word · location), ← List.flatMap_append]
  apply Part.hasIssues_of_branches
  · intro segment child
    simp only [List.mem_append, mem_branchesTo]
    constructor
    · intro step
      cases segment with
      | assignment index =>
        obtain ⟨assignment, found, rfl⟩ := Option.map_eq_some_iff.mp step
        exact ⟨_, .inl ⟨index, assignment, found, rfl⟩, rfl, rfl⟩
      | word index =>
        obtain ⟨word, found, rfl⟩ := Option.map_eq_some_iff.mp step
        exact ⟨_, .inr ⟨index, word, found, rfl⟩, rfl, rfl⟩
      | _ => cases step
    · rintro ⟨branch, ⟨index, assignment, found, rfl⟩ | ⟨index, word, found, rfl⟩, rfl, rfl⟩
      · exact Option.map_eq_some_iff.mpr ⟨assignment, found, rfl⟩
      · exact Option.map_eq_some_iff.mpr ⟨word, found, rfl⟩
  · rw [List.pairwise_append]
    refine ⟨pairwise_branchesTo _ _ _ .assignments assignments, pairwise_branchesTo _ _ _ .words words, ?_⟩
    intro left isLeft right isRight
    obtain ⟨index, _, _, rfl⟩ := (mem_branchesTo ..).mp isLeft
    obtain ⟨index', _, _, rfl⟩ := (mem_branchesTo ..).mp isRight
    exact .assignmentWord index index'
  · intro branch member
    rcases List.mem_append.mp member with member | member
    · obtain ⟨_, assignment, _, rfl⟩ := (mem_branchesTo ..).mp member
      exact assignment.hasIssues location
    · obtain ⟨_, word, _, rfl⟩ := (mem_branchesTo ..).mp member
      exact word.hasIssues location

/-- The issues of a body, which is a part by itself, from those of its lists. -/
theorem Part.hasIssues_body {lists : List AndOr} (holder : Location)
    (each : ∀ list ∈ lists, (Part.andOr list).HasIssues list.issues) :
    (Part.body lists holder).HasIssues
      (Defect.emptyBody.issues lists.isEmpty holder ++ AndOr.issuesFrom 0 lists) := by
  have own : (Part.body lists holder).ownIssues = Defect.emptyBody.issues lists.isEmpty holder := by
    cases lists <;> rfl
  rw [← own, AndOr.issuesFrom_eq_issuesOfParts]
  refine Part.hasIssues_of_numbered ?_ .lists each
  intro segment child
  cases segment <;> simp [Part.child?]

mutual

theorem Command.hasIssues : ∀ command : Command, (Part.command command).HasIssues command.issues
  | .simple assignments words location => Command.hasIssues_simple assignments words location
  | .group body location => by
    refine Part.hasIssues_of_only ?_ (Part.hasIssues_body location (AndOr.hasIssues_of_mem body))
    intro segment child
    cases segment <;> simp [Part.child?]
  | .subshell body location => by
    refine Part.hasIssues_of_only ?_ (Part.hasIssues_body location (AndOr.hasIssues_of_mem body))
    intro segment child
    cases segment <;> simp [Part.child?]

theorem Pipeline.hasIssues : ∀ pipeline : Pipeline, (Part.pipeline pipeline).HasIssues pipeline.issues
  | .mk negated commands => by
    have own : (Part.pipeline (.mk negated commands)).ownIssues =
        Defect.emptyPipeline.issues commands.isEmpty none := by
      cases commands <;> rfl
    rw [Pipeline.issues, ← own, Command.issuesFrom_eq_issuesOfParts]
    refine Part.hasIssues_of_numbered ?_ .commands (Command.hasIssues_of_mem commands)
    intro segment child
    cases segment <;> simp [Part.child?, Pipeline.commands]

theorem Command.hasIssues_of_mem : ∀ commands : List Command, ∀ command ∈ commands,
    (Part.command command).HasIssues command.issues
  | [] => nofun
  | command :: rest => List.forall_mem_cons.mpr ⟨command.hasIssues, Command.hasIssues_of_mem rest⟩

theorem Link.hasIssues : ∀ link : Link, (Part.link link).HasIssues link.issues
  | .mk connective pipeline => by
    refine Part.hasIssues_of_only ?_ pipeline.hasIssues
    intro segment child
    cases segment <;> simp [Part.child?, Link.pipeline]

theorem Link.hasIssues_of_mem : ∀ links : List Link, ∀ link ∈ links, (Part.link link).HasIssues link.issues
  | [] => nofun
  | link :: rest => List.forall_mem_cons.mpr ⟨link.hasIssues, Link.hasIssues_of_mem rest⟩

theorem AndOr.hasIssues : ∀ list : AndOr, (Part.andOr list).HasIssues list.issues
  | .mk first links terminator => by
    rw [AndOr.issues, Link.issuesFrom_eq_issuesOfParts, issuesOfParts_eq_flatMap .link Part.link]
    refine Part.hasIssues_of_branches
      (⟨.pipeline, .pipeline first, first.issues⟩ :: branchesTo .link Part.link Link.issues links) ?_ ?_ ?_
    · intro segment child
      constructor
      · intro step
        cases segment with
        | pipeline =>
          cases step
          exact ⟨_, List.mem_cons_self, rfl, rfl⟩
        | link index =>
          obtain ⟨link, found, rfl⟩ := Option.map_eq_some_iff.mp step
          have member := (mem_branchesTo .link Part.link Link.issues).mpr ⟨index, link, found, rfl⟩
          exact ⟨_, List.mem_cons_of_mem _ member, rfl, rfl⟩
        | _ => exact nomatch step
      · rintro ⟨branch, member, rfl, rfl⟩
        rcases List.mem_cons.mp member with rfl | member
        · rfl
        · obtain ⟨index, link, found, rfl⟩ := (mem_branchesTo ..).mp member
          exact Option.map_eq_some_iff.mpr ⟨link, found, rfl⟩
    · refine List.pairwise_cons.mpr ⟨?_, pairwise_branchesTo _ _ _ .links links⟩
      intro branch member
      obtain ⟨index, _, _, rfl⟩ := (mem_branchesTo ..).mp member
      exact .pipelineLink index
    · refine List.forall_mem_cons.mpr ⟨first.hasIssues, ?_⟩
      intro branch member
      obtain ⟨_, link, found, rfl⟩ := (mem_branchesTo ..).mp member
      exact Link.hasIssues_of_mem links link (List.mem_of_getElem? found)

theorem AndOr.hasIssues_of_mem : ∀ lists : List AndOr, ∀ list ∈ lists, (Part.andOr list).HasIssues list.issues
  | [] => nofun
  | list :: rest => List.forall_mem_cons.mpr ⟨list.hasIssues, AndOr.hasIssues_of_mem rest⟩

end

theorem Script.hasIssues (script : Script) : (Part.script script).HasIssues script.issues := by
  rw [Script.issues, AndOr.issuesFrom_eq_issuesOfParts, ← List.nil_append (issuesOfParts ..)]
  refine Part.hasIssues_of_numbered ?_ .lists (AndOr.hasIssues_of_mem script)
  intro segment child
  cases segment <;> simp [Part.child?]

/-! ## Locations -/

/-- The location of the innermost command at or above a part, where the part knows it. -/
def Part.holder? : Part → Option Location
  | .body _ holder => some holder
  | .command node => some node.location
  | .assignment _ holder => some holder
  | .name _ holder => some holder
  | .word _ holder => some holder
  | _ => none

/-- A pipeline alone lacks something without a location, and every other node has that of its holder. -/
theorem Part.holder?_of_defect? {part : Part} {defect : Defect} {location : Option Location}
    (lacks : part.defect? = some (defect, location)) :
    (location = none ↔ defect = .emptyPipeline) ∧ location = part.holder? := by
  unfold defect? at lacks
  split at lacks <;> cases lacks <;> simp [holder?, Command.location]

theorem Part.holder?_of_child? {part child : Part} {segment : Segment} {location : Location}
    (step : part.child? segment = some child) (holder : child.holder? = some location) :
    (∃ command, child = .command command ∧ command.location = location) ∨
      part.holder? = some location ∧ ∀ index, segment ≠ .command index := by
  unfold child? at step
  split at step <;> grind [holder?, Command.location]

/-- The holder of a part is the last command on the way to it. -/
theorem Part.exists_command_of_holder? {part found : Part} {address : Address} {location : Location}
    (reached : part.follow? address = some found) (holder : found.holder? = some location) :
    (∃ front command back, address = front ++ back ∧ part.follow? front = some (.command command) ∧
      command.location = location ∧ ∀ index, .command index ∉ back) ∨
      part.holder? = some location ∧ ∀ index, .command index ∉ address := by
  induction address generalizing part with
  | nil =>
    cases reached
    exact .inr ⟨holder, by simp⟩
  | cons segment rest ih =>
    obtain ⟨child, step, reached⟩ := Option.bind_eq_some_iff.mp reached
    rcases ih reached with ⟨front, command, back, rfl, way, same, last⟩ | ⟨outer, last⟩
    · refine .inl ⟨segment :: front, command, back, rfl, ?_, same, last⟩
      rw [follow?, step, Option.bind_some, way]
    · rcases holder?_of_child? step outer with ⟨command, rfl, same⟩ | ⟨outer, other⟩
      · refine .inl ⟨[segment], command, rest, rfl, ?_, same, last⟩
        rw [follow?, step]
        rfl
      · refine .inr ⟨outer, ?_⟩
        intro index member
        rcases List.mem_cons.mp member with same | member
        · exact other index same.symm
        · exact last index member

/-! ## Issues and what is found at their addresses -/

/-- What an address leads to is what its text names. -/
theorem Script.named?_text (script : Script) (address : Address) : script.named? address.text = script.at? address := by
  rw [named?, Address.ofText?_text, Option.bind_some]

/-- A script has an issue for a path exactly if the path names a node that lacks something, and then of this
kind and with the location that goes with it. The issues come in the order in which a walk meets these
nodes, and no two have one path. Only empty pipelines have no location; any other issue has the location of
the last command on the way to its node. -/
theorem Script.issues_exact (script : Script) :
    (∀ defect path location,
      (∃ issue ∈ script.issues,
          issue.defect = defect ∧ issue.address.text = path ∧ issue.location = location) ↔
        ∃ part, script.named? path = some part ∧ part.defect? = some (defect, location)) ∧
      script.issues.Pairwise (fun first second => first.address.Before second.address) ∧
      (script.issues.map fun issue => issue.address.text).Nodup ∧
      ∀ issue ∈ script.issues,
        (issue.location = none ↔ issue.defect = .emptyPipeline) ∧
          ∀ location, issue.location = some location → ∃ front command back, issue.address = front ++ back ∧
            script.at? front = some (.command command) ∧ command.location = location ∧
              ∀ index, .command index ∉ back := by
  obtain ⟨mem_iff, ordered⟩ := script.hasIssues
  refine ⟨?_, ordered, ?_, ?_⟩
  · intro defect path location
    constructor
    · rintro ⟨issue, member, rfl, rfl, rfl⟩
      obtain ⟨part, reached, lacks⟩ := (mem_iff issue).mp member
      exact ⟨part, (script.named?_text issue.address).trans reached, lacks⟩
    · rintro ⟨part, named, lacks⟩
      obtain ⟨address, read, reached⟩ := Option.bind_eq_some_iff.mp named
      have listed := (mem_iff ⟨defect, address, location⟩).mpr ⟨part, reached, lacks⟩
      exact ⟨_, listed, rfl, Address.text_of_ofText? read, rfl⟩
  · rw [List.Nodup, List.pairwise_map]
    refine ordered.imp ?_
    intro first second before same
    rw [Address.text_injective same] at before
    exact Address.Before.irrefl _ before
  · intro issue member
    obtain ⟨part, reached, lacks⟩ := (mem_iff issue).mp member
    obtain ⟨located, held⟩ := Part.holder?_of_defect? lacks
    refine ⟨located, ?_⟩
    intro location some
    rcases Part.exists_command_of_holder? reached (held.symm.trans some) with inside | ⟨outside, _⟩
    · exact inside
    · exact nomatch outside

/-- Four incomplete nodes: a word and a command in one pipeline, the name of an assignment in a group behind
them, and the pipeline of a link. -/
theorem Script.issues_exact_four :
    let place : Location := { file := some "t.sh", line := 2, column := 5 }
    let inner : AndOr := .mk (.mk false [.simple [⟨"a", {}⟩, ⟨"", {}⟩] [] place]) [] .sequential
    let script : Script := [.mk (.mk false [.simple [] [{}] place, .simple [] [] {}])
      [.mk .andThen (.mk false [.group [inner] {}]), .mk .orElse .empty] .sequential]
    script.issues = [
        ⟨.emptyWord, [.list 0, .pipeline, .command 0, .word 0], some place⟩,
        ⟨.emptyCommand, [.list 0, .pipeline, .command 1], some {}⟩,
        ⟨.emptyAssignmentName, [.list 0, .link 0, .pipeline, .command 0, .body, .list 0, .pipeline, .command 0,
          .assignment 1, .name], some place⟩,
        ⟨.emptyPipeline, [.list 0, .link 1, .pipeline], none⟩] ∧
      (∃ part, script.named? "lists[0].pipeline.commands[0].words[0]" = some part ∧
        part.defect? = some (.emptyWord, some place)) ∧
      (∃ part, script.named?
          "lists[0].rest[0].pipeline.commands[0].body.lists[0].pipeline.commands[0].assignments[1].name" = some part ∧
        part.defect? = some (.emptyAssignmentName, some place)) ∧
      ∃ part, script.named? "lists[0].rest[1].pipeline" = some part ∧ part.defect? = some (.emptyPipeline, none) := by
  intro place inner script
  have issues : script.issues = [
      ⟨.emptyWord, [.list 0, .pipeline, .command 0, .word 0], some place⟩,
      ⟨.emptyCommand, [.list 0, .pipeline, .command 1], some {}⟩,
      ⟨.emptyAssignmentName, [.list 0, .link 0, .pipeline, .command 0, .body, .list 0, .pipeline, .command 0,
        .assignment 1, .name], some place⟩,
      ⟨.emptyPipeline, [.list 0, .link 1, .pipeline], none⟩] := by decide
  have word : Address.text [.list 0, .pipeline, .command 0, .word 0] = "lists[0].pipeline.commands[0].words[0]" := by
    decide
  have name : Address.text [.list 0, .link 0, .pipeline, .command 0, .body, .list 0, .pipeline, .command 0,
      .assignment 1, .name] =
        "lists[0].rest[0].pipeline.commands[0].body.lists[0].pipeline.commands[0].assignments[1].name" := by
    decide
  have pipeline : Address.text [.list 0, .link 1, .pipeline] = "lists[0].rest[1].pipeline" := by decide
  have named {defect : Defect} {address : Address} {location : Option Location} {path : String}
      (listed : ⟨defect, address, location⟩ ∈ script.issues) (text : address.text = path) :
      ∃ part, script.named? path = some part ∧ part.defect? = some (defect, location) :=
    ((Script.issues_exact script).1 defect path location).mp ⟨_, listed, rfl, text, rfl⟩
  exact ⟨issues, named (by simp [issues]) word, named (by simp [issues]) name, named (by simp [issues]) pipeline⟩

end ShellTree
