import ShellTree.Tree

/-!
# Structural issues

Five kinds of node need content: a pipeline its commands, a simple command a word or an assignment,
a word of a command its fragments, an assignment a name, and a compound command a body. An issue
names the kind of defect, the address of the defective node, and the location of the command that
holds it.

Each function here lists the issues of one kind of node, addressed from that node, in depth-first
order from left to right; `Issue.under` readdresses them from the node above. An incomplete tree is
still a tree, and can be written.
-/

namespace ShellTree

inductive Defect where
  | emptyPipeline
  | emptyCommand
  | emptyWord
  | emptyAssignmentName
  | emptyBody
deriving DecidableEq

def Defect.text : Defect → String
  | .emptyPipeline => "pipeline has no commands"
  | .emptyCommand => "simple command has no words or assignments"
  | .emptyWord => "word has no components"
  | .emptyAssignmentName => "assignment has an empty name"
  | .emptyBody => "compound command has an empty body"

/-- One step from a node to a part of it. -/
inductive Segment where
  | list (index : Nat)
  | link (index : Nat)
  | pipeline
  | command (index : Nat)
  | assignment (index : Nat)
  | name
  | word (index : Nat)
  | body
deriving DecidableEq

/-- A segment that counts its parts shows the number in brackets, from zero. -/
def Segment.text : Segment → String
  | .list index => "lists[" ++ index.repr ++ "]"
  | .link index => "rest[" ++ index.repr ++ "]"
  | .pipeline => "pipeline"
  | .command index => "commands[" ++ index.repr ++ "]"
  | .assignment index => "assignments[" ++ index.repr ++ "]"
  | .name => "name"
  | .word index => "words[" ++ index.repr ++ "]"
  | .body => "body"

/-- The way from a node down to one of its parts. -/
abbrev Address := List Segment

/-- The segments of an address, with a dot between them. -/
def Address.text (address : Address) : String :=
  ".".intercalate (address.map Segment.text)

/-- A defect, where it is in the tree, and where its command was written. -/
structure Issue where
  defect : Defect
  address : Address
  location : Option Location
deriving DecidableEq

namespace Issue

/-- An issue of a part, addressed from the node above it. -/
def under (segment : Segment) (issue : Issue) : Issue :=
  { issue with address := segment :: issue.address }

/-- An issue reads `address (location): defect`, without the parentheses when it has no location. -/
def text (issue : Issue) : String :=
  match issue.location with
  | some location =>
    Address.text issue.address ++ " (" ++ location.text ++ "): " ++ issue.defect.text
  | none => Address.text issue.address ++ ": " ++ issue.defect.text

end Issue

/-- The one issue of a node that lacks content, if it does. -/
def Defect.issues (defect : Defect) (lacking : Bool) (location : Option Location) : List Issue :=
  if lacking then [⟨defect, [], location⟩] else []

/-- The issues of numbered parts, starting from the number `first`. -/
def issuesOfParts {α : Type} (segment : Nat → Segment) (issues : α → List Issue) :
    Nat → List α → List Issue
  | _, [] => []
  | first, part :: rest =>
    (issues part).map (Issue.under (segment first)) ++ issuesOfParts segment issues (first + 1) rest

/-- A word of a command needs a fragment, which may be empty. -/
def Word.issues (location : Location) (word : Word) : List Issue :=
  Defect.emptyWord.issues word.fragments.isEmpty location

/-- An assignment needs a name; its value may be empty. -/
def Assignment.issues (location : Location) (assignment : Assignment) : List Issue :=
  (Defect.emptyAssignmentName.issues assignment.name.isEmpty location).map (Issue.under .name)

mutual

/-- The issues of a command: its own defect first, then those of its parts. -/
def Command.issues : Command → List Issue
  | .simple assignments words location =>
    Defect.emptyCommand.issues (words.isEmpty && assignments.isEmpty) location ++
      issuesOfParts .assignment (Assignment.issues location) 0 assignments ++
      issuesOfParts .word (Word.issues location) 0 words
  | .group body location =>
    (Defect.emptyBody.issues body.isEmpty location ++ AndOr.issuesFrom 0 body).map
      (Issue.under .body)
  | .subshell body location =>
    (Defect.emptyBody.issues body.isEmpty location ++ AndOr.issuesFrom 0 body).map
      (Issue.under .body)

/-- The issues of a pipeline; its own defect has no location. -/
def Pipeline.issues : Pipeline → List Issue
  | .mk _ commands =>
    Defect.emptyPipeline.issues commands.isEmpty none ++ Command.issuesFrom 0 commands

/-- The issues of commands that are numbered from `first`. -/
def Command.issuesFrom (first : Nat) : List Command → List Issue
  | [] => []
  | command :: rest =>
    command.issues.map (Issue.under (.command first)) ++ Command.issuesFrom (first + 1) rest

/-- The issues of the pipeline that a link guards. -/
def Link.issues : Link → List Issue
  | .mk _ pipeline => pipeline.issues.map (Issue.under .pipeline)

def Link.issuesFrom (first : Nat) : List Link → List Issue
  | [] => []
  | link :: rest => link.issues.map (Issue.under (.link first)) ++ Link.issuesFrom (first + 1) rest

/-- The issues of a list: those of its first pipeline, then those of its links. -/
def AndOr.issues : AndOr → List Issue
  | .mk first links _ => first.issues.map (Issue.under .pipeline) ++ Link.issuesFrom 0 links

def AndOr.issuesFrom (first : Nat) : List AndOr → List Issue
  | [] => []
  | list :: rest => list.issues.map (Issue.under (.list first)) ++ AndOr.issuesFrom (first + 1) rest

end

/-- The issues of a script, addressed from the script. -/
def Script.issues (script : Script) : List Issue := AndOr.issuesFrom 0 script

/-! ## Nodes without issues -/

@[simp] theorem Defect.issues_eq_nil {defect : Defect} {lacking : Bool} {location : Option Location} :
    defect.issues lacking location = [] ↔ lacking = false := by
  cases lacking <;> simp [issues]

theorem issuesOfParts_eq_nil {α : Type} {segment : Nat → Segment} {issues : α → List Issue}
    {parts : List α} {first : Nat} :
    issuesOfParts segment issues first parts = [] ↔ ∀ part ∈ parts, issues part = [] := by
  induction parts generalizing first with
  | nil => simp [issuesOfParts]
  | cons part rest ih => simp [issuesOfParts, ih]

/-- A simple command lacks nothing if it has a word or an assignment, its assignments have names and
its words have fragments. -/
@[simp] theorem Command.issues_simple_eq_nil {assignments : List Assignment} {words : List Word}
    {location : Location} :
    (Command.simple assignments words location).issues = [] ↔
      (words = [] → assignments ≠ []) ∧ (∀ assignment ∈ assignments, assignment.name ≠ "") ∧
        ∀ word ∈ words, word.fragments ≠ [] := by
  simp [Command.issues, issuesOfParts_eq_nil, Assignment.issues, Word.issues]

@[simp] theorem AndOr.issuesFrom_eq_nil {lists : List AndOr} {first : Nat} :
    AndOr.issuesFrom first lists = [] ↔ ∀ list ∈ lists, list.issues = [] := by
  induction lists generalizing first with
  | nil => simp [AndOr.issuesFrom]
  | cons list rest ih => simp [AndOr.issuesFrom, ih]

@[simp] theorem Command.issuesFrom_eq_nil {commands : List Command} {first : Nat} :
    Command.issuesFrom first commands = [] ↔ ∀ command ∈ commands, command.issues = [] := by
  induction commands generalizing first with
  | nil => simp [Command.issuesFrom]
  | cons command rest ih => simp [Command.issuesFrom, ih]

@[simp] theorem Link.issuesFrom_eq_nil {links : List Link} {first : Nat} :
    Link.issuesFrom first links = [] ↔ ∀ link ∈ links, link.issues = [] := by
  induction links generalizing first with
  | nil => simp [Link.issuesFrom]
  | cons link rest ih => simp [Link.issuesFrom, ih]

@[simp] theorem Command.issues_group_eq_nil {body : List AndOr} {location : Location} :
    (Command.group body location).issues = [] ↔ body ≠ [] ∧ ∀ list ∈ body, list.issues = [] := by
  simp [Command.issues]

@[simp] theorem Command.issues_subshell_eq_nil {body : List AndOr} {location : Location} :
    (Command.subshell body location).issues = [] ↔ body ≠ [] ∧ ∀ list ∈ body, list.issues = [] := by
  simp [Command.issues]

@[simp] theorem Pipeline.issues_eq_nil {negated : Bool} {commands : List Command} :
    (Pipeline.mk negated commands).issues = [] ↔
      commands ≠ [] ∧ ∀ command ∈ commands, command.issues = [] := by
  simp [Pipeline.issues]

@[simp] theorem Link.issues_eq_nil {connective : Connective} {pipeline : Pipeline} :
    (Link.mk connective pipeline).issues = [] ↔ pipeline.issues = [] := by
  simp [Link.issues]

@[simp] theorem AndOr.issues_eq_nil {first : Pipeline} {links : List Link} {terminator : Terminator} :
    (AndOr.mk first links terminator).issues = [] ↔
      first.issues = [] ∧ ∀ link ∈ links, link.issues = [] := by
  simp [AndOr.issues]

theorem Script.issues_eq_nil {script : Script} :
    Script.issues script = [] ↔ ∀ list ∈ script, list.issues = [] :=
  AndOr.issuesFrom_eq_nil

end ShellTree
