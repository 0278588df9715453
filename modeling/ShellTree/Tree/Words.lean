import ShellTree.Issue

/-!
# The words of a tree

Whatever text a tree takes from outside is in its simple commands: words, and the names and values of
assignments. Here the simple commands of a tree are listed in the order in which they were written, so
that a rule for such texts can be given to all of them at once. `Meets` is such a rule for a tree that
lacks nothing, and can be handed down from a node to its parts.
-/

namespace ShellTree

/-- A text without any of the given characters. -/
def Avoids (marks : List Char) (text : String) : Prop := ∀ c ∈ text.toList, c ∉ marks

instance {marks : List Char} {text : String} : Decidable (Avoids marks text) :=
  List.decidableBAll (· ∉ marks) text.toList

/-- A text that avoids some characters avoids each selection of them. -/
theorem Avoids.subset {marks fewer : List Char} {text : String} (avoids : Avoids marks text)
    (included : fewer ⊆ marks) : Avoids fewer text :=
  fun c member mark => avoids c member (included mark)

structure Simple where
  assignments : List Assignment
  words : List Word

mutual

/-- The simple commands of a command. -/
def Command.simples : Command → List Simple
  | .simple assignments words _ => [⟨assignments, words⟩]
  | .group body _ => AndOr.simplesOf body
  | .subshell body _ => AndOr.simplesOf body

def Pipeline.simples : Pipeline → List Simple
  | .mk _ commands => Command.simplesOf commands

def Command.simplesOf : List Command → List Simple
  | [] => []
  | command :: rest => command.simples ++ Command.simplesOf rest

def Link.simples : Link → List Simple
  | .mk _ pipeline => pipeline.simples

def Link.simplesOf : List Link → List Simple
  | [] => []
  | link :: rest => link.simples ++ Link.simplesOf rest

def AndOr.simples : AndOr → List Simple
  | .mk first links _ => first.simples ++ Link.simplesOf links

def AndOr.simplesOf : List AndOr → List Simple
  | [] => []
  | list :: rest => list.simples ++ AndOr.simplesOf rest

end

/-- The words of all commands of a script. -/
def Script.words (script : Script) : List Word := (AndOr.simplesOf script).flatMap Simple.words

/-- The assignments of all commands of a script. -/
def Script.assignments (script : Script) : List Assignment := (AndOr.simplesOf script).flatMap Simple.assignments

theorem Command.mem_simplesOf {simple : Simple} {commands : List Command} :
    simple ∈ Command.simplesOf commands ↔ ∃ command ∈ commands, simple ∈ command.simples := by
  induction commands with
  | nil => simp [simplesOf]
  | cons command rest ih => simp [simplesOf, ih]

theorem Link.mem_simplesOf {simple : Simple} {links : List Link} :
    simple ∈ Link.simplesOf links ↔ ∃ link ∈ links, simple ∈ link.simples := by
  induction links with
  | nil => simp [simplesOf]
  | cons link rest ih => simp [simplesOf, ih]

theorem AndOr.mem_simplesOf {simple : Simple} {lists : List AndOr} :
    simple ∈ AndOr.simplesOf lists ↔ ∃ list ∈ lists, simple ∈ list.simples := by
  induction lists with
  | nil => simp [simplesOf]
  | cons list rest ih => simp [simplesOf, ih]

/-! ## Rules for simple commands -/

section

variable (rule : Simple → Prop)

/-- A command that lacks nothing, and whose simple commands all keep to a rule. -/
def Command.Meets (command : Command) : Prop := command.issues = [] ∧ ∀ simple ∈ command.simples, rule simple

def Pipeline.Meets (pipeline : Pipeline) : Prop := pipeline.issues = [] ∧ ∀ simple ∈ pipeline.simples, rule simple

def Link.Meets (link : Link) : Prop := link.issues = [] ∧ ∀ simple ∈ link.simples, rule simple

def AndOr.Meets (list : AndOr) : Prop := list.issues = [] ∧ ∀ simple ∈ list.simples, rule simple

end

variable {rule : Simple → Prop}

theorem Command.meets_simple {assignments : List Assignment} {words : List Word} {location : Location} :
    (Command.simple assignments words location).Meets rule ↔
      (Command.simple assignments words location).issues = [] ∧ rule ⟨assignments, words⟩ := by
  simp only [Meets, simples, List.mem_singleton, forall_eq]

/-- A rule that follows from another one is met where that one is. -/
theorem Command.Meets.imp {weaker : Simple → Prop} {command : Command} (meets : command.Meets rule)
    (implies : ∀ simple, rule simple → weaker simple) : command.Meets weaker :=
  ⟨meets.1, fun simple member => implies simple (meets.2 simple member)⟩

theorem AndOr.Meets.imp {weaker : Simple → Prop} {list : AndOr} (meets : list.Meets rule)
    (implies : ∀ simple, rule simple → weaker simple) : list.Meets weaker :=
  ⟨meets.1, fun simple member => implies simple (meets.2 simple member)⟩

theorem AndOr.meets_lists {lists : List AndOr} :
    ((∀ list ∈ lists, list.issues = []) ∧ ∀ simple ∈ AndOr.simplesOf lists, rule simple) ↔
      ∀ list ∈ lists, list.Meets rule := by
  simp only [AndOr.mem_simplesOf, AndOr.Meets]
  grind

@[simp] theorem Command.meets_group {body : List AndOr} {location : Location} :
    (Command.group body location).Meets rule ↔ body ≠ [] ∧ ∀ list ∈ body, list.Meets rule := by
  rw [← AndOr.meets_lists, ← and_assoc, ← Command.issues_group_eq_nil]
  rfl

@[simp] theorem Command.meets_subshell {body : List AndOr} {location : Location} :
    (Command.subshell body location).Meets rule ↔ body ≠ [] ∧ ∀ list ∈ body, list.Meets rule := by
  rw [← AndOr.meets_lists, ← and_assoc, ← Command.issues_subshell_eq_nil]
  rfl

@[simp] theorem Pipeline.meets_mk {negated : Bool} {commands : List Command} :
    (Pipeline.mk negated commands).Meets rule ↔ commands ≠ [] ∧ ∀ command ∈ commands, command.Meets rule := by
  simp only [Pipeline.Meets, Pipeline.issues_eq_nil, Pipeline.simples, Command.mem_simplesOf, Command.Meets]
  grind

@[simp] theorem Link.meets_mk {connective : Connective} {pipeline : Pipeline} :
    (Link.mk connective pipeline).Meets rule ↔ pipeline.Meets rule := by
  simp only [Link.Meets, Link.issues_eq_nil, Link.simples, Pipeline.Meets]

@[simp] theorem AndOr.meets_mk {first : Pipeline} {links : List Link} {terminator : Terminator} :
    (AndOr.mk first links terminator).Meets rule ↔ first.Meets rule ∧ ∀ link ∈ links, link.Meets rule := by
  simp only [AndOr.Meets, AndOr.issues_eq_nil, AndOr.simples, List.mem_append, Link.mem_simplesOf, Link.Meets,
    Pipeline.Meets]
  grind

/-- What holds of all words and of all assignments of a complete script is a rule that its lists meet. -/
theorem Script.meets_of_forall {script : Script} {ofWord : Word → Prop} {ofAssignment : Assignment → Prop}
    (complete : script.issues = []) (words : ∀ word ∈ script.words, ofWord word)
    (assignments : ∀ assignment ∈ script.assignments, ofAssignment assignment) :
    ∀ list ∈ script, list.Meets fun simple =>
      (∀ word ∈ simple.words, ofWord word) ∧ ∀ assignment ∈ simple.assignments, ofAssignment assignment := by
  refine AndOr.meets_lists.mp ⟨Script.issues_eq_nil.mp complete, fun simple member => ⟨?_, ?_⟩⟩
  · exact fun word inside => words word (List.mem_flatMap.mpr ⟨simple, member, inside⟩)
  · exact fun assignment inside => assignments assignment (List.mem_flatMap.mpr ⟨simple, member, inside⟩)

end ShellTree
