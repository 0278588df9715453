import ShellTree.Issue

/-!
# Parts of a tree

What an address leads to, and what a part lacks by itself. A part knows the location of the innermost
command that holds it, so it can be asked for the defect that it shows, without the tree around it.
This says which nodes of a tree have an issue without saying how the issues are found.
-/

namespace ShellTree

/-- A part of a tree that a segment can lead to or away from. -/
inductive Part where
  /-- A whole script. -/
  | script (node : Script)
  /-- The script inside the command that is written at `holder`. -/
  | body (node : Script) (holder : Location)
  | andOr (node : AndOr)
  | link (node : Link)
  | pipeline (node : Pipeline)
  | command (node : Command)
  | assignment (node : Assignment) (holder : Location)
  /-- The name of an assignment. -/
  | name (text : String) (holder : Location)
  | word (node : Word) (holder : Location)
deriving DecidableEq

namespace Part

def child? : Part → Segment → Option Part
  | .script lists, .list index => lists[index]?.map .andOr
  | .body lists _, .list index => lists[index]?.map .andOr
  | .andOr l, .pipeline => some (.pipeline l.first)
  | .andOr l, .link index => l.links[index]?.map .link
  | .link l, .pipeline => some (.pipeline l.pipeline)
  | .pipeline p, .command index => p.commands[index]?.map .command
  | .command (.simple assignments _ location), .assignment index =>
    assignments[index]?.map (.assignment · location)
  | .command (.simple _ words location), .word index => words[index]?.map (.word · location)
  | .command (.group lists location), .body => some (.body lists location)
  | .command (.subshell lists location), .body => some (.body lists location)
  | .assignment a holder, .name => some (.name a.name holder)
  | _, _ => none

def follow? : Part → Address → Option Part
  | part, [] => some part
  | part, segment :: rest => (part.child? segment).bind fun part => part.follow? rest

/-- What a part lacks by itself, with the location that goes with it. -/
def defect? : Part → Option (Defect × Option Location)
  | .body [] holder => some (.emptyBody, some holder)
  | .pipeline (.mk _ []) => some (.emptyPipeline, none)
  | .command (.simple [] [] location) => some (.emptyCommand, some location)
  | .name "" holder => some (.emptyAssignmentName, some holder)
  | .word ⟨[]⟩ holder => some (.emptyWord, some holder)
  | _ => none

/-- Following two addresses one after the other is following them at once. -/
theorem follow?_append (part : Part) (front back : Address) :
    part.follow? (front ++ back) = (part.follow? front).bind fun part => part.follow? back := by
  induction front generalizing part with
  | nil => rfl
  | cons segment rest ih => simp only [List.cons_append, follow?, ih, Option.bind_assoc]

end Part

/-- The part of a script that an address leads to. -/
def Script.at? (script : Script) (address : Address) : Option Part :=
  (Part.script script).follow? address

end ShellTree
