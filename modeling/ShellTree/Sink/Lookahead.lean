import ShellTree.Sink.Step

/-!
# Looking ahead

What a program of sink operations writes, told without a sink. The operations are listed as events in the
order in which they happen. Scopes are taken out of the list: an indentation has the level that the
innermost scope around it sets, and what stands behind a `leave` does not happen.

Then events look at each other. A deferred text looks ahead to what settles it, which can be arbitrarily
far off: if that is a text or a commit, it is written there, and if it is a line break or a drop, or if
nothing settles it, it is not written. A queued line looks ahead to the next line break in the same way.
-/

namespace ShellTree

/-- A sink operation that happens, without the scopes that it happens in. -/
inductive Event where
  | append (text : String)
  | defer (text : String)
  | queueLine (text : String)
  | dropPending
  | commitPending
  | breakLine
  /-- Prints the indentation of a level. -/
  | indent (level : Nat)
deriving DecidableEq

namespace Event

/-- The text that an event defers. On a single line a line break defers a space. -/
def deferred (mode : LineMode) : Event → String
  | .defer text => text
  | .breakLine =>
    match mode with
    | .single => " "
    | .multi => ""
  | _ => ""

/-- Whether deferred texts do not wait beyond an event: they are written there or given up. -/
def settles : Event → Bool
  | .append _ | .commitPending | .dropPending | .breakLine => true
  | _ => false

def queued : Event → String
  | .queueLine text => text
  | _ => ""

/-- Whether queued texts do not wait beyond an event. -/
def breaks : Event → Bool
  | .breakLine => true
  | _ => false

/-- The texts of events in their order, but none that has an event that `stops` it behind its own. -/
def unstopped (text : Event → String) (stops : Event → Bool) : List Event → String
  | [] => ""
  | event :: rest => (if rest.any stops then "" else text event) ++ unstopped text stops rest

/-- What is written where an event happens behind `past`. Deferred texts that nothing has settled stand in
front of a text or where they are committed, and queued lines behind a line break. Where lines are real an
indentation is written at once, also where deferred texts wait. -/
def writes (mode : LineMode) (past : List Event) : Event → String
  | .append text => unstopped (deferred mode) settles past ++ text
  | .commitPending => unstopped (deferred mode) settles past
  | .breakLine =>
    match mode with
    | .single => ""
    | .multi => "\n" ++ unstopped queued breaks past
  | .indent level =>
    match mode with
    | .single => ""
    | .multi => spaces (indentWidth * level)
  | .defer _ | .queueLine _ | .dropPending => ""

def layout (mode : LineMode) (events : List Event) : String :=
  String.join (events.mapIdx fun index event => event.writes mode (events.take index))

/-! ## One more event -/

theorem unstopped_concat (text : Event → String) (stops : Event → Bool) (past : List Event) (event : Event) :
    unstopped text stops (past ++ [event]) =
      (if stops event then "" else unstopped text stops past) ++ text event := by
  induction past with
  | nil => simp [unstopped]
  | cons first rest ih =>
    simp only [List.cons_append, unstopped, List.any_append, List.any_cons, List.any_nil, Bool.or_false, ih]
    cases stops event with
    | true => simp
    | false => simp [String.append_assoc]

theorem layout_concat (mode : LineMode) (past : List Event) (event : Event) :
    layout mode (past ++ [event]) = layout mode past ++ event.writes mode past := by
  have earlier : (past.mapIdx fun index earlier => earlier.writes mode ((past ++ [event]).take index)) =
      past.mapIdx fun index earlier => earlier.writes mode (past.take index) := by
    apply List.ext_getElem
    · simp
    · intro index inside inside'
      have short : index ≤ past.length := by
        rw [List.length_mapIdx] at inside
        omega
      simp only [List.getElem_mapIdx, List.take_append_of_le_length short]
  rw [layout, List.mapIdx_concat, earlier, List.take_left, String.join_append]
  simp [layout]

end Event

/-! ## The events of a program -/

mutual

/-- The events of a step that is run at `level`. A node is no single operation and has none here; a side run
has none that count. -/
def Step.events (level : Nat) : Step → List Event
  | .append text => [.append text]
  | .defer text => [.defer text]
  | .queueLine text => [.queueLine text]
  | .dropPending => [.dropPending]
  | .commitPending => [.commitPending]
  | .breakLine => [.breakLine]
  | .printIndent => [.indent level]
  | .node _ => []
  | .indentedBy increment steps => Step.eventsOf (level + increment) steps
  | .indentedTo inner steps => Step.eventsOf inner steps
  | .fork _ => []
  | .leave => []

def Step.eventsOf (level : Nat) : List Step → List Event
  | [] => []
  | .leave :: _ => []
  | step :: rest => step.events level ++ Step.eventsOf level rest

end

mutual

/-- Whether a step writes no node, and none of the steps in it does. -/
def Step.nodeFree : Step → Bool
  | .node _ => false
  | .indentedBy _ steps => Step.allNodeFree steps
  | .indentedTo _ steps => Step.allNodeFree steps
  | .fork steps => Step.allNodeFree steps
  | _ => true

def Step.allNodeFree : List Step → Bool
  | [] => true
  | step :: rest => step.nodeFree && Step.allNodeFree rest

end

mutual

/-- Whether a step that is run at `level` keeps all levels and indentations in their range. -/
def Step.fits (mode : LineMode) (level : Nat) : Step → Bool
  | .printIndent => mode = .single || indentWidth * level < wordLimit
  | .indentedBy increment steps => level + increment < wordLimit && Step.allFit mode (level + increment) steps
  | .indentedTo inner steps => Step.allFit mode inner steps
  | .fork steps => Step.allFit mode level steps
  | _ => true

def Step.allFit (mode : LineMode) (level : Nat) : List Step → Bool
  | [] => true
  | .leave :: _ => true
  | step :: rest => step.fits mode level && Step.allFit mode level rest

end

end ShellTree
