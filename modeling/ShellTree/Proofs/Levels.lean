import Mathlib.Algebra.Group.Nat.Defs
import Mathlib.Order.Lattice
import ShellTree.Proofs.NewLines
import ShellTree.Tree.Breaks

/-!
# How deep writing goes

Links and groups are what raises levels, so their number bounds how deep the text of a tree can get:
writing a node succeeds on every sink that leaves room for as many levels as the node has links and
groups. On a single line a level need only be a 64-bit quantity; where lines are real, so must be the
width of its indentation. Nothing is asked of the node, which may lack content.

Depth of nesting would be no bound. On a single line a group does not give back the level of its line,
so groups in a row deepen the line one by one. `Node.render_total` says this of nodes of every kind.
-/

namespace ShellTree

/-- Levels below this bound can be in force without leaving the 64-bit range. -/
def LineMode.levelLimit : LineMode → Nat
  | .single => 2 ^ 64
  | .multi => 2 ^ 62

theorem LineMode.levelLimit_le (mode : LineMode) : mode.levelLimit ≤ wordLimit := by
  cases mode <;> decide

/-- Below the limit of its mode a line can be opened. -/
theorem LineMode.fits_of_lt {mode : LineMode} {level : Nat} (room : level < mode.levelLimit) : mode.Fits level := by
  rintro rfl
  simp only [levelLimit, indentWidth, wordLimit, UInt64.size] at room ⊢
  omega

namespace Sink

/-- The deeper of the two levels of a sink. -/
def depth (sink : Sink) : Nat := max sink.level sink.lineLevel

/-- Everything about a sink that is not text. -/
def place (sink : Sink) : LineMode × Nat × Nat := (sink.mode, sink.level, sink.lineLevel)

@[simp] theorem place_append (sink : Sink) (text : String) : (sink.append text).place = sink.place := rfl

theorem eq_of_place_eq {sink other : Sink} (same : sink.place = other.place) :
    sink.mode = other.mode ∧ sink.level = other.level ∧ sink.lineLevel = other.lineLevel := by
  simpa only [place, Prod.mk.injEq] using same

/-- A group can be opened where its body has a level left. -/
theorem exists_openGroup {sink : Sink} (room : sink.lineLevel + 1 < sink.mode.levelLimit) :
    ∃ opened, sink.openGroup = .ok opened ∧
      opened.place = (sink.mode, sink.lineLevel + 1, sink.lineLevel + 1) := by
  have small : sink.lineLevel + 1 < wordLimit := lt_of_lt_of_le room sink.mode.levelLimit_le
  exact ⟨_, openGroup_eq_ok.mpr ⟨⟨small, LineMode.fits_of_lt room⟩, rfl⟩, rfl⟩

/-- A group that could be opened can be closed; its line goes back to the line of the group only where
lines are real. -/
theorem exists_closeGroup {sink inside : Sink} (room : sink.lineLevel < sink.mode.levelLimit)
    (mode : inside.mode = sink.mode) :
    ∃ after, sink.closeGroup inside = .ok after ∧ after.mode = sink.mode ∧ after.level = sink.level ∧
      after.lineLevel ≤ max inside.lineLevel sink.lineLevel := by
  have fits : sink.mode = .multi → inside.mode.Fits sink.lineLevel := by
    intro _
    rw [mode]
    exact LineMode.fits_of_lt room
  refine ⟨_, closeGroup_eq_ok.mpr ⟨fits, rfl⟩, ?_⟩
  unfold onClosingLine
  split
  · exact ⟨mode, rfl, Nat.le_max_left ..⟩
  · exact ⟨mode, rfl, Nat.le_max_right ..⟩

/-- A link can be opened where its pipeline has a level left. -/
theorem exists_openLink {sink : Sink} {connective : Connective} (room : sink.level + 1 < sink.mode.levelLimit) :
    ∃ opened, sink.openLink connective = .ok opened ∧ opened.place = (sink.mode, sink.level + 1, sink.level) := by
  have small : sink.level + 1 < wordLimit := lt_of_lt_of_le room sink.mode.levelLimit_le
  have fits : sink.mode.Fits sink.level := LineMode.fits_of_lt (Nat.lt_of_succ_lt room)
  exact ⟨_, openLink_eq_ok.mpr ⟨⟨small, fits⟩, rfl⟩, rfl⟩

end Sink

/-- A writer that deepens the text by at most `breaks` levels: wherever that many levels are left it
succeeds, gives back the mode and the level, and ends on a line that is no deeper. -/
def Deepens (breaks : Nat) (write : Sink → Except Overflow Sink) : Prop :=
  ∀ sink : Sink, sink.depth + breaks < sink.mode.levelLimit →
    ∃ after, write sink = .ok after ∧ after.mode = sink.mode ∧ after.level = sink.level ∧
      after.lineLevel ≤ sink.depth + breaks

namespace Deepens

variable {breaks more : Nat} {write next : Sink → Except Overflow Sink} {step : Sink → Sink}

theorem of_place (stays : ∀ sink, (step sink).place = sink.place) : Deepens 0 fun sink => .ok (step sink) := by
  intro sink _
  obtain ⟨mode, level, line⟩ := Sink.eq_of_place_eq (stays sink)
  exact ⟨step sink, rfl, mode, level, line.trans_le (Nat.le_max_right ..)⟩

theorem bind (first : Deepens breaks write) (second : Deepens more next) :
    Deepens (breaks + more) fun sink => write sink >>= next := by
  intro sink room
  obtain ⟨middle, ran, mode, level, line⟩ := first sink (by omega)
  have shallow : middle.depth ≤ sink.depth + breaks := by
    unfold Sink.depth at line ⊢
    omega
  obtain ⟨after, ended, mode', level', line'⟩ := second middle (by rw [mode]; omega)
  exact ⟨after, bind_eq_ok.mpr ⟨middle, ran, ended⟩, mode'.trans mode, level'.trans level, by omega⟩

/-- What changes text alone may come before a writer. -/
theorem after_step (stays : ∀ sink, (step sink).place = sink.place) (writes : Deepens breaks write) :
    Deepens breaks fun sink => write (step sink) := by
  rw [← Nat.zero_add breaks]
  exact (of_place stays).bind writes

/-- What changes text alone may come behind a writer. -/
theorem before_step (stays : ∀ sink, (step sink).place = sink.place) (writes : Deepens breaks write) :
    Deepens breaks fun sink => write sink >>= fun inside => .ok (step inside) :=
  writes.bind (of_place stays)

theorem group (body : Deepens breaks write) : Deepens (breaks + 1) (renderGroup write) := by
  intro sink room
  have base : sink.lineLevel ≤ sink.depth := Nat.le_max_right ..
  obtain ⟨opened, opens, stands⟩ := Sink.exists_openGroup (by omega : sink.lineLevel + 1 < sink.mode.levelLimit)
  simp only [Sink.place, Prod.mk.injEq] at stands
  have depth : opened.depth = sink.lineLevel + 1 := by
    rw [Sink.depth, stands.2.1, stands.2.2, Nat.max_self]
  obtain ⟨inside, written, mode, _, line⟩ := body opened (by rw [stands.1]; omega)
  obtain ⟨after, closes, mode', level', line'⟩ :=
    Sink.exists_closeGroup (by omega : sink.lineLevel < sink.mode.levelLimit) (mode.trans stands.1)
  exact ⟨after, renderGroup_eq_ok.mpr ⟨opened, inside, opens, written, closes⟩, mode', level', by omega⟩

theorem subshell (body : Deepens breaks write) : Deepens breaks (renderSubshell write) := by
  have closes (inside : Sink) : ((inside.dropPending.append ")").defer " ").place = inside.place := rfl
  exact (body.after_step fun sink => sink.place_append "(").before_step closes

theorem link {connective : Connective} (pipeline : Deepens breaks write) :
    Deepens (breaks + 1) (renderLink connective write) := by
  intro sink room
  have base : sink.level ≤ sink.depth := Nat.le_max_left ..
  obtain ⟨opened, opens, stands⟩ := Sink.exists_openLink (by omega : sink.level + 1 < sink.mode.levelLimit)
  simp only [Sink.place, Prod.mk.injEq] at stands
  have depth : opened.depth = sink.level + 1 := by
    rw [Sink.depth, stands.2.1, stands.2.2]
    omega
  obtain ⟨inside, written, mode, _, line⟩ := pipeline opened (by rw [stands.1]; omega)
  refine ⟨inside.atLevel sink.level, ?_, mode.trans stands.1, rfl, by change inside.lineLevel ≤ _; omega⟩
  exact renderLink_eq_ok.mpr ⟨opened, inside, opens, written, rfl⟩

end Deepens

theorem Word.place_render (word : Word) (sink : Sink) : (word.render sink).place = sink.place := by
  rw [Word.render_eq]
  split <;> rfl

theorem place_renderSpaced {α : Type} {render : α → Sink → Sink}
    (stays : ∀ item sink, (render item sink).place = sink.place) (items : List α) (sink : Sink) :
    (renderSpaced render items sink).place = sink.place := by
  unfold renderSpaced
  induction items generalizing sink with
  | nil => rfl
  | cons item rest ih => exact (ih _).trans (stays item sink)

theorem Terminator.place_render (terminator : Terminator) (sink : Sink) :
    (terminator.render sink).place = sink.place := by
  cases terminator <;> rfl

mutual

theorem Command.deepens : ∀ command : Command, Deepens command.breaks command.render
  | .simple assignments words _ =>
    Deepens.of_place fun sink =>
      (place_renderSpaced Word.place_render words _).trans
        (place_renderSpaced (fun assignment _ => assignment.value.place_render _) assignments sink)
  | .group body _ => (AndOr.deepens_list body).group
  | .subshell body _ => (AndOr.deepens_list body).subshell

theorem Pipeline.deepens : ∀ pipeline : Pipeline, Deepens pipeline.breaks pipeline.render
  | .mk negated commands => by
    have opens (sink : Sink) : (if negated then sink.append "! " else sink).place = sink.place := by
      split <;> rfl
    have written := Deepens.after_step opens (Command.deepens_piped commands)
    exact written

theorem Command.deepens_piped : ∀ commands : List Command,
    Deepens (Command.breaksOf commands) (Command.renderPiped commands)
  | [] => Deepens.of_place fun _ => rfl
  | command :: rest => command.deepens.bind (Command.deepens_tail rest)

theorem Command.deepens_tail : ∀ commands : List Command,
    Deepens (Command.breaksOf commands) (Command.renderTail commands)
  | [] => Deepens.of_place fun _ => rfl
  | command :: rest =>
    (command.deepens.after_step fun sink => sink.place_append "| ").bind (Command.deepens_tail rest)

theorem Link.deepens : ∀ link : Link, Deepens link.breaks link.render
  | .mk _ pipeline => pipeline.deepens.link

theorem Link.deepens_list : ∀ links : List Link, Deepens (Link.breaksOf links) (Link.renderList links)
  | [] => Deepens.of_place fun _ => rfl
  | link :: rest => link.deepens.bind (Link.deepens_list rest)

theorem AndOr.deepens : ∀ list : AndOr, Deepens list.breaks list.render
  | .mk first links terminator => by
    have written := (first.deepens.bind (Link.deepens_list links)).before_step terminator.place_render
    simp only [bind_assoc] at written
    exact written

theorem AndOr.deepens_list : ∀ lists : List AndOr, Deepens (AndOr.breaksOf lists) (AndOr.renderList lists)
  | [] => Deepens.of_place fun _ => rfl
  | list :: rest => list.deepens.bind (AndOr.deepens_list rest)

end

/-- A script is written, in either mode, if it has fewer links and groups than there are levels. -/
theorem Script.exists_source {script : Script} {mode : LineMode} (room : script.breaks < mode.levelLimit) :
    ∃ text, script.source mode = .ok text := by
  obtain ⟨after, written, _⟩ := AndOr.deepens_list script { mode } (by simpa [Sink.depth, Script.breaks] using room)
  exact ⟨after.written, bind_eq_ok.mpr ⟨after, written, rfl⟩⟩

theorem Node.deepens (node : Node) : Deepens node.breaks node.render := by
  cases node with
  | fragment text => exact Deepens.of_place fun sink => sink.place_append text
  | word word => exact Deepens.of_place word.place_render
  | assignment assignment => exact Deepens.of_place fun sink => assignment.value.place_render _
  | command command => exact command.deepens
  | pipeline pipeline => exact pipeline.deepens
  | link link => exact link.deepens
  | andOr list => exact list.deepens
  | script script => exact AndOr.deepens_list script

/-- Writing a node of any kind succeeds on every sink whose deeper level and the number of links and
groups in the node stay below the limit of the line mode together, and their sum bounds the level of
the line that the text ends on. So a script with fewer than `2 ^ 62` of them has a source text in both
modes. -/
theorem Node.render_total :
    (∀ (node : Node) (sink : Sink), max sink.level sink.lineLevel + node.breaks < sink.mode.levelLimit →
      ∃ after, node.render sink = .ok after ∧
        after.lineLevel ≤ max sink.level sink.lineLevel + node.breaks) ∧
      ∀ (script : Script) (mode : LineMode), script.breaks < 2 ^ 62 → ∃ text, script.source mode = .ok text := by
  constructor
  · intro node sink room
    obtain ⟨after, written, _, _, line⟩ := node.deepens sink room
    exact ⟨after, written, line⟩
  · intro script mode few
    apply Script.exists_source
    have least : 2 ^ 62 ≤ mode.levelLimit := by cases mode <;> decide
    exact lt_of_lt_of_le few least

/-- Two empty groups in a row, which are not nested, take a single line up to the last level. -/
theorem Node.render_last_level :
    let script : Script := [.mk (.mk false [.group [] {}, .group [] {}]) [] .sequential]
    let sink : Sink := { mode := .single, lineLevel := 2 ^ 64 - 3 }
    max sink.level sink.lineLevel + script.breaks = 2 ^ 64 - 1 ∧
      (∃ after, (Node.script script).render sink = .ok after ∧ after.lineLevel ≤ 2 ^ 64 - 1) ∧
      ∃ text, script.source .multi = .ok text := by
  intro script sink
  have sum : max sink.level sink.lineLevel + script.breaks = 2 ^ 64 - 1 := by decide
  have room : max sink.level sink.lineLevel + (Node.script script).breaks < LineMode.single.levelLimit := by decide
  obtain ⟨after, written, line⟩ := Node.render_total.1 (.script script) sink room
  exact ⟨sum, ⟨after, written, line.trans_eq sum⟩, Node.render_total.2 script .multi (by decide)⟩

end ShellTree
