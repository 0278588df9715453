import ShellTree.Proofs.NewLines
import ShellTree.Tree.Words

/-!
# Writing to two sinks

What two runs of the same writer have in common is settled by its operations. If a relation of two sinks
is such that no operation leads out of it, then no node does: writing the node to both sinks leads to
sinks that are related again. A relation may demand something of the texts that the tree brings, and has
to put up with texts on one line, since these are all that nodes write of their own.

`Likeness` lists the operations, and `Node.keeps` is the result.
-/

namespace ShellTree

/-! ## The texts of a tree -/

/-- The texts that an assignment brings. -/
def Assignment.texts (assignment : Assignment) : List String := assignment.name :: assignment.value.fragments

/-- The texts that simple commands bring. -/
def textsOf (simples : List Simple) : List String :=
  simples.flatMap fun simple =>
    simple.assignments.flatMap Assignment.texts ++ simple.words.flatMap Word.fragments

/-- The names and the fragments in a node of any kind. -/
def Node.texts : Node → List String
  | .fragment text => [text]
  | .word w => w.fragments
  | .assignment a => a.texts
  | .command c => textsOf c.simples
  | .pipeline p => textsOf p.simples
  | .link l => textsOf l.simples
  | .andOr l => textsOf l.simples
  | .script s => textsOf (AndOr.simplesOf s)

theorem forall_textsOf_append {first second : List Simple} {rule : String → Prop} :
    (∀ text ∈ textsOf (first ++ second), rule text) ↔
      (∀ text ∈ textsOf first, rule text) ∧ ∀ text ∈ textsOf second, rule text := by
  rw [textsOf, List.flatMap_append, List.forall_mem_append]
  rfl

/-! ## Relations that operations keep -/

/-- A relation of sinks, with one of their levels and a rule for texts, that no operation leads out of. -/
structure Likeness (Alike : Sink → Sink → Prop) (Levels : Nat → Nat → Prop) (Writable : String → Prop) : Prop where
  mode : ∀ {sink other}, Alike sink other → sink.mode = other.mode
  level : ∀ {sink other}, Alike sink other → Levels sink.level other.level
  lineLevel : ∀ {sink other}, Alike sink other → Levels sink.lineLevel other.lineLevel
  raised : ∀ {level level'}, Levels level level' → Levels (level + 1) (level' + 1)
  inline : ∀ {text}, Avoids ['\n'] text → Writable text
  append : ∀ {sink other text}, Alike sink other → Writable text → Alike (sink.append text) (other.append text)
  defer : ∀ {sink other text}, Alike sink other → Writable text → Alike (sink.defer text) (other.defer text)
  dropPending : ∀ {sink other}, Alike sink other → Alike sink.dropPending other.dropPending
  atLevel : ∀ {sink other level level'}, Alike sink other → Levels level level' →
    Alike (sink.atLevel level) (other.atLevel level')
  onNewLine : ∀ {sink other level level'}, Alike sink other → Levels level level' →
    Alike (sink.onNewLine level) (other.onNewLine level')

/-- A writer that leads from related sinks to related sinks, where both runs succeed. -/
def Keeps (Alike : Sink → Sink → Prop) (write : Sink → Except Overflow Sink) : Prop :=
  ∀ sink other after after', Alike sink other → write sink = .ok after → write other = .ok after' →
    Alike after after'

variable {Alike : Sink → Sink → Prop} {Levels : Nat → Nat → Prop} {Writable : String → Prop}

namespace Keeps

variable {write next : Sink → Except Overflow Sink} {step : Sink → Sink}

theorem of_step (keeps : ∀ {sink other}, Alike sink other → Alike (step sink) (step other)) :
    Keeps Alike fun sink => .ok (step sink) := by
  intro sink other after after' alike success success'
  cases success
  cases success'
  exact keeps alike

theorem bind (first : Keeps Alike write) (second : Keeps Alike next) :
    Keeps Alike fun sink => write sink >>= next := by
  intro sink other after after' alike success success'
  obtain ⟨middle, ran, ended⟩ := bind_eq_ok.mp success
  obtain ⟨middle', ran', ended'⟩ := bind_eq_ok.mp success'
  apply second middle middle' after after' _ ended ended'
  exact first sink other middle middle' alike ran ran'

end Keeps

namespace Likeness

variable (likeness : Likeness Alike Levels Writable) {sink other : Sink} {write : Sink → Except Overflow Sink}

include likeness

/-- A text that a node brings of its own. -/
theorem mark {text : String} (alike : Alike sink other) (inline : Avoids ['\n'] text) :
    Alike (sink.append text) (other.append text) :=
  likeness.append alike (likeness.inline inline)

theorem space (alike : Alike sink other) : Alike (sink.defer " ") (other.defer " ") :=
  likeness.defer alike (likeness.inline (by decide))

/-- The closing lines of a group on each of the sinks, the modes of which are the same. -/
theorem onClosingLine {inside inside' : Sink} (alike : Alike sink other) (alike' : Alike inside inside') :
    Alike (sink.onClosingLine inside) (other.onClosingLine inside') := by
  unfold Sink.onClosingLine
  rw [← likeness.mode alike]
  cases sink.mode with
  | single => exact alike'
  | multi => exact likeness.onNewLine alike' (likeness.lineLevel alike)

theorem group (body : Keeps Alike write) : Keeps Alike (renderGroup write) := by
  intro sink other after after' alike success success'
  obtain ⟨opened, inside, opens, written, closes⟩ := renderGroup_eq_ok.mp success
  obtain ⟨opened', inside', opens', written', closes'⟩ := renderGroup_eq_ok.mp success'
  obtain ⟨_, rfl⟩ := Sink.openGroup_eq_ok.mp opens
  obtain ⟨_, rfl⟩ := Sink.openGroup_eq_ok.mp opens'
  obtain ⟨_, rfl⟩ := Sink.closeGroup_eq_ok.mp closes
  obtain ⟨_, rfl⟩ := Sink.closeGroup_eq_ok.mp closes'
  have brace := likeness.mark alike (by decide : Avoids ['\n'] "\x7b")
  have opening := likeness.onNewLine brace (likeness.raised (likeness.lineLevel alike))
  have inner := body _ _ inside inside' opening written written'
  have line := likeness.atLevel (likeness.onClosingLine alike inner) (likeness.level alike)
  exact likeness.space (likeness.mark line (by decide : Avoids ['\n'] "\x7d"))

theorem subshell (body : Keeps Alike write) : Keeps Alike (renderSubshell write) := by
  intro sink other after after' alike success success'
  obtain ⟨inside, written, rfl⟩ := renderSubshell_eq_ok.mp success
  obtain ⟨inside', written', rfl⟩ := renderSubshell_eq_ok.mp success'
  have opening := likeness.mark alike (by decide : Avoids ['\n'] "(")
  have inner := body _ _ inside inside' opening written written'
  exact likeness.space (likeness.mark (likeness.dropPending inner) (by decide : Avoids ['\n'] ")"))

theorem link (connective : Connective) (pipeline : Keeps Alike write) : Keeps Alike (renderLink connective write) := by
  intro sink other after after' alike success success'
  obtain ⟨opened, inside, opens, written, rfl⟩ := renderLink_eq_ok.mp success
  obtain ⟨opened', inside', opens', written', rfl⟩ := renderLink_eq_ok.mp success'
  obtain ⟨_, rfl⟩ := Sink.openLink_eq_ok.mp opens
  obtain ⟨_, rfl⟩ := Sink.openLink_eq_ok.mp opens'
  have inline : Avoids ['\n'] connective.operator := by cases connective <;> decide
  have line := likeness.onNewLine (likeness.mark alike inline) (likeness.level alike)
  have opening := likeness.atLevel line (likeness.raised (likeness.level alike))
  exact likeness.atLevel (pipeline _ _ inside inside' opening written written') (likeness.level alike)

theorem word {word : Word} (writable : ∀ text ∈ word.fragments, Writable text) (alike : Alike sink other) :
    Alike (word.render sink) (word.render other) := by
  obtain ⟨fragments⟩ := word
  unfold Word.render
  induction fragments generalizing sink other with
  | nil => exact alike
  | cons fragment rest ih =>
    rw [List.forall_mem_cons] at writable
    exact ih (likeness.append alike writable.1) writable.2

theorem assignment {assignment : Assignment} (writable : ∀ text ∈ assignment.texts, Writable text)
    (alike : Alike sink other) : Alike (assignment.render sink) (assignment.render other) := by
  rw [Assignment.texts, List.forall_mem_cons] at writable
  apply likeness.word writable.2
  exact likeness.mark (likeness.append alike writable.1) (by decide)

/-- Items that are each followed by a space, where the rule for texts is met by the texts of each item. -/
theorem spaced {α : Type} {render : α → Sink → Sink} {texts : α → List String}
    (each : ∀ {item sink other}, (∀ text ∈ texts item, Writable text) → Alike sink other →
      Alike (render item sink) (render item other))
    {items : List α} (writable : ∀ text ∈ items.flatMap texts, Writable text) (alike : Alike sink other) :
    Alike (renderSpaced render items sink) (renderSpaced render items other) := by
  unfold renderSpaced
  induction items generalizing sink other with
  | nil => exact alike
  | cons item rest ih =>
    rw [List.flatMap_cons, List.forall_mem_append] at writable
    apply ih writable.2
    exact likeness.space (each writable.1 alike)

theorem terminator (terminator : Terminator) (alike : Alike sink other) :
    Alike (terminator.render sink) (terminator.render other) := by
  have ended := likeness.dropPending alike
  cases terminator with
  | sequential => exact likeness.space (likeness.defer ended (likeness.inline (by decide)))
  | asynchronous => exact likeness.space (likeness.mark ended (by decide))

end Likeness

/-! ## Nodes -/

mutual

theorem Command.keeps (likeness : Likeness Alike Levels Writable) : ∀ command : Command,
    (∀ text ∈ textsOf command.simples, Writable text) → Keeps Alike command.render
  | .simple assignments words _, writable => by
    rw [Command.simples, textsOf, List.flatMap_singleton, List.forall_mem_append] at writable
    apply Keeps.of_step
    intro sink other alike
    apply likeness.spaced likeness.word writable.2
    exact likeness.spaced likeness.assignment writable.1 alike
  | .group body _, writable => likeness.group (AndOr.keeps_list likeness body writable)
  | .subshell body _, writable => likeness.subshell (AndOr.keeps_list likeness body writable)

theorem Pipeline.keeps (likeness : Likeness Alike Levels Writable) : ∀ pipeline : Pipeline,
    (∀ text ∈ textsOf pipeline.simples, Writable text) → Keeps Alike pipeline.render
  | .mk negated commands, writable => by
    intro sink other after after' alike
    have opening : Alike (if negated then sink.append "! " else sink)
        (if negated then other.append "! " else other) := by
      split
      · exact likeness.mark alike (by decide)
      · exact alike
    exact Command.keeps_piped likeness commands writable _ _ after after' opening

theorem Command.keeps_piped (likeness : Likeness Alike Levels Writable) : ∀ commands : List Command,
    (∀ text ∈ textsOf (Command.simplesOf commands), Writable text) → Keeps Alike (Command.renderPiped commands)
  | [], _ => Keeps.of_step fun alike => alike
  | command :: rest, writable => by
    rw [Command.simplesOf, forall_textsOf_append] at writable
    exact (Command.keeps likeness command writable.1).bind (Command.keeps_tail likeness rest writable.2)

theorem Command.keeps_tail (likeness : Likeness Alike Levels Writable) : ∀ commands : List Command,
    (∀ text ∈ textsOf (Command.simplesOf commands), Writable text) → Keeps Alike (Command.renderTail commands)
  | [], _ => Keeps.of_step fun alike => alike
  | command :: rest, writable => by
    rw [Command.simplesOf, forall_textsOf_append] at writable
    intro sink other after after' alike
    have pipe := likeness.mark alike (by decide : Avoids ['\n'] "| ")
    have written := (Command.keeps likeness command writable.1).bind (Command.keeps_tail likeness rest writable.2)
    exact written _ _ after after' pipe

theorem Link.keeps (likeness : Likeness Alike Levels Writable) : ∀ link : Link,
    (∀ text ∈ textsOf link.simples, Writable text) → Keeps Alike link.render
  | .mk connective pipeline, writable => likeness.link connective (Pipeline.keeps likeness pipeline writable)

theorem Link.keeps_list (likeness : Likeness Alike Levels Writable) : ∀ links : List Link,
    (∀ text ∈ textsOf (Link.simplesOf links), Writable text) → Keeps Alike (Link.renderList links)
  | [], _ => Keeps.of_step fun alike => alike
  | link :: rest, writable => by
    rw [Link.simplesOf, forall_textsOf_append] at writable
    exact (Link.keeps likeness link writable.1).bind (Link.keeps_list likeness rest writable.2)

theorem AndOr.keeps (likeness : Likeness Alike Levels Writable) : ∀ list : AndOr,
    (∀ text ∈ textsOf list.simples, Writable text) → Keeps Alike list.render
  | .mk first links terminator, writable => by
    rw [AndOr.simples, forall_textsOf_append] at writable
    have ended : Keeps Alike fun sink => .ok (terminator.render sink) := Keeps.of_step (likeness.terminator terminator)
    exact (Pipeline.keeps likeness first writable.1).bind ((Link.keeps_list likeness links writable.2).bind ended)

theorem AndOr.keeps_list (likeness : Likeness Alike Levels Writable) : ∀ lists : List AndOr,
    (∀ text ∈ textsOf (AndOr.simplesOf lists), Writable text) → Keeps Alike (AndOr.renderList lists)
  | [], _ => Keeps.of_step fun alike => alike
  | list :: rest, writable => by
    rw [AndOr.simplesOf, forall_textsOf_append] at writable
    exact (AndOr.keeps likeness list writable.1).bind (AndOr.keeps_list likeness rest writable.2)

end

/-- A relation that no operation leads out of is kept by nodes of every kind whose texts meet its rule. -/
theorem Node.keeps (likeness : Likeness Alike Levels Writable) {node : Node}
    (writable : ∀ text ∈ node.texts, Writable text) : Keeps Alike node.render := by
  cases node with
  | fragment text =>
    have written := writable text (List.mem_singleton_self text)
    exact Keeps.of_step fun alike => likeness.append alike written
  | word word => exact Keeps.of_step (likeness.word writable)
  | assignment assignment => exact Keeps.of_step (likeness.assignment writable)
  | command command => exact Command.keeps likeness command writable
  | pipeline pipeline => exact Pipeline.keeps likeness pipeline writable
  | link link => exact Link.keeps likeness link writable
  | andOr list => exact AndOr.keeps likeness list writable
  | script script => exact AndOr.keeps_list likeness script writable

end ShellTree
