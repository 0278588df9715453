import ShellTree.Layout.FirstBreak
import ShellTree.Proofs.NewLines
import ShellTree.Tree.Breaks

/-!
# What writing does not depend on

Writing a node adds a text to what has been written, and neither that text nor anything else depends on
what was there before. The lines in the queue are put in once, whole, behind the first line break of the
node; a node without line breaks leaves them where they are, and on a single line they are lost. The
level in force and the line mode are given back as they were. `Node.render_framed` says all of this of
nodes of every kind, which may lack content.
-/

namespace ShellTree

namespace Sink

/-- The sink with another text written and other lines queued. -/
def within (sink : Sink) (written queued : String) : Sink := { sink with written, queued }

section

variable (sink : Sink) (written queued text : String) (level : Nat)

theorem append_within :
    (sink.within written queued).append text =
      (sink.append text).within (written ++ (sink.pending ++ text)) queued := by
  simp [within, append, String.append_assoc]

theorem onNewLine_within :
    (sink.within written queued).onNewLine level =
      (sink.onNewLine level).within (written ++ sink.mode.lineBreak queued ++ sink.mode.margin level) "" := rfl

end

end Sink

/-! ## Steps that stay on the line -/

/-- A step that adds a text to any sink and leaves the queue alone. -/
def Inline (step : Sink → Sink) : Prop :=
  ∀ sink, (step sink).mode = sink.mode ∧ (step sink).level = sink.level ∧
    ∃ text, ∀ written queued, step (sink.within written queued) = (step sink).within (written ++ text) queued

namespace Inline

variable {step next : Sink → Sink}

theorem refl : Inline fun sink => sink :=
  fun _ => ⟨rfl, rfl, "", fun written queued => by rw [String.append_empty]⟩

theorem append (text : String) : Inline fun sink => sink.append text :=
  fun sink => ⟨rfl, rfl, sink.pending ++ text, fun written queued => sink.append_within written queued text⟩

/-- What changes only the pending text adds nothing. -/
theorem of_pending (change : String → String) : Inline fun sink => { sink with pending := change sink.pending } :=
  fun _ => ⟨rfl, rfl, "", fun written queued => by rw [String.append_empty]; rfl⟩

theorem defer (text : String) : Inline fun sink => sink.defer text := of_pending (· ++ text)

theorem dropPending : Inline Sink.dropPending := of_pending fun _ => ""

theorem comp (second : Inline next) (first : Inline step) : Inline fun sink => next (step sink) := by
  intro sink
  obtain ⟨mode, level, text, adds⟩ := first sink
  obtain ⟨mode', level', text', adds'⟩ := second (step sink)
  refine ⟨mode'.trans mode, level'.trans level, text ++ text', ?_⟩
  intro written queued
  change next (step (sink.within written queued)) = _
  rw [adds, adds', String.append_assoc]

end Inline

theorem Word.inline_render (word : Word) : Inline word.render := by
  have written : word.render = fun sink => if word.fragments = [] then sink else sink.append word.text :=
    funext word.render_eq
  rw [written]
  split
  · exact Inline.refl
  · exact Inline.append word.text

theorem Assignment.inline_render (assignment : Assignment) : Inline assignment.render :=
  assignment.value.inline_render.comp ((Inline.append "=").comp (Inline.append assignment.name))

theorem inline_renderSpaced {α : Type} {render : α → Sink → Sink} (inline : ∀ item, Inline (render item))
    (items : List α) : Inline (renderSpaced render items) := by
  induction items with
  | nil => exact Inline.refl
  | cons item rest ih => exact ih.comp ((Inline.defer " ").comp (inline item))

theorem Terminator.inline_render (terminator : Terminator) : Inline terminator.render := by
  cases terminator with
  | sequential => exact (Inline.defer " ").comp ((Inline.defer ";").comp Inline.dropPending)
  | asynchronous => exact (Inline.defer " ").comp ((Inline.append "&").comp Inline.dropPending)

/-! ## The stages of groups and links -/

namespace Sink

variable {sink opened inside after : Sink} {connective : Connective}

theorem openGroup_within (opens : sink.openGroup = .ok opened) (written queued : String) :
    (sink.within written queued).openGroup =
      .ok (opened.within (written ++ (sink.pending ++ "\x7b") ++ sink.mode.lineBreak queued ++
        sink.mode.margin (sink.lineLevel + 1)) "") := by
  obtain ⟨fits, rfl⟩ := openGroup_eq_ok.mp opens
  refine openGroup_eq_ok.mpr ⟨fits, ?_⟩
  rw [append_within, onNewLine_within]
  rfl

theorem openLink_within (opens : sink.openLink connective = .ok opened) (written queued : String) :
    (sink.within written queued).openLink connective =
      .ok (opened.within (written ++ (sink.pending ++ connective.operator) ++ sink.mode.lineBreak queued ++
        sink.mode.margin sink.level) "") := by
  obtain ⟨fits, rfl⟩ := openLink_eq_ok.mp opens
  refine openLink_eq_ok.mpr ⟨fits, ?_⟩
  rw [append_within, onNewLine_within]
  rfl

theorem mode_onClosingLine (mode : inside.mode = sink.mode) : (sink.onClosingLine inside).mode = sink.mode := by
  unfold onClosingLine
  split <;> exact mode

/-- The closing line of a group comes behind any text alike, once nothing is queued. -/
theorem exists_onClosingLine_within (sink inside : Sink) :
    ∃ text, ∀ written queued inner,
      (sink.within written queued).onClosingLine (inside.within inner "") =
        (sink.onClosingLine inside).within (inner ++ text) "" := by
  cases multi : sink.mode with
  | single =>
    refine ⟨"", fun written queued inner => ?_⟩
    simp [onClosingLine, within, multi]
  | multi =>
    refine ⟨inside.mode.lineBreak "" ++ inside.mode.margin sink.lineLevel, fun written queued inner => ?_⟩
    simp [onClosingLine, within, multi, onNewLine, String.append_assoc]

theorem closeGroup_within (mode : inside.mode = sink.mode) (closes : sink.closeGroup inside = .ok after) :
    after.mode = sink.mode ∧ after.level = sink.level ∧ ∃ text, ∀ written queued inner,
      (sink.within written queued).closeGroup (inside.within inner "") = .ok (after.within (inner ++ text) "") := by
  obtain ⟨fits, rfl⟩ := closeGroup_eq_ok.mp closes
  obtain ⟨text, line⟩ := exists_onClosingLine_within sink inside
  obtain ⟨_, _, ending, marked⟩ :=
    (Inline.defer " ").comp (Inline.append "\x7d") ((sink.onClosingLine inside).atLevel sink.level)
  refine ⟨mode_onClosingLine mode, rfl, text ++ ending, ?_⟩
  intro written queued inner
  refine closeGroup_eq_ok.mpr ⟨fits, ?_⟩
  rw [line, ← String.append_assoc]
  exact marked (inner ++ text) ""

end Sink

/-! ## Writers and their first line break -/

/-- How a writer that leads from `sink` to `after` treats other texts and other queues, given how many
links and groups it writes and what it reaches before its first line break. -/
inductive Framing (write : Sink → Except Overflow Sink) (sink after : Sink) (breaks : Nat)
    (reached : Except Sink Sink) : Prop where
  /-- It stays on the line, and the queue goes on waiting. -/
  | inLine (text : String) (none : breaks = 0) (stays : reached = .ok after)
      (adds : ∀ written queued, write (sink.within written queued) = .ok (after.within (written ++ text) queued))
  /-- It breaks the line behind `head`, and the queue is used up there. -/
  | broken (line : Sink) (head tail : String) (some : breaks ≠ 0) (breaks : reached = .error line)
      (front : line.written = sink.written ++ head ∧ line.pending = "")
      (adds : ∀ written queued, write (sink.within written queued) =
        .ok (after.within (written ++ head ++ sink.mode.lineBreak queued ++ tail) ""))

namespace Framing

variable {write : Sink → Except Overflow Sink} {sink after : Sink} {breaks : Nat} {reached : Except Sink Sink}

/-- What is added depends on the queue at most. -/
theorem unwritten (framing : Framing write sink after breaks reached) (success : write sink = .ok after) :
    ∃ added, after.written = sink.written ++ added ∧
      ∀ written, write (sink.within written sink.queued) = .ok (after.within (written ++ added) after.queued) := by
  cases framing with
  | inLine text _ _ adds =>
    have same := Except.ok.inj (success.symm.trans (adds sink.written sink.queued))
    have queue : after.queued = sink.queued := (congrArg Sink.queued same).trans rfl
    refine ⟨text, (congrArg Sink.written same).trans rfl, fun written => ?_⟩
    rw [queue]
    exact adds written sink.queued
  | broken line head tail _ _ _ adds =>
    have same := Except.ok.inj (success.symm.trans (adds sink.written sink.queued))
    have queue : after.queued = "" := (congrArg Sink.queued same).trans rfl
    refine ⟨head ++ sink.mode.lineBreak sink.queued ++ tail, ?_, fun written => ?_⟩
    · refine (congrArg Sink.written same).trans ?_
      simp only [Sink.within, String.append_assoc]
    · rw [queue]
      simp only [← String.append_assoc]
      exact adds written sink.queued

/-- Nothing depends on the queue where it is empty. -/
theorem unqueued (framing : Framing write sink after breaks reached) :
    ∃ text, ∀ written, write (sink.within written "") = .ok (after.within (written ++ text) "") := by
  cases framing with
  | inLine text _ _ adds => exact ⟨text, fun written => adds written ""⟩
  | broken line head tail _ _ _ adds =>
    refine ⟨head ++ sink.mode.lineBreak "" ++ tail, fun written => ?_⟩
    rw [adds]
    simp only [String.append_assoc]

end Framing

/-- A writer that gives back the line mode and the level in force, and whose text depends on neither the
text in front of it nor the queue. -/
def Framed (breaks : Nat) (untilBreak : Sink → Except Sink Sink) (write : Sink → Except Overflow Sink) : Prop :=
  ∀ sink after, write sink = .ok after → after.mode = sink.mode ∧ after.level = sink.level ∧
    Framing write sink after breaks (untilBreak sink)

namespace Framed

variable {breaks more : Nat} {untilBreak nextBreak : Sink → Except Sink Sink}
  {write next : Sink → Except Overflow Sink} {step : Sink → Sink}

theorem of_inline (inline : Inline step) : Framed 0 (fun sink => .ok (step sink)) fun sink => .ok (step sink) := by
  intro sink after success
  cases success
  obtain ⟨mode, level, text, adds⟩ := inline sink
  exact ⟨mode, level, .inLine text rfl rfl fun written queued => congrArg _ (adds written queued)⟩

/-- Of two writers in a row, the first one that breaks the line takes the queue. -/
theorem bind (first : Framed breaks untilBreak write) (second : Framed more nextBreak next) :
    Framed (breaks + more) (fun sink => untilBreak sink >>= nextBreak) fun sink => write sink >>= next := by
  intro sink after success
  obtain ⟨middle, ran, ended⟩ := bind_eq_ok.mp success
  obtain ⟨mode, level, framing⟩ := first sink middle ran
  obtain ⟨mode', level', framing'⟩ := second middle after ended
  refine ⟨mode'.trans mode, level'.trans level, ?_⟩
  change Framing _ sink after _ (untilBreak sink >>= nextBreak)
  cases framing with
  | inLine text none stays adds =>
    have onward : (untilBreak sink >>= nextBreak) = nextBreak middle := by
      rw [stays]
      rfl
    have written : middle.written = sink.written ++ text := by
      have same := (adds sink.written sink.queued).symm.trans ran
      rw [← Except.ok.inj same]
      rfl
    cases framing' with
    | inLine text' none' stays' adds' =>
      refine .inLine (text ++ text') (by omega) (onward.trans stays') ?_
      intro front queued
      refine bind_eq_ok.mpr ⟨_, adds front queued, ?_⟩
      rw [adds', String.append_assoc]
    | broken line head tail some breaks front adds' =>
      refine .broken line (text ++ head) tail (by omega) (onward.trans breaks) ?_ ?_
      · rw [front.1, written, String.append_assoc]
        exact ⟨rfl, front.2⟩
      · intro front queued
        refine bind_eq_ok.mpr ⟨_, adds front queued, ?_⟩
        rw [adds', mode]
        simp only [String.append_assoc]
  | broken line head tail some breaks front adds =>
    obtain ⟨text, adds'⟩ := framing'.unqueued
    refine .broken line head (tail ++ text) (by omega) (by rw [breaks]; rfl) front ?_
    intro front queued
    refine bind_eq_ok.mpr ⟨_, adds front queued, ?_⟩
    rw [adds']
    simp only [String.append_assoc]

theorem exists_written (writes : Framed breaks untilBreak write) {sink after : Sink}
    (success : write sink = .ok after) : ∃ added, after.written = sink.written ++ added := by
  obtain ⟨_, _, framing⟩ := writes sink after success
  obtain ⟨added, written, _⟩ := framing.unwritten success
  exact ⟨added, written⟩

/-- A step on the line may come before a writer. -/
theorem after_step (inline : Inline step) (writes : Framed breaks untilBreak write) :
    Framed breaks (fun sink => untilBreak (step sink)) fun sink => write (step sink) := by
  rw [← Nat.zero_add breaks]
  exact (of_inline inline).bind writes

/-- A step on the line may come behind a writer. -/
theorem before_step (inline : Inline step) (writes : Framed breaks untilBreak write) :
    Framed breaks (fun sink => untilBreak sink >>= fun inside => .ok (step inside))
      fun sink => write sink >>= fun inside => .ok (step inside) :=
  writes.bind (of_inline inline)

theorem group (body : Framed breaks untilBreak write) :
    Framed (breaks + 1) (fun sink => .error (sink.append "\x7b")) (renderGroup write) := by
  intro sink after success
  obtain ⟨opened, inside, opens, written, closes⟩ := renderGroup_eq_ok.mp success
  have mode : opened.mode = sink.mode := by
    obtain ⟨_, rfl⟩ := Sink.openGroup_eq_ok.mp opens
    rfl
  obtain ⟨mode', _, framing⟩ := body opened inside written
  obtain ⟨text, inner⟩ := framing.unqueued
  obtain ⟨mode'', level, closing, closed⟩ := Sink.closeGroup_within (mode'.trans mode) closes
  refine ⟨mode'', level, .broken (sink.append "\x7b") (sink.pending ++ "\x7b")
    (sink.mode.margin (sink.lineLevel + 1) ++ text ++ closing) (by omega) rfl ⟨String.append_assoc, rfl⟩ ?_⟩
  intro front queued
  have same := renderGroup_eq_ok.mpr ⟨_, _, Sink.openGroup_within opens front queued, inner _, closed front queued _⟩
  simpa only [String.append_assoc] using same

theorem subshell (body : Framed breaks untilBreak write) :
    Framed breaks
      (fun sink => untilBreak (sink.append "(") >>= fun inside => .ok ((inside.dropPending.append ")").defer " "))
      (renderSubshell write) :=
  (body.after_step (Inline.append "(")).before_step
    ((Inline.defer " ").comp ((Inline.append ")").comp Inline.dropPending))

theorem link {connective : Connective} (pipeline : Framed breaks untilBreak write) :
    Framed (breaks + 1) (fun sink => .error (sink.append connective.operator)) (renderLink connective write) := by
  intro sink after success
  obtain ⟨opened, inside, opens, written, rfl⟩ := renderLink_eq_ok.mp success
  have mode : opened.mode = sink.mode := by
    obtain ⟨_, rfl⟩ := Sink.openLink_eq_ok.mp opens
    rfl
  obtain ⟨mode', _, framing⟩ := pipeline opened inside written
  obtain ⟨text, inner⟩ := framing.unqueued
  refine ⟨mode'.trans mode, rfl, .broken (sink.append connective.operator) (sink.pending ++ connective.operator)
    (sink.mode.margin sink.level ++ text) (by omega) rfl ⟨String.append_assoc, rfl⟩ ?_⟩
  intro front queued
  have same := renderLink_eq_ok.mpr ⟨_, _, Sink.openLink_within opens front queued, inner _, rfl⟩
  simp only [String.append_assoc] at same ⊢
  exact same

end Framed

/-! ## Nodes -/

mutual

theorem Command.framed : ∀ command : Command, Framed command.breaks command.untilBreak command.render
  | .simple assignments words _ =>
    Framed.of_inline
      ((inline_renderSpaced Word.inline_render words).comp
        (inline_renderSpaced Assignment.inline_render assignments))
  | .group body _ => (AndOr.framed_list body).group
  | .subshell body _ => (AndOr.framed_list body).subshell

theorem Pipeline.framed : ∀ pipeline : Pipeline, Framed pipeline.breaks pipeline.untilBreak pipeline.render
  | .mk negated commands => by
    have opening : Inline fun sink => if negated then sink.append "! " else sink := by
      split
      · exact Inline.append "! "
      · exact Inline.refl
    have written := Framed.after_step opening (Command.framed_piped commands)
    exact written

theorem Command.framed_piped : ∀ commands : List Command,
    Framed (Command.breaksOf commands) (Command.untilBreakPiped commands) (Command.renderPiped commands)
  | [] => Framed.of_inline Inline.refl
  | command :: rest => command.framed.bind (Command.framed_tail rest)

theorem Command.framed_tail : ∀ commands : List Command,
    Framed (Command.breaksOf commands) (Command.untilBreakTail commands) (Command.renderTail commands)
  | [] => Framed.of_inline Inline.refl
  | command :: rest => (command.framed.after_step (Inline.append "| ")).bind (Command.framed_tail rest)

theorem Link.framed : ∀ link : Link, Framed link.breaks link.untilBreak link.render
  | .mk _ pipeline => pipeline.framed.link

/-- Of links in a row the first one breaks the line, so the others need not be looked at. -/
theorem Link.framed_list : ∀ links : List Link,
    Framed (Link.breaksOf links) (Link.untilBreakOf links) (Link.renderList links)
  | [] => Framed.of_inline Inline.refl
  | .mk _ pipeline :: rest => pipeline.framed.link.bind (Link.framed_list rest)

theorem AndOr.framed : ∀ list : AndOr, Framed list.breaks list.untilBreak list.render
  | .mk first links terminator =>
    first.framed.bind ((Link.framed_list links).before_step terminator.inline_render)

theorem AndOr.framed_list : ∀ lists : List AndOr,
    Framed (AndOr.breaksOf lists) (AndOr.untilBreakOf lists) (AndOr.renderList lists)
  | [] => Framed.of_inline Inline.refl
  | list :: rest => list.framed.bind (AndOr.framed_list rest)

end

theorem Node.framed (node : Node) : Framed node.breaks node.untilBreak node.render := by
  cases node with
  | fragment text => exact Framed.of_inline (Inline.append text)
  | word word => exact Framed.of_inline word.inline_render
  | assignment assignment => exact Framed.of_inline assignment.inline_render
  | command command => exact command.framed
  | pipeline pipeline => exact pipeline.framed
  | link link => exact link.framed
  | andOr list => exact list.framed
  | script script => exact AndOr.framed_list script

/-- Writing a node of any kind adds a text to what has been written and gives back the line mode and the
level in force; neither the text nor what is pending afterwards, nor any level, depends on what has been
written. A node without links and groups leaves the queue as it is, and nothing depends on it. Any other
node uses the queue up: on a single line nothing depends on it, and otherwise it stands behind a newline,
the one of the first line break, between two texts that do not depend on it. -/
theorem Node.render_framed {node : Node} {sink after : Sink} (success : node.render sink = .ok after) :
    (after.mode = sink.mode ∧ after.level = sink.level ∧ ∃ added, after.written = sink.written ++ added ∧
        ∀ written, node.render { sink with written } = .ok { after with written := written ++ added }) ∧
      (node.breaks = 0 → after.queued = sink.queued ∧ ∃ added, ∀ written queued,
        node.render { sink with written, queued } = .ok { after with written := written ++ added, queued }) ∧
      (node.breaks ≠ 0 → after.queued = "" ∧
        (sink.mode = .single → ∃ added, ∀ written queued,
          node.render { sink with written, queued } =
            .ok { after with written := written ++ added, queued := "" }) ∧
        (sink.mode = .multi → ∃ line head tail,
          node.untilBreak sink = .error line ∧ line.written = sink.written ++ head ∧ line.pending = "" ∧
            ∀ written queued, node.render { sink with written, queued } =
              .ok { after with written := written ++ head ++ "\n" ++ queued ++ tail, queued := "" })) := by
  obtain ⟨mode, level, framing⟩ := node.framed sink after success
  refine ⟨⟨mode, level, framing.unwritten success⟩, ?_⟩
  cases framing with
  | inLine text none _ adds =>
    have same := Except.ok.inj (success.symm.trans (adds sink.written sink.queued))
    constructor
    · intro _
      exact ⟨(congrArg Sink.queued same).trans rfl, text, adds⟩
    · intro some
      exact absurd none some
  | broken line head tail some breaks front adds =>
    have same := Except.ok.inj (success.symm.trans (adds sink.written sink.queued))
    constructor
    · intro none
      exact absurd none some
    · intro _
      refine ⟨(congrArg Sink.queued same).trans rfl, ?_, ?_⟩
      · intro single
        rw [single] at adds
        refine ⟨head ++ tail, fun written queued => ?_⟩
        have added := adds written queued
        rw [LineMode.lineBreak, String.append_empty, String.append_assoc] at added
        exact added
      · intro multi
        rw [multi] at adds
        refine ⟨line, head, tail, breaks, front.1, front.2, fun written queued => ?_⟩
        have added := adds written queued
        rw [LineMode.lineBreak, ← String.append_assoc] at added
        exact added

/-- Text with newlines of its own in front of the first line break: the queued line stands behind the newline
that the operator brings, whatever the queue holds. -/
theorem Node.render_framed_queue :
    let word (text : String) : Command := .simple [] [.literal text] {}
    let node : Node := .andOr (.mk (.mk false [word "a\nb"])
      [.mk .andThen (.mk false [.group [.mk (.mk false [word "c"]) [] .sequential] {}])] .asynchronous)
    let sink : Sink := { mode := .multi, written := "x", pending := "\n", queued := "end\n", level := 1 }
    let after : Sink :=
      { mode := .multi, written := "x\na\nb &&\nend\n    \x7b\n        c\n    \x7d&", pending := " ", level := 1,
        lineLevel := 1 }
    node.render sink = .ok after ∧
      ∃ line head tail, node.untilBreak sink = .error line ∧ line.written = "x" ++ head ∧ line.pending = "" ∧
        line.written = "x\na\nb &&" ∧
        ∀ written queued, node.render { sink with written, queued } =
          .ok { after with written := written ++ head ++ "\n" ++ queued ++ tail, queued := "" } := by
  intro word node sink after
  have success : node.render sink = .ok after := by cbv
  have reached : node.untilBreak sink = .error { sink with written := "x\na\nb &&", pending := "" } := by cbv
  obtain ⟨_, _, broken⟩ := Node.render_framed success
  obtain ⟨line, head, tail, breaks, front, pending, adds⟩ := (broken (by decide)).2.2 rfl
  have text : line.written = "x\na\nb &&" := by
    rw [reached] at breaks
    cases breaks
    rfl
  exact ⟨success, line, head, tail, breaks, front, pending, text, adds⟩

end ShellTree
