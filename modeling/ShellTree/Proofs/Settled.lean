import ShellTree.Proofs.NewLines
import ShellTree.Proofs.SimpleText

/-!
# Sinks between nodes

Behind every complete node it is known what is pending: a space, or what a terminator leaves. So all
that such a node does to a sink is to put a text behind what has been written, to leave the line at
some level, and to leave something pending. `Sink.put` is this one effect. The operations on sinks,
the stages of groups and links, and simple commands are expressed by it here, for sinks that have no
line queued; what holds of one line mode alone says so in its name.
-/

namespace ShellTree

namespace Sink

/-- The sink after `text` has been written in place of what was pending there: the line that it ends
on has the level `line`, and `left` is pending. -/
def put (sink : Sink) (text : String) (line : Nat) (left : String) : Sink :=
  { sink with written := sink.written ++ text, pending := left, lineLevel := line }

section

variable (sink : Sink) (text left : String) (line level : Nat)

@[simp] theorem written_put : (sink.put text line left).written = sink.written ++ text := rfl
@[simp] theorem pending_put : (sink.put text line left).pending = left := rfl
@[simp] theorem level_put : (sink.put text line left).level = sink.level := rfl
@[simp] theorem lineLevel_put : (sink.put text line left).lineLevel = line := rfl

@[simp] theorem pending_atLevel : (sink.atLevel level).pending = sink.pending := rfl
@[simp] theorem lineLevel_atLevel : (sink.atLevel level).lineLevel = sink.lineLevel := rfl
@[simp] theorem level_atLevel : (sink.atLevel level).level = level := rfl
@[simp] theorem atLevel_atLevel (next : Nat) : (sink.atLevel level).atLevel next = sink.atLevel next := rfl
@[simp] theorem atLevel_level : sink.atLevel sink.level = sink := rfl

@[simp] theorem atLevel_put :
    (sink.put text line left).atLevel level = (sink.atLevel level).put text line left := rfl

@[simp] theorem put_put (second right : String) (next : Nat) :
    (sink.put text line left).put second next right = sink.put (text ++ second) next right := by
  simp [put, String.append_assoc]

theorem append_eq_put : sink.append text = sink.put (sink.pending ++ text) sink.lineLevel "" := by
  simp [put, append, String.append_assoc]

theorem defer_eq_put : sink.defer text = sink.put "" sink.lineLevel (sink.pending ++ text) := by
  simp [put, defer]

theorem dropPending_eq_put : sink.dropPending = sink.put "" sink.lineLevel "" := by
  simp [put, dropPending]

end

/-- A sink that lays out its text in the given mode and has no line queued. -/
def Ready (mode : LineMode) (sink : Sink) : Prop := sink.mode = mode ∧ sink.queued = ""

@[simp] theorem ready_put {mode : LineMode} {sink : Sink} {text left : String} {line : Nat} :
    (sink.put text line left).Ready mode ↔ sink.Ready mode := Iff.rfl

variable {sink inside after : Sink} {connective : Connective}

/-- On a single line a new line is a space, whatever its level. -/
theorem onNewLine_single (ready : sink.Ready .single) (level : Nat) :
    sink.onNewLine level = (sink.atLevel level).put "" level " " := by
  obtain ⟨mode, queue⟩ := ready
  simp [onNewLine, atLevel, put, mode, queue, LineMode.lineBreak, LineMode.margin, LineMode.gap]

theorem onNewLine_multi (ready : sink.Ready .multi) (level : Nat) :
    sink.onNewLine level = (sink.atLevel level).put ("\n" ++ spaces (indentWidth * level)) level "" := by
  obtain ⟨mode, queue⟩ := ready
  simp [onNewLine, atLevel, put, mode, queue, LineMode.lineBreak, LineMode.margin, LineMode.gap,
    String.append_assoc]

theorem openGroup_single (ready : sink.Ready .single) (success : sink.openGroup = .ok inside) :
    inside = (sink.atLevel (sink.lineLevel + 1)).put (sink.pending ++ "\x7b") (sink.lineLevel + 1) " " := by
  obtain ⟨_, rfl⟩ := openGroup_eq_ok.mp success
  rw [append_eq_put, onNewLine_single (ready_put.mpr ready)]
  simp

theorem openGroup_multi (ready : sink.Ready .multi) (success : sink.openGroup = .ok inside) :
    inside = (sink.atLevel (sink.lineLevel + 1)).put
      (sink.pending ++ "\x7b" ++ "\n" ++ spaces (indentWidth * (sink.lineLevel + 1))) (sink.lineLevel + 1) "" := by
  obtain ⟨_, rfl⟩ := openGroup_eq_ok.mp success
  rw [append_eq_put, onNewLine_multi (ready_put.mpr ready)]
  simp only [atLevel_put, put_put, String.append_assoc]

theorem closeGroup_single (ready : sink.Ready .single) (success : sink.closeGroup inside = .ok after) :
    after = (inside.atLevel sink.level).put (inside.pending ++ "\x7d") inside.lineLevel " " := by
  obtain ⟨_, rfl⟩ := closeGroup_eq_ok.mp success
  simp [onClosingLine, ready.1, append_eq_put, defer_eq_put]

theorem closeGroup_multi (ready : sink.Ready .multi) (insideReady : inside.Ready .multi)
    (success : sink.closeGroup inside = .ok after) :
    after = (inside.atLevel sink.level).put
      ("\n" ++ spaces (indentWidth * sink.lineLevel) ++ "\x7d") sink.lineLevel " " := by
  obtain ⟨_, rfl⟩ := closeGroup_eq_ok.mp success
  simp [onClosingLine, ready.1, onNewLine_multi insideReady, append_eq_put, defer_eq_put]

theorem openLink_single (ready : sink.Ready .single) (success : sink.openLink connective = .ok inside) :
    inside = (sink.atLevel (sink.level + 1)).put (sink.pending ++ connective.operator) sink.level " " := by
  obtain ⟨_, rfl⟩ := openLink_eq_ok.mp success
  rw [append_eq_put, onNewLine_single (ready_put.mpr ready)]
  simp

theorem openLink_multi (ready : sink.Ready .multi) (success : sink.openLink connective = .ok inside) :
    inside = (sink.atLevel (sink.level + 1)).put
      (sink.pending ++ connective.operator ++ "\n" ++ spaces (indentWidth * sink.level)) sink.level "" := by
  obtain ⟨_, rfl⟩ := openLink_eq_ok.mp success
  rw [append_eq_put, onNewLine_multi (ready_put.mpr ready)]
  simp only [atLevel_put, put_put, atLevel_atLevel, String.append_assoc]

end Sink

/-! ## Simple commands and terminators -/

/-- Texts that are each followed by a pending space are written with a space between any two. -/
theorem foldl_append_defer {texts : List String} (nonempty : texts ≠ []) (sink : Sink) :
    texts.foldl (fun sink text => (sink.append text).defer " ") sink =
      sink.put (sink.pending ++ " ".intercalate texts) sink.lineLevel " " := by
  induction texts generalizing sink with
  | nil => contradiction
  | cons text rest ih =>
    cases rest with
    | nil => simp [Sink.append_eq_put, Sink.defer_eq_put]
    | cons next rest =>
      rw [List.foldl_cons, ih (List.cons_ne_nil next rest)]
      simp [Sink.append_eq_put, Sink.defer_eq_put, String.append_assoc]

/-- Items that write one text each are spaced like these texts. -/
theorem renderSpaced_eq_foldl {α : Type} {render : α → Sink → Sink} {text : α → String} {items : List α}
    (writes : ∀ item ∈ items, ∀ sink : Sink, render item sink = sink.append (text item)) (sink : Sink) :
    renderSpaced render items sink =
      (items.map text).foldl (fun sink text => (sink.append text).defer " ") sink := by
  unfold renderSpaced
  induction items generalizing sink with
  | nil => rfl
  | cons item rest ih =>
    simp only [List.forall_mem_cons] at writes
    simp only [List.map_cons, List.foldl_cons, writes.1, ih writes.2]

/-- Writing an assignment is writing its text; the value may have no fragments. -/
theorem Assignment.render_eq (assignment : Assignment) (sink : Sink) :
    assignment.render sink = sink.append assignment.text := by
  simp only [render, Word.render_eq, text, Sink.append_append]
  split
  · next none => simp [Word.text, none]
  · rfl

/-- A complete simple command puts its text, and a space is pending behind it. -/
theorem Command.render_simple {assignments : List Assignment} {words : List Word} {location : Location}
    (complete : (Command.simple assignments words location).issues = []) (sink : Sink) :
    (Command.simple assignments words location).render sink =
      .ok (sink.put (sink.pending ++ simpleText assignments words) sink.lineLevel " ") := by
  obtain ⟨_, _, fragments⟩ := Command.issues_simple_eq_nil.mp complete
  have wordsWrite : ∀ word ∈ words, ∀ sink : Sink, word.render sink = sink.append word.text := by
    intro word member sink
    rw [Word.render_eq, if_neg (fragments word member)]
  rw [Command.render, renderSpaced_eq_foldl wordsWrite,
    renderSpaced_eq_foldl fun assignment _ => assignment.render_eq, ← List.foldl_append,
    foldl_append_defer (texts_ne_nil complete)]
  rfl

/-- What a terminator leaves pending. -/
def Terminator.left : Terminator → String
  | .sequential => "; "
  | .asynchronous => " "

/-- The mark that is put and what is left pending make up the full mark and the space behind it. -/
theorem Terminator.endMark_append_left (terminator : Terminator) (rest : String) :
    terminator.endMark ++ (terminator.left ++ rest) = terminator.mark ++ (" " ++ rest) := by
  cases terminator with
  | sequential =>
    have parts : "; " = ";" ++ " " := rfl
    simp only [endMark, left, mark, parts, String.append_assoc, String.empty_append]
  | asynchronous => rfl

theorem Terminator.render_eq_put (terminator : Terminator) (sink : Sink) :
    terminator.render sink = sink.put terminator.endMark sink.lineLevel terminator.left := by
  cases terminator <;> simp [render, endMark, left, Sink.dropPending_eq_put, Sink.append_eq_put, Sink.defer_eq_put]

/-- What the last of several lists leaves pending. -/
def AndOr.leftOf : List AndOr → String
  | [] => ""
  | [list] => list.terminator.left
  | _ :: next :: rest => AndOr.leftOf (next :: rest)

end ShellTree
