import ShellTree.Proofs.Levels
import ShellTree.Proofs.Settled

/-!
# The text on one line

On a single line, writing a complete node puts the text that the flat layout gives it. The sink is
met with something pending that the node commits, and left with a space pending, or, behind a list,
with what its terminator leaves. What the layout says of the end of a body, the writer finds out only
when it closes the body: a group commits what is pending there, a subshell gives it up.

The level of the line is of no account here, and so the statements leave it open.
-/

namespace ShellTree

/-- Lists that are all ended by their full marks differ from the lists of a script by what the last one
leaves pending. -/
theorem AndOr.flatList_endMark_append : ∀ {lists : List AndOr}, lists ≠ [] → ∀ rest : String,
    AndOr.flatList Terminator.endMark lists ++ (AndOr.leftOf lists ++ rest) =
      AndOr.flatList Terminator.mark lists ++ (" " ++ rest)
  | [], nonempty, _ => absurd rfl nonempty
  | [list], _, rest => by
    simp only [flatList, leftOf, String.append_assoc, Terminator.endMark_append_left]
  | list :: next :: lists, _, rest => by
    have ih := flatList_endMark_append (List.cons_ne_nil next lists) rest
    simp only [flatList, leftOf, String.append_assoc, ih]

mutual

/-- Writing a complete command puts its flat text behind what is pending, and leaves a space. The
induction is on the tree; what is pending is the invariant that one node hands to the next. -/
theorem Command.render_single : ∀ {command : Command} {sink after : Sink}, command.issues = [] →
    sink.Ready .single → command.render sink = .ok after →
    ∃ line, after = sink.put (sink.pending ++ command.flat) line " "
  | .simple assignments words location, sink, after, complete, _, success => by
    rw [Command.render_simple complete] at success
    cases success
    exact ⟨_, rfl⟩
  | .group body location, sink, after, complete, ready, success => by
    obtain ⟨nonempty, complete⟩ := Command.issues_group_eq_nil.mp complete
    obtain ⟨opened, inside, opens, written, closes⟩ := renderGroup_eq_ok.mp success
    obtain rfl := Sink.openGroup_single ready opens
    obtain ⟨line, rfl⟩ := AndOr.renderList_single nonempty complete (by exact ready) written
    obtain rfl := Sink.closeGroup_single ready closes
    refine ⟨line, ?_⟩
    simp only [Command.flat, Sink.put_put, Sink.pending_put, Sink.atLevel_put, Sink.atLevel_atLevel,
      Sink.atLevel_level, String.append_assoc, AndOr.flatList_endMark_append nonempty]
    rfl
  | .subshell body location, sink, after, complete, ready, success => by
    obtain ⟨nonempty, complete⟩ := Command.issues_subshell_eq_nil.mp complete
    obtain ⟨inside, written, rfl⟩ := renderSubshell_eq_ok.mp success
    obtain ⟨line, rfl⟩ := AndOr.renderList_single nonempty complete (by exact ready) written
    refine ⟨line, ?_⟩
    simp [Command.flat, Sink.append_eq_put, Sink.dropPending_eq_put, Sink.defer_eq_put, String.append_assoc]

theorem Pipeline.render_single : ∀ {pipeline : Pipeline} {sink after : Sink}, pipeline.issues = [] →
    sink.Ready .single → pipeline.render sink = .ok after →
    ∃ line, after = sink.put (sink.pending ++ pipeline.flat) line " "
  | .mk negated [], sink, after, complete, _, _ => by simp at complete
  | .mk negated (command :: rest), sink, after, complete, ready, success => by
    simp only [Pipeline.issues_eq_nil, List.forall_mem_cons] at complete
    simp only [Pipeline.render, Command.renderPiped, bind_eq_ok] at success
    obtain ⟨middle, first, others⟩ := success
    obtain ⟨line, rfl⟩ := Command.render_single complete.2.1 (by cases negated <;> exact ready) first
    obtain ⟨line, rfl⟩ := Command.renderTail_single complete.2.2 (by cases negated <;> exact ready) rfl others
    refine ⟨line, ?_⟩
    cases negated <;>
      simp [Pipeline.flat, Command.flatPiped, negationText, Sink.append_eq_put, String.append_assoc]

theorem Command.renderTail_single : ∀ {commands : List Command} {sink after : Sink},
    (∀ command ∈ commands, command.issues = []) → sink.Ready .single → sink.pending = " " →
    Command.renderTail commands sink = .ok after →
    ∃ line, after = sink.put (Command.flatTail commands) line " "
  | [], sink, after, _, _, space, success => by
    cases success
    exact ⟨sink.lineLevel, by simp [Command.flatTail, Sink.put, ← space]⟩
  | command :: rest, sink, after, complete, ready, space, success => by
    rw [List.forall_mem_cons] at complete
    simp only [Command.renderTail, bind_eq_ok] at success
    obtain ⟨middle, first, others⟩ := success
    obtain ⟨line, rfl⟩ := Command.render_single complete.1 (by exact ready) first
    obtain ⟨line, rfl⟩ := Command.renderTail_single complete.2 (by exact ready) rfl others
    refine ⟨line, ?_⟩
    simp [Command.flatTail, Sink.append_eq_put, space, String.append_assoc]

theorem Link.renderList_single : ∀ {links : List Link} {sink after : Sink},
    (∀ link ∈ links, link.issues = []) → sink.Ready .single → sink.pending = " " →
    Link.renderList links sink = .ok after →
    ∃ line, after = sink.put (Link.flatList links) line " "
  | [], sink, after, _, _, space, success => by
    cases success
    exact ⟨sink.lineLevel, by simp [Link.flatList, Sink.put, ← space]⟩
  | .mk connective pipeline :: rest, sink, after, complete, ready, space, success => by
    simp only [List.forall_mem_cons, Link.issues_eq_nil] at complete
    simp only [Link.renderList, Link.render, bind_eq_ok, renderLink_eq_ok] at success
    obtain ⟨middle, ⟨opened, inside, opens, written, rfl⟩, others⟩ := success
    obtain rfl := Sink.openLink_single ready opens
    obtain ⟨line, rfl⟩ := Pipeline.render_single complete.1 (by exact ready) written
    obtain ⟨line, rfl⟩ := Link.renderList_single complete.2 (by exact ready) rfl others
    refine ⟨line, ?_⟩
    simp [Link.flatList, Link.flat, space, String.append_assoc]

theorem AndOr.render_single : ∀ {list : AndOr} {sink after : Sink}, list.issues = [] →
    sink.Ready .single → list.render sink = .ok after →
    ∃ line, after = sink.put (sink.pending ++ list.flat ++ list.terminator.endMark) line list.terminator.left
  | .mk first links terminator, sink, after, complete, ready, success => by
    rw [AndOr.issues_eq_nil] at complete
    obtain ⟨started, chained, starts, chains, rfl⟩ := AndOr.render_eq_ok.mp success
    obtain ⟨line, rfl⟩ := Pipeline.render_single complete.1 ready starts
    obtain ⟨line, rfl⟩ := Link.renderList_single complete.2 (by exact ready) rfl chains
    refine ⟨line, ?_⟩
    simp [AndOr.flat, AndOr.terminator, Terminator.render_eq_put, String.append_assoc]

/-- Lists are put with their full marks between them, and the last one leaves what its terminator does. -/
theorem AndOr.renderList_single : ∀ {lists : List AndOr} {sink after : Sink}, lists ≠ [] →
    (∀ list ∈ lists, list.issues = []) → sink.Ready .single → AndOr.renderList lists sink = .ok after →
    ∃ line, after = sink.put (sink.pending ++ AndOr.flatList Terminator.endMark lists) line (AndOr.leftOf lists)
  | [], _, _, nonempty, _, _, _ => absurd rfl nonempty
  | list :: rest, sink, after, _, complete, ready, success => by
    rw [List.forall_mem_cons] at complete
    simp only [AndOr.renderList, bind_eq_ok] at success
    obtain ⟨middle, written, others⟩ := success
    obtain ⟨line, rfl⟩ := AndOr.render_single complete.1 ready written
    cases rest with
    | nil =>
      cases others
      exact ⟨line, by simp [AndOr.flatList, AndOr.leftOf, String.append_assoc]⟩
    | cons next rest =>
      obtain ⟨line, rfl⟩ := AndOr.renderList_single (List.cons_ne_nil next rest) complete.2 (by exact ready) others
      refine ⟨line, ?_⟩
      simp [AndOr.flatList, AndOr.leftOf, String.append_assoc, Terminator.endMark_append_left]

end

/-- What has been written of a complete script is its flat layout; the terminator of its last list
may still be pending, and is given up. -/
theorem Script.eq_flat_of_source {script : Script} (complete : script.issues = []) {text : String}
    (success : script.source .single = .ok text) : text = script.flat := by
  obtain ⟨after, written, same⟩ := bind_eq_ok.mp success
  cases same
  cases script with
  | nil =>
    cases written
    rfl
  | cons list rest =>
    obtain ⟨line, rfl⟩ := AndOr.renderList_single (List.cons_ne_nil list rest) (Script.issues_eq_nil.mp complete)
      ⟨rfl, rfl⟩ written
    simp [Script.flat]

/-- A complete script has its flat layout as its source text on a single line, whenever it has one. It
has one if it has fewer links and groups than there are levels. -/
theorem Script.source_single_eq_flat {script : Script} (complete : script.issues = []) :
    (∀ text, script.source .single = .ok text → text = script.flat) ∧
      (script.breaks < 2 ^ 64 → script.source .single = .ok script.flat) := by
  refine ⟨fun text success => eq_flat_of_source complete success, fun room => ?_⟩
  obtain ⟨text, success⟩ := exists_source (show script.breaks < LineMode.single.levelLimit from room)
  rw [success, eq_flat_of_source complete success]

/-- An empty word, a negation, an asynchronous list at the end of a subshell and a group in a row. -/
theorem Script.source_single_group :
    let waiting : AndOr := .mk (.mk false [.simple [] [.literal "a"] {}]) [] .asynchronous
    let guarded : AndOr := .mk (.mk true [.simple [⟨"x", {}⟩] [.literal ""] {}, .subshell [waiting] {}])
      [.mk .orElse (.mk false [.simple [] [.literal "b"] {}]), .mk .andThen (.mk true [.simple [] [.literal "c"] {}])]
      .sequential
    let script : Script := [.mk (.mk false [.group [waiting, guarded] {}]) [] .sequential, waiting]
    script.issues = [] ∧ script.source .single = .ok "\x7b a& ! x=  | (a&) || b && ! c; \x7d; a&" := by
  intro waiting guarded script
  have complete : script.issues = [] := by decide
  have flat : script.flat = "\x7b a& ! x=  | (a&) || b && ! c; \x7d; a&" := by decide
  refine ⟨complete, ?_⟩
  rw [← flat]
  exact (Script.source_single_eq_flat complete).2 (by decide)

end ShellTree
