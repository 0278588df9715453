import ShellTree.Layout.Broken
import ShellTree.Proofs.Levels
import ShellTree.Proofs.Settled

/-!
# The text on several lines

On several lines, writing a complete node puts the text that the broken layout gives it, and leaves
the line at the level that the layout tells. The level that links break to is the level in force,
which every node gives back; the level of the line is what the sink has recorded, and stays behind.
-/

namespace ShellTree

mutual

/-- Writing a complete command puts its broken text behind what is pending, and leaves a space. The
induction is on the tree; besides what is pending, the level of the line is handed on. -/
theorem Command.render_multi : ∀ {command : Command} {sink after : Sink}, command.issues = [] →
    sink.Ready .multi → command.render sink = .ok after →
    after = sink.put (sink.pending ++ (command.broken sink.level sink.lineLevel).text)
      (command.broken sink.level sink.lineLevel).line " "
  | .simple assignments words location, sink, after, complete, _, success => by
    rw [Command.render_simple complete] at success
    cases success
    rfl
  | .group body location, sink, after, complete, ready, success => by
    obtain ⟨nonempty, complete⟩ := Command.issues_group_eq_nil.mp complete
    obtain ⟨opened, inside, opens, written, closes⟩ := renderGroup_eq_ok.mp success
    obtain rfl := Sink.openGroup_multi ready opens
    obtain rfl := AndOr.renderList_multi nonempty complete (by exact ready) written
    obtain rfl := Sink.closeGroup_multi ready (by exact ready) closes
    simp only [Command.broken, Laid.andThen, Laid.inline, Laid.newline, Laid.close, Sink.put_put, Sink.pending_put,
      Sink.level_put, Sink.lineLevel_put, Sink.level_atLevel, Sink.atLevel_put, Sink.atLevel_atLevel,
      Sink.atLevel_level, String.append_assoc, String.empty_append]
  | .subshell body location, sink, after, complete, ready, success => by
    obtain ⟨nonempty, complete⟩ := Command.issues_subshell_eq_nil.mp complete
    obtain ⟨inside, written, rfl⟩ := renderSubshell_eq_ok.mp success
    obtain rfl := AndOr.renderList_multi nonempty complete (by exact ready) written
    simp [Command.broken, Laid.close, Sink.append_eq_put, Sink.dropPending_eq_put, Sink.defer_eq_put,
      String.append_assoc]

theorem Pipeline.render_multi : ∀ {pipeline : Pipeline} {sink after : Sink}, pipeline.issues = [] →
    sink.Ready .multi → pipeline.render sink = .ok after →
    after = sink.put (sink.pending ++ (pipeline.broken sink.level sink.lineLevel).text)
      (pipeline.broken sink.level sink.lineLevel).line " "
  | .mk negated [], sink, after, complete, _, _ => by simp at complete
  | .mk negated (command :: rest), sink, after, complete, ready, success => by
    simp only [Pipeline.issues_eq_nil, List.forall_mem_cons] at complete
    simp only [Pipeline.render, Command.renderPiped, bind_eq_ok] at success
    obtain ⟨middle, first, others⟩ := success
    obtain rfl := Command.render_multi complete.2.1 (by cases negated <;> exact ready) first
    obtain rfl := Command.renderTail_multi complete.2.2 (by cases negated <;> exact ready) rfl others
    cases negated <;>
      simp [Pipeline.broken, Command.brokenPiped, negationText, Laid.andThen, Laid.inline, Sink.append_eq_put,
        String.append_assoc]

theorem Command.renderTail_multi : ∀ {commands : List Command} {sink after : Sink},
    (∀ command ∈ commands, command.issues = []) → sink.Ready .multi → sink.pending = " " →
    Command.renderTail commands sink = .ok after →
    after = sink.put (Command.brokenTail sink.level commands sink.lineLevel).text
      (Command.brokenTail sink.level commands sink.lineLevel).line " "
  | [], sink, after, _, _, space, success => by
    cases success
    simp [Command.brokenTail, Laid.inline, Sink.put, ← space]
  | command :: rest, sink, after, complete, ready, space, success => by
    rw [List.forall_mem_cons] at complete
    simp only [Command.renderTail, bind_eq_ok] at success
    obtain ⟨middle, first, others⟩ := success
    obtain rfl := Command.render_multi complete.1 (by exact ready) first
    obtain rfl := Command.renderTail_multi complete.2 (by exact ready) rfl others
    simp [Command.brokenTail, Laid.andThen, Laid.inline, Sink.append_eq_put, space, String.append_assoc]

theorem Link.renderList_multi : ∀ {links : List Link} {sink after : Sink},
    (∀ link ∈ links, link.issues = []) → sink.Ready .multi → sink.pending = " " →
    Link.renderList links sink = .ok after →
    after = sink.put (Link.brokenList sink.level links sink.lineLevel).text
      (Link.brokenList sink.level links sink.lineLevel).line " "
  | [], sink, after, _, _, space, success => by
    cases success
    simp [Link.brokenList, Laid.inline, Sink.put, ← space]
  | .mk connective pipeline :: rest, sink, after, complete, ready, space, success => by
    simp only [List.forall_mem_cons, Link.issues_eq_nil] at complete
    simp only [Link.renderList, Link.render, bind_eq_ok, renderLink_eq_ok] at success
    obtain ⟨middle, ⟨opened, inside, opens, written, rfl⟩, others⟩ := success
    obtain rfl := Sink.openLink_multi ready opens
    obtain rfl := Pipeline.render_multi complete.1 (by exact ready) written
    obtain rfl := Link.renderList_multi complete.2 (by exact ready) rfl others
    simp [Link.brokenList, Link.broken, Laid.andThen, Laid.inline, Laid.newline, space, String.append_assoc]

theorem AndOr.render_multi : ∀ {list : AndOr} {sink after : Sink}, list.issues = [] →
    sink.Ready .multi → list.render sink = .ok after →
    after = sink.put (sink.pending ++ (list.broken sink.level sink.lineLevel).text ++ list.terminator.endMark)
      (list.broken sink.level sink.lineLevel).line list.terminator.left
  | .mk first links terminator, sink, after, complete, ready, success => by
    rw [AndOr.issues_eq_nil] at complete
    obtain ⟨started, chained, starts, chains, rfl⟩ := AndOr.render_eq_ok.mp success
    obtain rfl := Pipeline.render_multi complete.1 ready starts
    obtain rfl := Link.renderList_multi complete.2 (by exact ready) rfl chains
    simp [AndOr.broken, Laid.andThen, AndOr.terminator, Terminator.render_eq_put, String.append_assoc]

theorem AndOr.renderList_multi : ∀ {lists : List AndOr} {sink after : Sink}, lists ≠ [] →
    (∀ list ∈ lists, list.issues = []) → sink.Ready .multi → AndOr.renderList lists sink = .ok after →
    after = sink.put (sink.pending ++ (AndOr.brokenList sink.level lists sink.lineLevel).text)
      (AndOr.brokenList sink.level lists sink.lineLevel).line (AndOr.leftOf lists)
  | [], _, _, nonempty, _, _, _ => absurd rfl nonempty
  | list :: rest, sink, after, _, complete, ready, success => by
    rw [List.forall_mem_cons] at complete
    simp only [AndOr.renderList, bind_eq_ok] at success
    obtain ⟨middle, written, others⟩ := success
    obtain rfl := AndOr.render_multi complete.1 ready written
    cases rest with
    | nil =>
      cases others
      simp [AndOr.brokenList, Laid.close, AndOr.leftOf, String.append_assoc]
    | cons next rest =>
      obtain rfl := AndOr.renderList_multi (List.cons_ne_nil next rest) complete.2 (by exact ready) others
      simp [AndOr.brokenList, Laid.andThen, Laid.close, AndOr.leftOf, String.append_assoc,
        Terminator.endMark_append_left]

end

/-- What has been written of a complete script is its broken layout. -/
theorem Script.eq_broken_of_source {script : Script} (complete : script.issues = []) {text : String}
    (success : script.source .multi = .ok text) : text = script.broken := by
  obtain ⟨after, written, same⟩ := bind_eq_ok.mp success
  cases same
  cases script with
  | nil =>
    cases written
    rfl
  | cons list rest =>
    obtain rfl := AndOr.renderList_multi (List.cons_ne_nil list rest) (Script.issues_eq_nil.mp complete)
      ⟨rfl, rfl⟩ written
    simp [Script.broken]

/-- The links of one list break to one level, wherever the text in front of each of them ends. -/
theorem Link.text_brokenList (level : Nat) (links : List Link) (line : Nat) :
    (Link.brokenList level links line).text = String.join (links.map fun link =>
      " " ++ link.connective.operator ++ "\n" ++ spaces (indentWidth * level) ++
        (link.pipeline.broken (level + 1) level).text) := by
  induction links generalizing line with
  | nil => rfl
  | cons link rest ih =>
    obtain ⟨connective, pipeline⟩ := link
    simp only [brokenList, broken, Laid.andThen, Laid.inline, Laid.newline, ih, List.map_cons, String.join_cons,
      Link.connective, Link.pipeline, String.append_assoc]

/-- A complete script has its broken layout as its source text on several lines, whenever it has one.
It has one if it has fewer links and groups than there are levels whose indentation has a width. In
that layout all links of a list start at the level of the list, whatever they follow. -/
theorem Script.source_multi_eq_broken {script : Script} (complete : script.issues = []) :
    (∀ text, script.source .multi = .ok text → text = script.broken) ∧
      (script.breaks < 2 ^ 62 → script.source .multi = .ok script.broken) ∧
      ∀ level links line, (Link.brokenList level links line).text = String.join (links.map fun link =>
        " " ++ link.connective.operator ++ "\n" ++ spaces (indentWidth * level) ++
          (link.pipeline.broken (level + 1) level).text) := by
  refine ⟨fun text success => eq_broken_of_source complete success, fun room => ?_, Link.text_brokenList⟩
  obtain ⟨text, success⟩ := exists_source (show script.breaks < LineMode.multi.levelLimit from room)
  rw [success, eq_broken_of_source complete success]

/-- Behind a subshell that holds a group, a second link starts where the first one did. -/
theorem Script.source_multi_links :
    let word (text : String) : Command := .simple [] [.literal text] {}
    let group : Command := .group [.mk (.mk false [word "b"]) [] .asynchronous] {}
    let script : Script := [.mk (.mk false [word "a"])
      [.mk .andThen (.mk true [.subshell [.mk (.mk false [group]) [] .sequential] {}]),
        .mk .orElse (.mk false [word "c", group])] .sequential]
    script.issues = [] ∧ script.source .multi = .ok
      "a &&\n! (\x7b\n    b&\n\x7d) ||\nc | \x7b\n    b&\n\x7d" := by
  intro word group script
  have complete : script.issues = [] := by decide
  have broken : script.broken = "a &&\n! (\x7b\n    b&\n\x7d) ||\nc | \x7b\n    b&\n\x7d" := by decide
  refine ⟨complete, ?_⟩
  rw [← broken]
  exact (Script.source_multi_eq_broken complete).2.1 (by decide)

end ShellTree
