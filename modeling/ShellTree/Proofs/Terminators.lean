import ShellTree.Issue
import ShellTree.Proofs.Levels
import ShellTree.Tree.Tokens

/-!
# Terminators that wait

The `;` of a list waits until something follows it. What follows writes it, as long as the first thing
that is written is a token of a node. The end of a list is different: it gives up all that is pending,
and not only the space behind its own last word. So a list without any token of its own gives up the `;`
of the list in front of it. That shows if the list is asynchronous: its `&` then stands where the `;` of
the other list should be. A list that is complete has tokens, and so this cannot happen in a complete
script.

`Sink.Heeds` says that what is pending is written or goes on waiting; every node heeds it but a list.
-/

namespace ShellTree

namespace Sink

/-- On the way from `sink` to `after` text may have been added to what was written, and nothing else. -/
def GrowsTo (sink after : Sink) : Prop := ∃ text, after.written = sink.written ++ text

/-- On the way from `sink` to `after`, which writes the given tokens, nothing is given up of what was
pending: it goes on waiting as long as no token is written, and the first one is written behind it. -/
structure Heeds (tokens : List String) (sink after : Sink) : Prop where
  waits : tokens = [] → after.written = sink.written ∧ ∃ more, after.pending = sink.pending ++ more
  commits : tokens ≠ [] → ∃ text, after.written = sink.written ++ sink.pending ++ text

variable {tokens more : List String} {sink middle after : Sink}

namespace GrowsTo

theorem of_eq (same : after.written = sink.written) : sink.GrowsTo after :=
  ⟨"", same.trans String.append_empty.symm⟩

theorem refl (sink : Sink) : sink.GrowsTo sink := of_eq rfl

theorem trans (first : sink.GrowsTo middle) (second : middle.GrowsTo after) : sink.GrowsTo after := by
  obtain ⟨text, written⟩ := first
  obtain ⟨text', written'⟩ := second
  exact ⟨text ++ text', by rw [written', written, String.append_assoc]⟩

theorem append (text : String) : sink.GrowsTo (sink.append text) :=
  ⟨sink.pending ++ text, String.append_assoc ..⟩

theorem atLevel (level : Nat) : sink.GrowsTo (sink.atLevel level) := of_eq rfl

theorem onNewLine (level : Nat) : sink.GrowsTo (sink.onNewLine level) :=
  ⟨sink.mode.lineBreak sink.queued ++ sink.mode.margin level, String.append_assoc ..⟩

theorem onClosingLine (sink inside : Sink) : inside.GrowsTo (sink.onClosingLine inside) := by
  unfold Sink.onClosingLine
  split
  · exact .refl inside
  · exact onNewLine sink.lineLevel

end GrowsTo

namespace Heeds

theorem refl (sink : Sink) : Heeds [] sink sink where
  waits _ := ⟨rfl, "", String.append_empty.symm⟩
  commits some := absurd rfl some

theorem growsTo (heeds : Heeds tokens sink after) : sink.GrowsTo after := by
  by_cases none : tokens = []
  · exact .of_eq (heeds.waits none).1
  · obtain ⟨text, written⟩ := heeds.commits none
    exact ⟨sink.pending ++ text, by rw [written, String.append_assoc]⟩

theorem trans (first : Heeds tokens sink middle) (second : Heeds more middle after) :
    Heeds (tokens ++ more) sink after := by
  constructor
  · intro none
    obtain ⟨noTokens, noMore⟩ := List.append_eq_nil_iff.mp none
    obtain ⟨written, left, pending⟩ := first.waits noTokens
    obtain ⟨written', left', pending'⟩ := second.waits noMore
    exact ⟨written'.trans written, left ++ left', by rw [pending', pending, String.append_assoc]⟩
  · intro some
    by_cases noTokens : tokens = []
    · -- The first token comes from the second part, which finds all that was pending still waiting.
      obtain ⟨written, left, pending⟩ := first.waits noTokens
      obtain ⟨text, written'⟩ := second.commits (by simpa [noTokens] using some)
      exact ⟨left ++ text, by rw [written', written, pending]; simp only [String.append_assoc]⟩
    · obtain ⟨text, written⟩ := first.commits noTokens
      obtain ⟨text', written'⟩ := second.growsTo
      exact ⟨text ++ text', by rw [written', written]; simp only [String.append_assoc]⟩

/-- Whoever begins by writing a token may do anything behind it that leaves the text as it is. -/
theorem of_append {text : String} (some : tokens ≠ []) (grows : (sink.append text).GrowsTo after) :
    Heeds tokens sink after := by
  obtain ⟨more, written⟩ := grows
  refine ⟨fun none => absurd none some, fun _ => ⟨text ++ more, ?_⟩⟩
  rw [written, Sink.append, String.append_assoc]

theorem append (token text : String) : Heeds [token] sink (sink.append text) :=
  of_append (List.cons_ne_nil token []) (.refl _)

theorem defer (text : String) : Heeds [] sink (sink.defer text) where
  waits _ := ⟨rfl, text, rfl⟩
  commits some := absurd rfl some

end Heeds

end Sink

/-! ## Writers that heed what is pending -/

section

variable {tokens : List String} {sink after : Sink} {write : Sink → Except Overflow Sink}

/-- A group begins with its brace, and nothing inside takes back what has been written. -/
theorem growsTo_of_renderGroup (body : ∀ sink after, write sink = .ok after → sink.GrowsTo after)
    (success : renderGroup write sink = .ok after) : (sink.append "\x7b").GrowsTo after := by
  obtain ⟨opened, inside, opens, written, closes⟩ := renderGroup_eq_ok.mp success
  obtain ⟨_, rfl⟩ := Sink.openGroup_eq_ok.mp opens
  obtain ⟨_, rfl⟩ := Sink.closeGroup_eq_ok.mp closes
  have line : (sink.append "\x7b").GrowsTo ((sink.append "\x7b").onNewLine (sink.lineLevel + 1)) := .onNewLine _
  have closing := (Sink.GrowsTo.onClosingLine sink inside).trans (.atLevel sink.level)
  have brace := closing.trans (Sink.GrowsTo.append "\x7d")
  exact line.trans ((body _ inside written).trans brace)

theorem growsTo_of_renderSubshell (body : ∀ sink after, write sink = .ok after → sink.GrowsTo after)
    (success : renderSubshell write sink = .ok after) : (sink.append "(").GrowsTo after := by
  obtain ⟨inside, written, rfl⟩ := renderSubshell_eq_ok.mp success
  have closing : inside.GrowsTo ((inside.dropPending.append ")").defer " ") := Sink.GrowsTo.append ")"
  exact (body (sink.append "(") inside written).trans closing

theorem growsTo_of_renderLink {connective : Connective}
    (pipeline : ∀ sink after, write sink = .ok after → sink.GrowsTo after)
    (success : renderLink connective write sink = .ok after) : (sink.append connective.operator).GrowsTo after := by
  obtain ⟨opened, inside, opens, written, rfl⟩ := renderLink_eq_ok.mp success
  obtain ⟨_, rfl⟩ := Sink.openLink_eq_ok.mp opens
  have line : (sink.append connective.operator).GrowsTo ((sink.append connective.operator).onNewLine sink.level) :=
    .onNewLine sink.level
  exact line.trans ((Sink.GrowsTo.atLevel (sink.level + 1)).trans (pipeline _ inside written))

end

theorem Word.heeds_render (word : Word) (sink : Sink) : sink.Heeds word.fragments (word.render sink) := by
  rw [Word.render_eq]
  split
  · next none =>
    rw [none]
    exact .refl sink
  · next some => exact .of_append some (.refl _)

theorem Assignment.heeds_render (assignment : Assignment) (sink : Sink) :
    sink.Heeds assignment.tokens (assignment.render sink) := by
  have name : sink.Heeds [assignment.name] (sink.append assignment.name) := .append _ _
  have equals : (sink.append assignment.name).Heeds ["="] ((sink.append assignment.name).append "=") := .append _ _
  exact name.trans (equals.trans (assignment.value.heeds_render _))

/-- Items that each heed what is pending do so together, as the spaces between them only wait. -/
theorem heeds_renderSpaced {α : Type} {render : α → Sink → Sink} {tokens : α → List String}
    (heeds : ∀ item sink, Sink.Heeds (tokens item) sink (render item sink)) (items : List α) (sink : Sink) :
    sink.Heeds (items.flatMap tokens) (renderSpaced render items sink) := by
  unfold renderSpaced
  induction items generalizing sink with
  | nil => exact .refl sink
  | cons item rest ih =>
    have spaced := (heeds item sink).trans (Sink.Heeds.defer " ")
    rw [List.append_nil] at spaced
    exact spaced.trans (ih _)

theorem Terminator.growsTo_render (terminator : Terminator) (sink : Sink) : sink.GrowsTo (terminator.render sink) := by
  cases terminator with
  | sequential => exact .of_eq rfl
  | asynchronous =>
    have dropped : sink.GrowsTo sink.dropPending := .of_eq rfl
    exact dropped.trans (Sink.GrowsTo.append "&")

mutual

/-- Every command heeds what is pending. The induction is on the tree; of the lists inside a command,
all that counts is that they take nothing back. -/
theorem Command.heeds_render : ∀ {command : Command} {sink after : Sink}, command.render sink = .ok after →
    sink.Heeds command.tokens after
  | .simple assignments words _, sink, after, success => by
    cases success
    exact (heeds_renderSpaced Assignment.heeds_render assignments sink).trans
      (heeds_renderSpaced Word.heeds_render words _)
  | .group body _, sink, after, success => by
    have grows := growsTo_of_renderGroup (fun _ _ => AndOr.growsTo_renderList) success
    exact .of_append (List.cons_ne_nil _ _) grows
  | .subshell body _, sink, after, success => by
    have grows := growsTo_of_renderSubshell (fun _ _ => AndOr.growsTo_renderList) success
    exact .of_append (List.cons_ne_nil _ _) grows

theorem Pipeline.heeds_render : ∀ {pipeline : Pipeline} {sink after : Sink}, pipeline.render sink = .ok after →
    sink.Heeds pipeline.tokens after
  | .mk negated commands, sink, after, success => by
    have opening : sink.Heeds (if negated then ["!"] else []) (if negated then sink.append "! " else sink) := by
      cases negated with
      | false => exact .refl sink
      | true => exact .append _ _
    refine opening.trans ?_
    cases commands with
    | nil =>
      cases success
      exact .refl _
    | cons command rest =>
      obtain ⟨middle, first, others⟩ := bind_eq_ok.mp success
      exact (Command.heeds_render first).trans (Command.heeds_renderTail others)

theorem Command.heeds_renderTail : ∀ {commands : List Command} {sink after : Sink},
    Command.renderTail commands sink = .ok after → sink.Heeds (Command.tokensTail commands) after
  | [], sink, after, success => by
    cases success
    exact .refl sink
  | command :: rest, sink, after, success => by
    obtain ⟨middle, first, others⟩ := bind_eq_ok.mp success
    have pipe : sink.Heeds ["|"] (sink.append "| ") := .append _ _
    exact pipe.trans ((Command.heeds_render first).trans (Command.heeds_renderTail others))

theorem Link.heeds_renderList : ∀ {links : List Link} {sink after : Sink},
    Link.renderList links sink = .ok after → sink.Heeds (Link.tokensOf links) after
  | [], sink, after, success => by
    cases success
    exact .refl sink
  | .mk connective pipeline :: rest, sink, after, success => by
    obtain ⟨middle, first, others⟩ := bind_eq_ok.mp success
    have grows := growsTo_of_renderLink (fun _ _ written => (Pipeline.heeds_render written).growsTo) first
    have link : sink.Heeds (Link.mk connective pipeline).tokens middle := .of_append (List.cons_ne_nil _ _) grows
    exact link.trans (Link.heeds_renderList others)

theorem AndOr.growsTo_renderList : ∀ {lists : List AndOr} {sink after : Sink},
    AndOr.renderList lists sink = .ok after → sink.GrowsTo after
  | [], sink, after, success => by
    cases success
    exact .refl sink
  | .mk first links terminator :: rest, sink, after, success => by
    obtain ⟨middle, written, others⟩ := bind_eq_ok.mp success
    obtain ⟨started, chained, starts, chains, rfl⟩ := AndOr.render_eq_ok.mp written
    have pipelines := (Pipeline.heeds_render starts).trans (Link.heeds_renderList chains)
    exact (pipelines.growsTo.trans (terminator.growsTo_render chained)).trans (AndOr.growsTo_renderList others)

end

/-! ## What becomes of a terminator -/

/-- What a list does before its terminator ends it. -/
theorem AndOr.exists_heeds_render {list : AndOr} {sink after : Sink} (success : list.render sink = .ok after) :
    ∃ tokens inside, (tokens = [] ↔ list.Hollow) ∧ sink.Heeds tokens inside ∧
      after = list.terminator.render inside := by
  obtain ⟨first, links, terminator⟩ := list
  obtain ⟨started, chained, starts, chains, rfl⟩ := AndOr.render_eq_ok.mp success
  have pipelines := (Pipeline.heeds_render starts).trans (Link.heeds_renderList chains)
  exact ⟨_, chained, AndOr.hollow_mk.symm, pipelines, rfl⟩

/-- Lists of which the first that writes anything writes nothing but its `&`. -/
def AndOr.Swallow (lists : List AndOr) : Prop :=
  ∃ silent list rest, lists = silent ++ list :: rest ∧
    (∀ other ∈ silent, other.Hollow ∧ other.terminator = .sequential) ∧
      list.Hollow ∧ list.terminator = .asynchronous

theorem AndOr.not_swallow_nil : ¬ AndOr.Swallow [] := by
  rintro ⟨silent, list, rest, same, _⟩
  simp at same

theorem AndOr.swallow_cons {list : AndOr} {rest : List AndOr} :
    AndOr.Swallow (list :: rest) ↔
      list.Hollow ∧ (list.terminator = .sequential → AndOr.Swallow rest) := by
  constructor
  · rintro ⟨silent, other, behind, same, quiet, hollow, asynchronous⟩
    cases silent with
    | nil =>
      obtain ⟨rfl, rfl⟩ := List.cons.inj same
      exact ⟨hollow, fun sequential => by simp [sequential] at asynchronous⟩
    | cons first silent =>
      obtain ⟨rfl, rfl⟩ := List.cons.inj same
      rw [List.forall_mem_cons] at quiet
      exact ⟨quiet.1.1, fun _ => ⟨silent, other, behind, rfl, quiet.2, hollow, asynchronous⟩⟩
  · rintro ⟨hollow, onward⟩
    cases ending : list.terminator with
    | asynchronous => exact ⟨[], list, rest, rfl, by simp, hollow, ending⟩
    | sequential =>
      obtain ⟨silent, other, behind, rfl, quiet, last⟩ := onward ending
      exact ⟨list :: silent, other, behind, rfl, List.forall_mem_cons.mpr ⟨⟨hollow, ending⟩, quiet⟩, last⟩

instance decidableSwallow : (lists : List AndOr) → Decidable (AndOr.Swallow lists)
  | [] => .isFalse AndOr.not_swallow_nil
  | _ :: rest =>
    have := decidableSwallow rest
    decidable_of_iff _ AndOr.swallow_cons.symm

/-- While `; ` is pending, the next lists either write nothing, or write it first, or put `&` in its
place. The induction is on the lists; a hollow list that is sequential leaves everything as it is. -/
theorem AndOr.written_renderList {lists : List AndOr} {sink after : Sink} (waiting : sink.pending = "; ")
    (success : AndOr.renderList lists sink = .ok after) :
    (AndOr.Swallow lists → ∃ rest, after.written = sink.written ++ "&" ++ rest) ∧
      (¬ AndOr.Swallow lists →
        after.written = sink.written ∨ ∃ rest, after.written = sink.written ++ "; " ++ rest) := by
  induction lists generalizing sink with
  | nil =>
    cases success
    exact ⟨fun swallow => absurd swallow AndOr.not_swallow_nil, fun _ => .inl rfl⟩
  | cons list others ih =>
    obtain ⟨middle, rendered, success⟩ := bind_eq_ok.mp success
    obtain ⟨tokens, inside, hollow, heeds, rfl⟩ := AndOr.exists_heeds_render rendered
    rw [AndOr.swallow_cons, ← hollow]
    by_cases none : tokens = []
    · obtain ⟨same, _⟩ := heeds.waits none
      cases ending : list.terminator with
      | sequential =>
        rw [ending] at success
        have later := ih rfl success
        simpa [none, Terminator.render, Sink.defer, Sink.dropPending, same] using later
      | asynchronous =>
        rw [ending] at success
        obtain ⟨rest, written⟩ := AndOr.growsTo_renderList success
        have marked : after.written = sink.written ++ "&" ++ rest := by
          simpa [Terminator.render, Sink.defer, Sink.dropPending, Sink.append, same] using written
        exact ⟨fun _ => ⟨rest, marked⟩, fun heard => absurd ⟨none, by simp⟩ heard⟩
    · obtain ⟨text, written⟩ := heeds.commits none
      have grows := (list.terminator.growsTo_render inside).trans (AndOr.growsTo_renderList success)
      obtain ⟨more, written'⟩ := grows
      refine ⟨fun swallow => absurd swallow.1 none, fun _ => .inr ⟨text ++ more, ?_⟩⟩
      rw [written', written, waiting]
      simp only [String.append_assoc]

/-! ## Complete lists are not hollow -/

theorem Command.tokens_ne_nil {command : Command} (complete : command.issues = []) : command.tokens ≠ [] := by
  cases command with
  | simple assignments words location =>
    obtain ⟨parts, _, fragments⟩ := Command.issues_simple_eq_nil.mp complete
    intro none
    simp only [tokens, List.append_eq_nil_iff, List.flatMap_eq_nil_iff] at none
    obtain ⟨noAssignments, noWords⟩ := none
    rcases words with _ | ⟨word, rest⟩
    · obtain ⟨assignment, others, rfl⟩ := List.exists_cons_of_ne_nil (parts rfl)
      exact List.cons_ne_nil _ _ (noAssignments assignment List.mem_cons_self)
    · exact fragments word List.mem_cons_self (noWords word List.mem_cons_self)
  | group body location => exact List.cons_ne_nil _ _
  | subshell body location => exact List.cons_ne_nil _ _

theorem AndOr.not_hollow {list : AndOr} (complete : list.issues = []) : ¬ list.Hollow := by
  obtain ⟨⟨negated, commands⟩, links, terminator⟩ := list
  simp only [AndOr.issues_eq_nil, Pipeline.issues_eq_nil] at complete
  obtain ⟨command, rest, rfl⟩ := List.exists_cons_of_ne_nil complete.1.1
  have shown := Command.tokens_ne_nil (complete.1.2 command List.mem_cons_self)
  simp [AndOr.hollow_mk, Pipeline.tokens, Command.tokensPiped, shown]

/-! ## Scripts -/

/-- Lists in a row are written part by part. -/
theorem AndOr.renderList_append (front back : List AndOr) (sink : Sink) :
    AndOr.renderList (front ++ back) sink = AndOr.renderList front sink >>= AndOr.renderList back := by
  induction front generalizing sink with
  | nil => rfl
  | cons list rest ih => simp only [List.cons_append, renderList, ih, bind_assoc]

/-- A sequential list leaves `; ` pending, whatever is in it. -/
theorem AndOr.pending_render {list : AndOr} {sink after : Sink} (sequential : list.terminator = .sequential)
    (success : list.render sink = .ok after) : after.pending = "; " := by
  obtain ⟨_, inside, _, _, rfl⟩ := AndOr.exists_heeds_render success
  rw [sequential]
  rfl

/-- A sequential list is followed by `; `, if anything is written behind it, exactly if the first of the
later lists that writes anything writes more than its `&`. Where there are fewer links and groups than
levels both texts exist, and in a complete script there is no list that writes its `&` alone. -/
theorem Script.terminator_written_iff {script : Script} {mode : LineMode} {index : Nat} {list : AndOr}
    (place : script[index]? = some list) (sequential : list.terminator = .sequential) :
    (∀ front whole, Script.render (script.take (index + 1)) { mode } = .ok front →
      script.render { mode } = .ok whole →
        ((whole.written ≠ front.written → ∃ rest, whole.written = front.written ++ "; " ++ rest) ↔
          ¬ AndOr.Swallow (script.drop (index + 1)))) ∧
      (script.breaks < mode.levelLimit → ∃ front whole,
        Script.render (script.take (index + 1)) { mode } = .ok front ∧ script.render { mode } = .ok whole) ∧
      (script.issues = [] → ¬ AndOr.Swallow (script.drop (index + 1))) := by
  have parts (sink : Sink) : script.render sink =
      Script.render (script.take (index + 1)) sink >>= AndOr.renderList (script.drop (index + 1)) := by
    change AndOr.renderList script sink = AndOr.renderList (script.take (index + 1)) sink >>= _
    rw [← AndOr.renderList_append, List.take_append_drop]
  refine ⟨?_, ?_, ?_⟩
  · intro front whole first success
    have waiting : front.pending = "; " := by
      rw [List.take_add_one, place, Script.render, AndOr.renderList_append] at first
      obtain ⟨_, _, last⟩ := bind_eq_ok.mp first
      obtain ⟨middle, ended, same⟩ := bind_eq_ok.mp last
      cases same
      exact AndOr.pending_render sequential ended
    rw [parts, first] at success
    obtain ⟨swallowed, kept⟩ := AndOr.written_renderList waiting success
    constructor
    · intro follows swallow
      obtain ⟨rest, written⟩ := swallowed swallow
      -- What begins with the mark of the later list does not begin with the terminator.
      have longer : whole.written ≠ front.written := by
        intro same
        have chars := congrArg String.toList (written.symm.trans same)
        simp at chars
      obtain ⟨rest', written'⟩ := follows longer
      have chars := congrArg String.toList (written.symm.trans written')
      simp at chars
    · intro heard longer
      exact (kept heard).resolve_left longer
  · intro room
    obtain ⟨whole, success, _⟩ := AndOr.deepens_list script { mode } (by simpa [Sink.depth, Script.breaks] using room)
    obtain ⟨front, first, _⟩ := bind_eq_ok.mp ((parts { mode }).symm.trans success)
    exact ⟨front, whole, first, success⟩
  · rintro complete ⟨silent, hollow, rest, later, _, empty, _⟩
    have member : hollow ∈ script := List.mem_of_mem_drop (by rw [later]; simp)
    exact AndOr.not_hollow (Script.issues_eq_nil.mp complete hollow member) empty

/-- Behind a sequential list that lacks everything, a negated pipeline brings the terminator. -/
theorem Script.terminator_written_negated :
    let word (text : String) : Command := .simple [] [.literal text] {}
    let script : Script := [.mk (.mk false [word "a"]) [] .sequential, .mk (.mk false []) [] .sequential,
      .mk (.mk true []) [] .asynchronous]
    ∃ front whole, Script.render (script.take 1) { mode := .multi } = .ok front ∧
      script.render { mode := .multi } = .ok whole ∧ front.written = "a" ∧ whole.written = "a; ! &" ∧
        ∃ rest, whole.written = front.written ++ "; " ++ rest := by
  intro word script
  have place : script[0]? = some (.mk (.mk false [word "a"]) [] .sequential) := rfl
  have first : Script.render (script.take 1) { mode := .multi } =
      .ok { mode := .multi, written := "a", pending := "; " } := by cbv
  have success : script.render { mode := .multi } =
      .ok { mode := .multi, written := "a; ! &", pending := " " } := by cbv
  have heard : ¬ AndOr.Swallow (script.drop 1) := by decide
  have longer : "a; ! &" ≠ "a" := by decide
  refine ⟨_, _, first, success, rfl, rfl, ?_⟩
  exact ((Script.terminator_written_iff place rfl).1 _ _ first success).mpr heard longer

/-- The `&` of a list without commands stands where the `;` of the list in front of it should be. -/
theorem Script.terminator_swallowed :
    let script : Script := [.mk (.mk false [.simple [] [.literal "a"] {}]) [] .sequential,
      .mk (.mk false []) [] .asynchronous]
    ∃ front whole, Script.render (script.take 1) { mode := .single } = .ok front ∧
      script.render { mode := .single } = .ok whole ∧ whole.written ≠ front.written ∧
        ¬ ∃ rest, whole.written = front.written ++ "; " ++ rest := by
  intro script
  have first : Script.render (script.take 1) { mode := .single } =
      .ok { mode := .single, written := "a", pending := "; " } := by cbv
  have success : script.render { mode := .single } =
      .ok { mode := .single, written := "a&", pending := " " } := by cbv
  refine ⟨_, _, first, success, by decide, ?_⟩
  rintro ⟨rest, written⟩
  have chars := congrArg String.toList written
  simp at chars

end ShellTree
