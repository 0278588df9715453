import ShellTree.Proofs.Levels
import ShellTree.Tree.Tokens
import ShellTree.Tree.Words

/-!
# What a text is made of

Whatever a writer gives up, leaves pending or takes from the layout consists of separators. So the text
of a tree without its separators is made of the tokens of the tree, in their order, and of nothing else.
Nothing is asked of the tree, which may lack content.
-/

namespace ShellTree

theorem stripped_spaces (count : Nat) : stripped (spaces count) = "" := by
  simp [stripped, separators]

theorem stripped_space : stripped " " = "" := by decide

theorem stripped_newline : stripped "\n" = "" := by decide

theorem stripped_semicolon : stripped ";" = "" := by decide

namespace Sink

/-- Nothing but separators waits in a sink, so giving it up loses nothing. -/
def Idle (sink : Sink) : Prop := stripped sink.pending = "" ∧ stripped sink.queued = ""

/-- On an idle sink, what comes behind the text of `sink` up to `after` are the given tokens and
separators, and it is idle again. -/
def Gains (tokens : List String) (sink after : Sink) : Prop :=
  sink.Idle → after.Idle ∧ stripped after.written = stripped sink.written ++ stripped (String.join tokens)

namespace Gains

variable {tokens more : List String} {sink middle after : Sink} {text : String}

theorem refl (sink : Sink) : Gains [] sink sink := by
  intro idle
  exact ⟨idle, (String.append_empty).symm⟩

theorem trans (first : Gains tokens sink middle) (second : Gains more middle after) :
    Gains (tokens ++ more) sink after := by
  intro idle
  obtain ⟨idle, written⟩ := first idle
  obtain ⟨idle, written'⟩ := second idle
  refine ⟨idle, ?_⟩
  rw [written', written, String.join_append, stripped_append, String.append_assoc]

theorem append (same : stripped text = stripped (String.join tokens)) : Gains tokens sink (sink.append text) := by
  rintro ⟨pending, queued⟩
  refine ⟨⟨rfl, queued⟩, ?_⟩
  simp only [Sink.append, stripped_append, pending, same, String.append_empty]

/-- A token is written by itself. -/
theorem token (text : String) : Gains [text] sink (sink.append text) := by
  apply append
  rw [String.join_cons, String.join_nil, String.append_empty]

/-- A token is written with a space behind it. -/
theorem spacedToken (text : String) : Gains [text] sink (sink.append (text ++ " ")) := by
  apply append
  rw [stripped_append, stripped_space, String.join_cons, String.join_nil, String.append_empty, String.append_empty]

theorem defer (blank : stripped text = "") : Gains [] sink (sink.defer text) := by
  rintro ⟨pending, queued⟩
  refine ⟨⟨?_, queued⟩, (String.append_empty).symm⟩
  simp only [Sink.defer, stripped_append, pending, blank, String.append_empty]

theorem dropPending : Gains [] sink sink.dropPending := by
  rintro ⟨_, queued⟩
  exact ⟨⟨rfl, queued⟩, (String.append_empty).symm⟩

theorem atLevel (level : Nat) : Gains [] sink (sink.atLevel level) := by
  intro idle
  exact ⟨idle, (String.append_empty).symm⟩

/-- A new line gives up separators alone, and writes none of the tokens. -/
theorem onNewLine (level : Nat) : Gains [] sink (sink.onNewLine level) := by
  rintro ⟨_, queued⟩
  unfold Sink.onNewLine
  cases sink.mode with
  | single =>
    refine ⟨⟨stripped_space, rfl⟩, ?_⟩
    simp only [LineMode.lineBreak, LineMode.margin, String.append_empty]
    exact (String.append_empty).symm
  | multi =>
    refine ⟨⟨rfl, rfl⟩, ?_⟩
    simp only [LineMode.lineBreak, LineMode.margin, stripped_append, stripped_newline, stripped_spaces, queued,
      String.append_empty]
    exact (String.append_empty).symm

theorem onClosingLine (sink inside : Sink) : Gains [] inside (sink.onClosingLine inside) := by
  unfold Sink.onClosingLine
  split
  · exact .refl inside
  · exact onNewLine sink.lineLevel

end Gains

end Sink

/-- A writer that adds the given tokens to a text, and otherwise separators. -/
def Writes (tokens : List String) (write : Sink → Except Overflow Sink) : Prop :=
  ∀ sink after, write sink = .ok after → sink.Gains tokens after

namespace Writes

variable {tokens more : List String} {write next : Sink → Except Overflow Sink} {step : Sink → Sink}

theorem of_gains (gains : ∀ sink : Sink, sink.Gains tokens (step sink)) :
    Writes tokens fun sink => .ok (step sink) := by
  intro sink after success
  cases success
  exact gains sink

theorem bind (first : Writes tokens write) (second : Writes more next) :
    Writes (tokens ++ more) fun sink => write sink >>= next := by
  intro sink after success
  obtain ⟨middle, ran, ended⟩ := bind_eq_ok.mp success
  exact (first sink middle ran).trans (second middle after ended)

theorem group (body : Writes tokens write) : Writes ("\x7b" :: (tokens ++ ["\x7d"])) (renderGroup write) := by
  intro sink after success
  obtain ⟨opened, inside, opens, written, closes⟩ := renderGroup_eq_ok.mp success
  obtain ⟨_, rfl⟩ := Sink.openGroup_eq_ok.mp opens
  obtain ⟨_, rfl⟩ := Sink.closeGroup_eq_ok.mp closes
  have brace : sink.Gains ["\x7b"] ((sink.append "\x7b").onNewLine (sink.lineLevel + 1)) :=
    (Sink.Gains.token "\x7b").trans (.onNewLine _)
  have line : inside.Gains [] ((sink.onClosingLine inside).atLevel sink.level) :=
    (Sink.Gains.onClosingLine sink inside).trans (.atLevel sink.level)
  have closing := line.trans ((Sink.Gains.token "\x7d").trans (.defer stripped_space))
  exact brace.trans ((body _ inside written).trans closing)

theorem subshell (body : Writes tokens write) : Writes ("(" :: (tokens ++ [")"])) (renderSubshell write) := by
  intro sink after success
  obtain ⟨inside, written, rfl⟩ := renderSubshell_eq_ok.mp success
  have closing : inside.Gains [")"] ((inside.dropPending.append ")").defer " ") :=
    Sink.Gains.dropPending.trans ((Sink.Gains.token ")").trans (.defer stripped_space))
  exact (Sink.Gains.token "(").trans ((body _ inside written).trans closing)

theorem link {connective : Connective} (pipeline : Writes tokens write) :
    Writes (connective.operator :: tokens) (renderLink connective write) := by
  intro sink after success
  obtain ⟨opened, inside, opens, written, rfl⟩ := renderLink_eq_ok.mp success
  obtain ⟨_, rfl⟩ := Sink.openLink_eq_ok.mp opens
  have line : sink.Gains [connective.operator] ((sink.append connective.operator).onNewLine sink.level) :=
    (Sink.Gains.token connective.operator).trans (.onNewLine sink.level)
  have opening := line.trans (Sink.Gains.atLevel (sink.level + 1))
  have closing := (pipeline _ inside written).trans (Sink.Gains.atLevel sink.level)
  rw [List.append_nil] at closing
  exact opening.trans closing

end Writes

theorem Word.gains_render (word : Word) (sink : Sink) : sink.Gains word.fragments (word.render sink) := by
  rw [Word.render_eq]
  split
  · next none =>
    rw [none]
    exact .refl sink
  · exact .append rfl

theorem Assignment.gains_render (assignment : Assignment) (sink : Sink) :
    sink.Gains assignment.tokens (assignment.render sink) := by
  exact (Sink.Gains.token assignment.name).trans ((Sink.Gains.token "=").trans (assignment.value.gains_render _))

/-- Items that are each followed by a space add their tokens in a row. -/
theorem gains_renderSpaced {α : Type} {render : α → Sink → Sink} {tokens : α → List String}
    (gains : ∀ item sink, Sink.Gains (tokens item) sink (render item sink)) (items : List α) (sink : Sink) :
    sink.Gains (items.flatMap tokens) (renderSpaced render items sink) := by
  unfold renderSpaced
  induction items generalizing sink with
  | nil => exact .refl sink
  | cons item rest ih =>
    have spaced := (gains item sink).trans (Sink.Gains.defer stripped_space)
    rw [List.append_nil] at spaced
    exact spaced.trans (ih _)

theorem Terminator.gains_render (terminator : Terminator) (sink : Sink) :
    sink.Gains terminator.tokens (terminator.render sink) := by
  cases terminator with
  | sequential =>
    exact Sink.Gains.dropPending.trans ((Sink.Gains.defer stripped_semicolon).trans (.defer stripped_space))
  | asynchronous => exact Sink.Gains.dropPending.trans ((Sink.Gains.token "&").trans (.defer stripped_space))

mutual

theorem Command.writes : ∀ command : Command, Writes command.tokens command.render
  | .simple assignments words _ => by
    apply Writes.of_gains
    intro sink
    exact (gains_renderSpaced Assignment.gains_render assignments sink).trans
      (gains_renderSpaced Word.gains_render words _)
  | .group body _ => (AndOr.writes_list body).group
  | .subshell body _ => (AndOr.writes_list body).subshell

theorem Pipeline.writes : ∀ pipeline : Pipeline, Writes pipeline.tokens pipeline.render
  | .mk negated commands => by
    intro sink after success
    have opening : sink.Gains (if negated then ["!"] else []) (if negated then sink.append "! " else sink) := by
      cases negated with
      | false => exact .refl sink
      | true => exact Sink.Gains.spacedToken "!"
    exact opening.trans (Command.writes_piped commands _ after success)

theorem Command.writes_piped : ∀ commands : List Command,
    Writes (Command.tokensPiped commands) (Command.renderPiped commands)
  | [] => Writes.of_gains Sink.Gains.refl
  | command :: rest => command.writes.bind (Command.writes_tail rest)

theorem Command.writes_tail : ∀ commands : List Command,
    Writes (Command.tokensTail commands) (Command.renderTail commands)
  | [] => Writes.of_gains Sink.Gains.refl
  | command :: rest => by
    intro sink after success
    have written := (command.writes.bind (Command.writes_tail rest)) _ after success
    exact (Sink.Gains.spacedToken "|").trans written

theorem Link.writes : ∀ link : Link, Writes link.tokens link.render
  | .mk _ pipeline => pipeline.writes.link

theorem Link.writes_list : ∀ links : List Link, Writes (Link.tokensOf links) (Link.renderList links)
  | [] => Writes.of_gains Sink.Gains.refl
  | link :: rest => link.writes.bind (Link.writes_list rest)

theorem AndOr.writes : ∀ list : AndOr, Writes list.tokens list.render
  | .mk first links terminator => by
    intro sink after success
    obtain ⟨started, chained, starts, chains, rfl⟩ := AndOr.render_eq_ok.mp success
    have pipelines := (first.writes sink started starts).trans (Link.writes_list links started chained chains)
    exact pipelines.trans (terminator.gains_render chained)

theorem AndOr.writes_list : ∀ lists : List AndOr, Writes (AndOr.tokensOf lists) (AndOr.renderList lists)
  | [] => Writes.of_gains Sink.Gains.refl
  | list :: rest => list.writes.bind (AndOr.writes_list rest)

end

/-! ## Tokens without separators -/

/-- A simple command whose names and fragments hold no separators. -/
def Unseparated (simple : Simple) : Prop :=
  (∀ word ∈ simple.words, ∀ fragment ∈ word.fragments, Avoids separators fragment) ∧
    ∀ assignment ∈ simple.assignments, Avoids separators assignment.name ∧
      ∀ fragment ∈ assignment.value.fragments, Avoids separators fragment

theorem avoids_enclosed {opening closing : String} {tokens : List String} (opens : Avoids separators opening)
    (closes : Avoids separators closing) (inside : ∀ token ∈ tokens, Avoids separators token) :
    ∀ token ∈ opening :: (tokens ++ [closing]), Avoids separators token := by
  rw [List.forall_mem_cons, List.forall_mem_append, List.forall_mem_singleton]
  exact ⟨opens, inside, closes⟩

mutual

/-- No token holds a separator where no name and no fragment does: the tokens of the tree itself have
none. -/
theorem Command.avoids_tokens : ∀ {command : Command}, (∀ simple ∈ command.simples, Unseparated simple) →
    ∀ token ∈ command.tokens, Avoids separators token
  | .simple assignments words _, unseparated => by
    obtain ⟨inWords, inAssignments⟩ := unseparated _ (List.mem_singleton_self _)
    intro token member
    simp only [Command.tokens, List.mem_append, List.mem_flatMap] at member
    rcases member with ⟨assignment, among, member⟩ | ⟨word, among, member⟩
    · obtain ⟨name, value⟩ := inAssignments assignment among
      simp only [Assignment.tokens, List.mem_cons] at member
      rcases member with rfl | rfl | member
      · exact name
      · decide
      · exact value token member
    · exact inWords word among token member
  | .group body _, unseparated => avoids_enclosed (by decide) (by decide) (AndOr.avoids_tokensOf unseparated)
  | .subshell body _, unseparated => avoids_enclosed (by decide) (by decide) (AndOr.avoids_tokensOf unseparated)

theorem Pipeline.avoids_tokens : ∀ {pipeline : Pipeline}, (∀ simple ∈ pipeline.simples, Unseparated simple) →
    ∀ token ∈ pipeline.tokens, Avoids separators token
  | .mk negated [], _ => by
    cases negated <;> decide
  | .mk negated (command :: rest), unseparated => by
    simp only [Pipeline.simples, Command.simplesOf, List.forall_mem_append] at unseparated
    have negation : ∀ token ∈ (if negated then ["!"] else []), Avoids separators token := by
      cases negated <;> decide
    simp only [Pipeline.tokens, Command.tokensPiped, List.forall_mem_append]
    exact ⟨negation, Command.avoids_tokens unseparated.1, Command.avoids_tokensTail unseparated.2⟩

theorem Command.avoids_tokensTail : ∀ {commands : List Command},
    (∀ simple ∈ Command.simplesOf commands, Unseparated simple) →
    ∀ token ∈ Command.tokensTail commands, Avoids separators token
  | [], _ => nofun
  | command :: rest, unseparated => by
    simp only [Command.simplesOf, List.forall_mem_append] at unseparated
    have pipe : Avoids separators "|" := by decide
    simp only [Command.tokensTail, List.forall_mem_cons, List.forall_mem_append]
    exact ⟨pipe, Command.avoids_tokens unseparated.1, Command.avoids_tokensTail unseparated.2⟩

theorem Link.avoids_tokensOf : ∀ {links : List Link}, (∀ simple ∈ Link.simplesOf links, Unseparated simple) →
    ∀ token ∈ Link.tokensOf links, Avoids separators token
  | [], _ => nofun
  | .mk connective pipeline :: rest, unseparated => by
    simp only [Link.simplesOf, Link.simples, List.forall_mem_append] at unseparated
    have operator : Avoids separators connective.operator := by cases connective <;> decide
    simp only [Link.tokensOf, Link.tokens, List.forall_mem_cons, List.forall_mem_append]
    exact ⟨⟨operator, Pipeline.avoids_tokens unseparated.1⟩, Link.avoids_tokensOf unseparated.2⟩

theorem AndOr.avoids_tokensOf : ∀ {lists : List AndOr}, (∀ simple ∈ AndOr.simplesOf lists, Unseparated simple) →
    ∀ token ∈ AndOr.tokensOf lists, Avoids separators token
  | [], _ => nofun
  | .mk first links terminator :: rest, unseparated => by
    simp only [AndOr.simplesOf, AndOr.simples, List.forall_mem_append] at unseparated
    have ending : ∀ token ∈ terminator.tokens, Avoids separators token := by cases terminator <;> decide
    simp only [AndOr.tokensOf, AndOr.tokens, List.forall_mem_append]
    exact ⟨⟨⟨Pipeline.avoids_tokens unseparated.1.1, Link.avoids_tokensOf unseparated.1.2⟩, ending⟩,
      AndOr.avoids_tokensOf unseparated.2⟩

end

/-- Texts without separators are not changed by stripping what they make up. -/
theorem stripped_join {tokens : List String} (avoid : ∀ token ∈ tokens, Avoids separators token) :
    stripped (String.join tokens) = String.join tokens := by
  have kept : ∀ c ∈ (String.join tokens).toList, c ∉ separators := by
    intro c member
    rw [String.toList_join, List.mem_flatMap] at member
    obtain ⟨token, among, inside⟩ := member
    exact avoid token among c inside
  have same : (String.join tokens).toList.filter (fun c => !separators.contains c) = (String.join tokens).toList := by
    rw [List.filter_eq_self]
    intro c member
    simpa using kept c member
  rw [stripped, same, String.ofList_toList]

/-- Whatever a script is written as, without its separators it reads as the tokens of the script. -/
theorem Script.stripped_of_source {script : Script} {mode : LineMode} {text : String}
    (success : script.source mode = .ok text) : stripped text = stripped (String.join script.tokens) := by
  obtain ⟨after, written, same⟩ := bind_eq_ok.mp success
  cases same
  obtain ⟨_, gained⟩ := AndOr.writes_list script _ after written ⟨rfl, rfl⟩
  rw [gained]
  exact String.empty_append

/-- No content is lost, added or moved, in either mode and whatever a script lacks: where no name and no
fragment holds a separator, its text without separators is the tokens of the script in a row, and so
it is the same in both modes. There is a text if the script has fewer links and groups than there are
levels. -/
theorem Script.stripped_source_eq_tokens {script : Script}
    (words : ∀ word ∈ script.words, ∀ fragment ∈ word.fragments, Avoids separators fragment)
    (assignments : ∀ assignment ∈ script.assignments, Avoids separators assignment.name ∧
      ∀ fragment ∈ assignment.value.fragments, Avoids separators fragment) :
    (∀ mode text, script.source mode = .ok text → stripped text = String.join script.tokens) ∧
      (∀ mode, script.breaks < mode.levelLimit →
        ∃ text, script.source mode = .ok text ∧ stripped text = String.join script.tokens) ∧
      ∀ single multi, script.source .single = .ok single → script.source .multi = .ok multi →
        stripped single = stripped multi := by
  have unseparated : ∀ simple ∈ AndOr.simplesOf script, Unseparated simple := by
    intro simple member
    constructor
    · exact fun word among => words word (List.mem_flatMap.mpr ⟨simple, member, among⟩)
    · exact fun assignment among => assignments assignment (List.mem_flatMap.mpr ⟨simple, member, among⟩)
  have tokens : stripped (String.join script.tokens) = String.join script.tokens :=
    stripped_join (AndOr.avoids_tokensOf unseparated)
  refine ⟨?_, ?_, ?_⟩
  · intro mode text success
    rw [stripped_of_source success, tokens]
  · intro mode room
    obtain ⟨text, success⟩ := exists_source room
    exact ⟨text, success, by rw [stripped_of_source success, tokens]⟩
  · intro single multi success success'
    rw [stripped_of_source success, stripped_of_source success']

/-- A script that lacks much: a negated pipeline without commands, a command without words, a word
without fragments, and empty bodies. -/
theorem Script.stripped_source_incomplete :
    let lacking : Command := .simple [⟨"x", ⟨["1", "2"]⟩⟩] [⟨[]⟩, ⟨["", "a"]⟩] {}
    let script : Script := [.mk (.mk true []) [.mk .orElse (.mk false [.simple [] [] {}, .group [] {}])] .asynchronous,
      .mk (.mk false [.subshell [] {}, lacking]) [.mk .andThen .empty] .sequential]
    script.source .multi = .ok "! ||\n| \x7b\n    \n\x7d& () | x=12  a &&\n" ∧
      stripped "! ||\n| \x7b\n    \n\x7d& () | x=12  a &&\n" = String.join script.tokens := by
  intro lacking script
  have written : script.source .multi = .ok "! ||\n| \x7b\n    \n\x7d& () | x=12  a &&\n" := by cbv
  exact ⟨written, (Script.stripped_source_eq_tokens (by decide) (by decide)).1 .multi _ written⟩

end ShellTree
