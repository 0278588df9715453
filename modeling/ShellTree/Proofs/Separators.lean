import ShellTree.Layout.Tidy
import ShellTree.Proofs.ManyLines
import ShellTree.Proofs.OneLine
import ShellTree.Proofs.SimpleText

/-!
# Separators between what they separate

Both layouts of a complete tree are tidy, if the texts that it takes from outside have no separators and
none of its words is invisible: every space, line break and `;` stands between two texts that are there
to be seen. The text of a node is tidy by itself; what goes on behind another node, such as the rest of
a pipeline, is tidy behind any tidy text.
-/

namespace ShellTree

/-- Texts that are tidy stay so with a space between any two. -/
theorem tidy_intercalate {mode : LineMode} {texts : List String} (nonempty : texts ≠ [])
    (shown : ∀ text ∈ texts, text ≠ "" ∧ Avoids separators text) : Tidy mode (" ".intercalate texts).toList := by
  induction texts with
  | nil => contradiction
  | cons text rest ih =>
    rw [List.forall_mem_cons] at shown
    obtain ⟨visible, avoids⟩ := shown.1
    have first : Tidy mode text.toList := .of_shown (mt String.toList_eq_nil_iff.mp visible) avoids
    cases rest with
    | nil => simpa using first
    | cons next rest =>
      have others := ih (List.cons_ne_nil next rest) shown.2
      simpa using first.append_space others

theorem tidy_simpleText {mode : LineMode} {assignments : List Assignment} {words : List Word} {location : Location}
    (meets : (Command.simple assignments words location).Meets (Shows separators)) :
    Tidy mode (simpleText assignments words).toList := by
  obtain ⟨complete, shows⟩ := Command.meets_simple.mp meets
  exact tidy_intercalate (Command.texts_ne_nil complete) (texts_of_shows (by decide) shows)

/-- Between two lists stand the mark of the first one and a space. -/
theorem Terminator.tidy_mark {mode : LineMode} (terminator : Terminator) {front rest : List Char}
    (before : Tidy mode front) (behind : Tidy mode rest) :
    Tidy mode (front ++ (terminator.mark.toList ++ ' ' :: rest)) := by
  apply before.append_tidy
  cases terminator with
  | sequential => exact .space (by decide) behind
  | asynchronous => exact .space (by decide) behind

theorem Terminator.tidy_endMark {mode : LineMode} (terminator : Terminator) {front : List Char}
    (before : Tidy mode front) : Tidy mode (front ++ terminator.endMark.toList) := by
  cases terminator with
  | sequential => simpa [Terminator.endMark] using before
  | asynchronous => exact before.append_tidy (.last (by decide))

theorem Connective.tidy_operator {mode : LineMode} (connective : Connective) :
    Tidy mode connective.operator.toList := by
  cases connective <;> exact .char (by decide) (.last (by decide))

/-! ## On several lines -/

mutual

/-- The broken text of a command is tidy. The induction is on the tree; the levels only matter for how
far lines are indented, and every line is indented by a level. -/
theorem Command.tidy_broken : ∀ {command : Command}, command.Meets (Shows separators) →
    ∀ level line : Nat, Tidy .multi (command.broken level line).text.toList
  | .simple assignments words location, meets, level, line => tidy_simpleText meets
  | .group body location, meets, level, line => by
    obtain ⟨nonempty, meets⟩ := Command.meets_group.mp meets
    have inside := AndOr.tidy_brokenList nonempty meets (line + 1) (line + 1)
    have closed : Tidy .multi ((AndOr.brokenList (line + 1) body (line + 1)).text.toList ++
        '\n' :: (List.replicate (indentWidth * line) ' ' ++ ['\x7d'])) :=
      inside.append_newline line (.last (by decide))
    have whole : Tidy .multi ('\x7b' :: '\n' :: (List.replicate (indentWidth * (line + 1)) ' ' ++ _)) :=
      .newline (by decide) (line + 1) closed
    simpa [Command.broken, Laid.andThen, Laid.inline, Laid.newline, Laid.close] using whole
  | .subshell body location, meets, level, line => by
    obtain ⟨nonempty, meets⟩ := Command.meets_subshell.mp meets
    have inside := AndOr.tidy_brokenList nonempty meets level line
    have whole : Tidy .multi ('(' :: ((AndOr.brokenList level body line).text.toList ++ [')'])) :=
      .char (by decide) (inside.append_tidy (.last (by decide)))
    simpa [Command.broken, Laid.close] using whole

theorem Pipeline.tidy_broken : ∀ {pipeline : Pipeline}, pipeline.Meets (Shows separators) →
    ∀ level line : Nat, Tidy .multi (pipeline.broken level line).text.toList
  | .mk negated [], meets, _, _ => by simp at meets
  | .mk negated (command :: rest), meets, level, line => by
    obtain ⟨_, meets⟩ := Pipeline.meets_mk.mp meets
    rw [List.forall_mem_cons] at meets
    have piped := Command.tidy_brokenTail meets.2 level (command.broken level line).line
      (Command.tidy_broken meets.1 level line)
    cases negated with
    | false => simpa [Pipeline.broken, negationText, Command.brokenPiped, Laid.andThen, Laid.inline] using piped
    | true =>
      have whole : Tidy .multi ('!' :: ' ' :: _) := .space (by decide) piped
      simpa [Pipeline.broken, negationText, Command.brokenPiped, Laid.andThen, Laid.inline] using whole

/-- Behind any tidy text, the rest of a pipeline is tidy. -/
theorem Command.tidy_brokenTail : ∀ {commands : List Command},
    (∀ command ∈ commands, command.Meets (Shows separators)) → ∀ (level line : Nat) {front : List Char},
    Tidy .multi front → Tidy .multi (front ++ (Command.brokenTail level commands line).text.toList)
  | [], _, level, line, front, tidy => by simpa [Command.brokenTail, Laid.inline] using tidy
  | command :: rest, meets, level, line, front, tidy => by
    rw [List.forall_mem_cons] at meets
    have piped := Command.tidy_brokenTail meets.2 level (command.broken level line).line
      (Command.tidy_broken meets.1 level line)
    have whole : Tidy .multi (front ++ ' ' :: '|' :: ' ' :: _) := tidy.append_space (.space (by decide) piped)
    simpa [Command.brokenTail, Laid.andThen, Laid.inline] using whole

theorem Link.tidy_brokenList : ∀ {links : List Link}, (∀ link ∈ links, link.Meets (Shows separators)) →
    ∀ (level line : Nat) {front : List Char},
    Tidy .multi front → Tidy .multi (front ++ (Link.brokenList level links line).text.toList)
  | [], _, level, line, front, tidy => by simpa [Link.brokenList, Laid.inline] using tidy
  | .mk connective pipeline :: rest, meets, level, line, front, tidy => by
    simp only [List.forall_mem_cons, Link.meets_mk] at meets
    have linked := Link.tidy_brokenList meets.2 level (pipeline.broken (level + 1) level).line
      (Pipeline.tidy_broken meets.1 (level + 1) level)
    have whole : Tidy .multi (front ++ ' ' :: _) :=
      tidy.append_space (connective.tidy_operator.append_newline level linked)
    simpa [Link.brokenList, Link.broken, Laid.andThen, Laid.inline, Laid.newline] using whole

theorem AndOr.tidy_broken : ∀ {list : AndOr}, list.Meets (Shows separators) →
    ∀ level line : Nat, Tidy .multi (list.broken level line).text.toList
  | .mk first links terminator, meets, level, line => by
    rw [AndOr.meets_mk] at meets
    have linked := Link.tidy_brokenList meets.2 level (first.broken level line).line
      (Pipeline.tidy_broken meets.1 level line)
    simpa [AndOr.broken, Laid.andThen] using linked

theorem AndOr.tidy_brokenList : ∀ {lists : List AndOr}, lists ≠ [] →
    (∀ list ∈ lists, list.Meets (Shows separators)) →
    ∀ level line : Nat, Tidy .multi (AndOr.brokenList level lists line).text.toList
  | [], nonempty, _, _, _ => absurd rfl nonempty
  | [list], _, meets, level, line => by
    have ended := list.terminator.tidy_endMark (AndOr.tidy_broken (meets list List.mem_cons_self) level line)
    simpa [AndOr.brokenList, Laid.close] using ended
  | list :: next :: rest, _, meets, level, line => by
    rw [List.forall_mem_cons] at meets
    have others := AndOr.tidy_brokenList (List.cons_ne_nil next rest) meets.2 level (list.broken level line).line
    have whole := list.terminator.tidy_mark (AndOr.tidy_broken meets.1 level line) others
    simpa [AndOr.brokenList, Laid.andThen, Laid.close] using whole

end

/-! ## On one line -/

mutual

/-- The flat text of a command is tidy. -/
theorem Command.tidy_flat : ∀ {command : Command}, command.Meets (Shows separators) →
    Tidy .single command.flat.toList
  | .simple assignments words location, meets => tidy_simpleText meets
  | .group body location, meets => by
    obtain ⟨nonempty, meets⟩ := Command.meets_group.mp meets
    have brace : Tidy .single ['\x7d'] := .last (by decide)
    have inside := AndOr.tidy_flatList nonempty meets fun terminator _ tidy => terminator.tidy_mark tidy brace
    rw [Command.toList_flat_group]
    exact .space (by decide) inside
  | .subshell body location, meets => by
    obtain ⟨nonempty, meets⟩ := Command.meets_subshell.mp meets
    have closes (terminator : Terminator) (front : List Char) (tidy : Tidy .single front) :
        Tidy .single (front ++ (terminator.endMark.toList ++ [')'])) := by
      rw [← List.append_assoc]
      exact (terminator.tidy_endMark tidy).append_tidy (.last (by decide))
    rw [Command.toList_flat_subshell]
    exact .char (by decide) (AndOr.tidy_flatList nonempty meets closes)

theorem Pipeline.tidy_flat : ∀ {pipeline : Pipeline}, pipeline.Meets (Shows separators) →
    Tidy .single pipeline.flat.toList
  | .mk negated [], meets => by simp at meets
  | .mk negated (command :: rest), meets => by
    obtain ⟨_, meets⟩ := Pipeline.meets_mk.mp meets
    rw [List.forall_mem_cons] at meets
    have piped := Command.tidy_flatTail meets.2 (Command.tidy_flat meets.1)
    cases negated with
    | false => simpa [Pipeline.flat, negationText, Command.flatPiped] using piped
    | true =>
      have whole : Tidy .single ('!' :: ' ' :: _) := .space (by decide) piped
      simpa [Pipeline.flat, negationText, Command.flatPiped] using whole

theorem Command.tidy_flatTail : ∀ {commands : List Command},
    (∀ command ∈ commands, command.Meets (Shows separators)) → ∀ {front : List Char},
    Tidy .single front → Tidy .single (front ++ (Command.flatTail commands).toList)
  | [], _, front, tidy => by simpa [Command.flatTail] using tidy
  | command :: rest, meets, front, tidy => by
    rw [List.forall_mem_cons] at meets
    have piped := Command.tidy_flatTail meets.2 (Command.tidy_flat meets.1)
    have whole : Tidy .single (front ++ ' ' :: '|' :: ' ' :: _) := tidy.append_space (.space (by decide) piped)
    simpa [Command.flatTail] using whole

theorem Link.tidy_flatList : ∀ {links : List Link}, (∀ link ∈ links, link.Meets (Shows separators)) →
    ∀ {front : List Char}, Tidy .single front → Tidy .single (front ++ (Link.flatList links).toList)
  | [], _, front, tidy => by simpa [Link.flatList] using tidy
  | .mk connective pipeline :: rest, meets, front, tidy => by
    simp only [List.forall_mem_cons, Link.meets_mk] at meets
    have linked := Link.tidy_flatList meets.2 (Pipeline.tidy_flat meets.1)
    have whole : Tidy .single (front ++ ' ' :: _) :=
      tidy.append_space (connective.tidy_operator.append_space linked)
    simpa [Link.flatList, Link.flat] using whole

theorem AndOr.tidy_flat : ∀ {list : AndOr}, list.Meets (Shows separators) → Tidy .single list.flat.toList
  | .mk first links terminator, meets => by
    rw [AndOr.meets_mk] at meets
    simpa [AndOr.flat] using Link.tidy_flatList meets.2 (Pipeline.tidy_flat meets.1)

/-- Lists are tidy in front of `rest` if the way in which the last one is ended is. -/
theorem AndOr.tidy_flatList : ∀ {lists : List AndOr}, lists ≠ [] →
    (∀ list ∈ lists, list.Meets (Shows separators)) → ∀ {last : Terminator → String} {rest : List Char},
    (∀ terminator front, Tidy .single front → Tidy .single (front ++ ((last terminator).toList ++ rest))) →
    Tidy .single ((AndOr.flatList last lists).toList ++ rest)
  | [], nonempty, _, _, _, _ => absurd rfl nonempty
  | [list], _, meets, last, rest, closes => by
    have ended := closes list.terminator _ (AndOr.tidy_flat (meets list List.mem_cons_self))
    simpa [AndOr.flatList] using ended
  | list :: next :: others, _, meets, last, rest, closes => by
    rw [List.forall_mem_cons] at meets
    have later := AndOr.tidy_flatList (List.cons_ne_nil next others) meets.2 closes
    have whole := list.terminator.tidy_mark (AndOr.tidy_flat meets.1) later
    simpa [AndOr.flatList] using whole

end

/-- What is written of a complete script that is not empty is tidy. -/
theorem Script.tidy_of_source {script : Script} {mode : LineMode} {text : String} (nonempty : script ≠ [])
    (complete : script.issues = []) (meets : ∀ list ∈ script, list.Meets (Shows separators))
    (success : script.source mode = .ok text) : Tidy mode text.toList := by
  cases mode with
  | single =>
    have closes (terminator : Terminator) (front : List Char) (tidy : Tidy .single front) :
        Tidy .single (front ++ (terminator.endMark.toList ++ [])) := by
      rw [List.append_nil]
      exact terminator.tidy_endMark tidy
    rw [eq_flat_of_source complete success, Script.flat, ← List.append_nil (String.toList _)]
    exact AndOr.tidy_flatList nonempty meets closes
  | multi =>
    rw [eq_broken_of_source complete success]
    exact AndOr.tidy_brokenList nonempty meets 0 0

/-- No separator is stray. In either mode, every line of the text of a complete script that is not empty
is indented by whole levels, has something visible on it, has no two spaces in a row behind its
indentation, and ends neither with a space nor with `;`; on a single line there is no line break, and no
space in front. There is a text if the script has fewer links and groups than there are levels. -/
theorem Script.source_tidy {script : Script} (nonempty : script ≠ []) (complete : script.issues = [])
    (words : ∀ word ∈ script.words, word.text ≠ "" ∧ Avoids separators word.text)
    (assignments : ∀ assignment ∈ script.assignments,
      Avoids separators assignment.name ∧ Avoids separators assignment.value.text) :
    (∀ mode text, script.source mode = .ok text →
      (∀ line ∈ linesOf text.toList, TidyLine line) ∧
        (mode = .single → '\n' ∉ text.toList ∧ text.toList.head? ≠ some ' ')) ∧
      ∀ mode, script.breaks < mode.levelLimit → ∃ text, script.source mode = .ok text := by
  have meets : ∀ list ∈ script, list.Meets (Shows separators) := meets_of_forall complete words assignments
  refine ⟨?_, fun mode => exists_source⟩
  intro mode text success
  have tidy := tidy_of_source nonempty complete meets success
  refine ⟨tidy.tidyLines, ?_⟩
  rintro rfl
  obtain ⟨c, rest, chars, visible, _⟩ := tidy.exists_cons
  refine ⟨tidy.not_mem_newline, ?_⟩
  rw [chars]
  simpa using visible

/-- Groups, a subshell, a negation, links and both terminators, in both modes. -/
theorem Script.source_tidy_nested :
    let word (text : String) : Command := .simple [⟨"x", {}⟩] [.literal text] {}
    let waiting : Command := .group [.mk (.mk false [word "b", word "c"]) [] .asynchronous] {}
    let inside : Command := .subshell [.mk (.mk true [waiting]) [.mk .orElse (.mk false [word "d"])] .sequential] {}
    let script : Script := [.mk (.mk false [word "a"]) [] .sequential,
      .mk (.mk false [word "e"]) [.mk .andThen (.mk false [inside])] .asynchronous]
    script.issues = [] ∧ ∀ mode, ∃ text, script.source mode = .ok text ∧
      (∀ line ∈ linesOf text.toList, TidyLine line) ∧
        (mode = .single → '\n' ∉ text.toList ∧ text.toList.head? ≠ some ' ') := by
  intro word waiting inside script
  have complete : script.issues = [] := by decide
  refine ⟨complete, fun mode => ?_⟩
  have tidy := Script.source_tidy (by decide : script ≠ []) complete (by decide) (by decide)
  have room : script.breaks < mode.levelLimit := by cases mode <;> decide
  obtain ⟨text, success⟩ := tidy.2 mode room
  exact ⟨text, success, tidy.1 mode text success⟩

end ShellTree
