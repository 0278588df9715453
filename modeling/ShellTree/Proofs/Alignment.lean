import ShellTree.Layout.Braced
import ShellTree.Proofs.ManyLines
import ShellTree.Proofs.Openings

/-!
# Braces that line up

On several lines the braces of a complete tree are aligned, if the texts that it takes from outside have
neither spaces nor line breaks nor braces, and none of its words is invisible.

The text of a node is made of groups, whatever the line is that it begins on and whatever level its
links break to, and none of its lines is above both of these levels. So the lines of a group's body are
below the line of the group, whose level both are laid out from, although a body may end on a line that
is deeper than the one it begins on.
-/

namespace ShellTree

/-- The characters that braces and their lines are told by. -/
def braceMarks : List Char := [' ', '\n', '\x7b', '\x7d']

theorem braced_simpleText {assignments : List Assignment} {words : List Word} {location : Location}
    (meets : (Command.simple assignments words location).Meets (Shows braceMarks)) (floor line : Nat) :
    Braced floor line (simpleText assignments words).toList line := by
  apply Braced.of_plain
  intro c member
  rcases (simpleText_of_shows (by decide) meets).2 c member with rfl | apart
  · decide
  · simp only [braceMarks, List.mem_cons, List.not_mem_nil, or_false, not_or] at apart
    exact apart.2

theorem Terminator.braced_endMark (terminator : Terminator) (floor line : Nat) :
    Braced floor line terminator.endMark.toList line := by
  cases terminator <;> exact .of_plain (by simp [Terminator.endMark])

/-- Between two lists stand the mark of the first one and a space. -/
theorem Terminator.braced_mark (terminator : Terminator) (floor line : Nat) :
    Braced floor line (terminator.mark.toList ++ [' ']) line := by
  cases terminator <;> exact .of_plain (by simp [Terminator.mark])

theorem Connective.braced_operator (connective : Connective) (floor line : Nat) :
    Braced floor line (' ' :: connective.operator.toList) line := by
  cases connective <;> exact .of_plain (by simp [Connective.operator])

/-! ## Laying out nodes -/

mutual

/-- The broken text of a command is made of groups. The induction is on the tree; any floor will do that
is not below the level that links break to or the line that the command begins on. -/
theorem Command.braced_broken : ∀ {command : Command}, command.Meets (Shows braceMarks) →
    ∀ {floor level line : Nat}, floor ≤ level → floor ≤ line →
    Braced floor line (command.broken level line).text.toList (command.broken level line).line
  | .simple assignments words location, meets, floor, level, line, _, _ => braced_simpleText meets floor line
  | .group body location, meets, floor, level, line, _, onLine => by
    obtain ⟨nonempty, meets⟩ := Command.meets_group.mp meets
    have opens := AndOr.opens_brokenList (by decide) nonempty meets (line + 1) (line + 1)
    have inside := AndOr.braced_brokenList meets (Nat.le_refl (line + 1)) (Nat.le_refl (line + 1))
    have whole : Braced floor line ('\x7b' :: (groupBody line _ ++ '\x7d' :: [])) line :=
      .group onLine opens inside .nil
    simpa [Command.broken, groupBody, Laid.andThen, Laid.inline, Laid.newline, Laid.close] using whole
  | .subshell body location, meets, floor, level, line, above, onLine => by
    obtain ⟨_, meets⟩ := Command.meets_subshell.mp meets
    have inside := AndOr.braced_brokenList meets above onLine
    have whole : Braced floor line ('(' :: _) _ :=
      .char (by decide) (inside.append (.char (by decide : ')' ≠ '\n' ∧ ')' ≠ '\x7b' ∧ ')' ≠ '\x7d') .nil))
    simpa [Command.broken, Laid.close] using whole

theorem Pipeline.braced_broken : ∀ {pipeline : Pipeline}, pipeline.Meets (Shows braceMarks) →
    ∀ {floor level line : Nat}, floor ≤ level → floor ≤ line →
    Braced floor line (pipeline.broken level line).text.toList (pipeline.broken level line).line
  | .mk negated [], meets, _, _, _, _, _ => by simp at meets
  | .mk negated (command :: rest), meets, floor, level, line, above, onLine => by
    obtain ⟨_, meets⟩ := Pipeline.meets_mk.mp meets
    rw [List.forall_mem_cons] at meets
    have first := Command.braced_broken meets.1 above onLine
    have piped := first.append (Command.braced_brokenTail meets.2 above (first.floor_le onLine))
    cases negated with
    | false => simpa [Pipeline.broken, negationText, Command.brokenPiped, Laid.andThen, Laid.inline] using piped
    | true =>
      have whole : Braced floor line ('!' :: ' ' :: _) _ := .char (by decide) (.char (by decide) piped)
      simpa [Pipeline.broken, negationText, Command.brokenPiped, Laid.andThen, Laid.inline] using whole

theorem Command.braced_brokenTail : ∀ {commands : List Command},
    (∀ command ∈ commands, command.Meets (Shows braceMarks)) →
    ∀ {floor level line : Nat}, floor ≤ level → floor ≤ line →
    Braced floor line (Command.brokenTail level commands line).text.toList (Command.brokenTail level commands line).line
  | [], _, _, _, _, _, _ => .nil
  | command :: rest, meets, floor, level, line, above, onLine => by
    rw [List.forall_mem_cons] at meets
    have pipe : Braced floor line [' ', '|', ' '] line := .of_plain (by simp)
    have first := Command.braced_broken meets.1 above onLine
    have others := Command.braced_brokenTail meets.2 above (first.floor_le onLine)
    have whole := pipe.append (first.append others)
    simpa [Command.brokenTail, Laid.andThen, Laid.inline] using whole

theorem Link.braced_brokenList : ∀ {links : List Link}, (∀ link ∈ links, link.Meets (Shows braceMarks)) →
    ∀ {floor level line : Nat}, floor ≤ level → floor ≤ line →
    Braced floor line (Link.brokenList level links line).text.toList (Link.brokenList level links line).line
  | [], _, _, _, _, _, _ => .nil
  | .mk connective pipeline :: rest, meets, floor, level, line, above, onLine => by
    simp only [List.forall_mem_cons, Link.meets_mk] at meets
    have opens := Pipeline.opens_broken (by decide) meets.1 (level + 1) level
    have guarded := Pipeline.braced_broken meets.1 (Nat.le_succ_of_le above) above
    have others := Link.braced_brokenList meets.2 above (guarded.floor_le above)
    have broken : Braced floor line ('\n' :: (List.replicate (indentWidth * level) ' ' ++ _)) _ :=
      .newline above (opens.append _) (guarded.append others)
    have whole := (connective.braced_operator floor line).append broken
    simpa [Link.brokenList, Link.broken, Laid.andThen, Laid.inline, Laid.newline] using whole

theorem AndOr.braced_broken : ∀ {list : AndOr}, list.Meets (Shows braceMarks) →
    ∀ {floor level line : Nat}, floor ≤ level → floor ≤ line →
    Braced floor line (list.broken level line).text.toList (list.broken level line).line
  | .mk first links terminator, meets, floor, level, line, above, onLine => by
    rw [AndOr.meets_mk] at meets
    have opened := Pipeline.braced_broken meets.1 above onLine
    have whole := opened.append (Link.braced_brokenList meets.2 above (opened.floor_le onLine))
    simpa [AndOr.broken, Laid.andThen] using whole

theorem AndOr.braced_brokenList : ∀ {lists : List AndOr}, (∀ list ∈ lists, list.Meets (Shows braceMarks)) →
    ∀ {floor level line : Nat}, floor ≤ level → floor ≤ line →
    Braced floor line (AndOr.brokenList level lists line).text.toList (AndOr.brokenList level lists line).line
  | [], _, _, _, _, _, _ => .nil
  | [list], meets, floor, level, line, above, onLine => by
    have only := AndOr.braced_broken (meets list List.mem_cons_self) above onLine
    have whole := only.append (list.terminator.braced_endMark floor _)
    simpa [AndOr.brokenList, Laid.close] using whole
  | list :: next :: rest, meets, floor, level, line, above, onLine => by
    rw [List.forall_mem_cons] at meets
    have first := AndOr.braced_broken meets.1 above onLine
    have others := AndOr.braced_brokenList meets.2 above (first.floor_le onLine)
    have whole := first.append ((list.terminator.braced_mark floor _).append others)
    simpa [AndOr.brokenList, Laid.andThen, Laid.close] using whole

end

theorem Script.bracesAligned_broken {script : Script} (meets : ∀ list ∈ script, list.Meets (Shows braceMarks)) :
    BracesAligned script.broken.toList := by
  have braced := AndOr.braced_brokenList meets (Nat.le_refl 0) (Nat.le_refl 0)
  apply braced.bracesAligned
  cases script with
  | nil => simp [AndOr.brokenList, Laid.inline]
  | cons list rest => exact (AndOr.opens_brokenList (by decide) (List.cons_ne_nil list rest) meets 0 0).visible

/-- Braces line up. Where lines are real, every opening brace of a complete script ends its line, every
closing one begins its line behind the indentation, the braces are balanced, and of any two partners the
lines are indented alike, with all lines between them indented by four more at least. There is a text if
the script has fewer links and groups than there are levels. -/
theorem Script.source_multi_bracesAligned {script : Script} (complete : script.issues = [])
    (words : ∀ word ∈ script.words, word.text ≠ "" ∧ Avoids braceMarks word.text)
    (assignments : ∀ assignment ∈ script.assignments,
      Avoids braceMarks assignment.name ∧ Avoids braceMarks assignment.value.text) :
    (∀ text, script.source .multi = .ok text → BracesAligned text.toList) ∧
      (script.breaks < 2 ^ 62 → ∃ text, script.source .multi = .ok text ∧ BracesAligned text.toList) := by
  have meets : ∀ list ∈ script, list.Meets (Shows braceMarks) := meets_of_forall complete words assignments
  have aligned : ∀ text, script.source .multi = .ok text → BracesAligned text.toList := by
    intro text success
    rw [eq_broken_of_source complete success]
    exact bracesAligned_broken meets
  refine ⟨aligned, fun room => ?_⟩
  obtain ⟨text, success⟩ := exists_source (show script.breaks < LineMode.multi.levelLimit from room)
  exact ⟨text, success, aligned text success⟩

/-- A group behind a link and in a pipeline, behind a subshell that has broken the line at a deeper level. -/
theorem Script.source_multi_bracesAligned_piped :
    let word (text : String) : Command := .simple [⟨"x", {}⟩] [.literal text] {}
    let list (pipeline : Pipeline) (links : List Link) : AndOr := .mk pipeline links .sequential
    let group (text : String) : Command := .group [list (.mk false [word text]) []] {}
    let inside : Command := .subshell [list (.mk true [group "a"]) [.mk .orElse (.mk false [group "b"])]] {}
    let script : Script := [list (.mk false [word "c"]) [.mk .andThen (.mk false [inside, group "d", word "e"])]]
    ∃ text, script.source .multi = .ok text ∧ BracesAligned text.toList ∧
      text = "x= c &&\n(! \x7b\n    x= a\n\x7d ||\n    \x7b\n        x= b\n    \x7d) | \x7b\n        x= d\n    \x7d | x= e" := by
  intro word list group inside script
  have complete : script.issues = [] := by decide
  obtain ⟨text, success, aligned⟩ :=
    (Script.source_multi_bracesAligned complete (by decide) (by decide)).2 (by decide)
  refine ⟨text, success, aligned, ?_⟩
  rw [Script.eq_broken_of_source complete success]
  decide

end ShellTree
