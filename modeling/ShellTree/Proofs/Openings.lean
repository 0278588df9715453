import ShellTree.Layout.Broken
import ShellTree.Layout.Lines
import ShellTree.Proofs.SimpleText

/-!
# How nodes open a line

On several lines a complete node begins with a character that is no space and no closing brace, unless
a word or a name begins with one. So it can stand at the start of a line, where its indentation can be
told from it.
-/

namespace ShellTree

/-- Texts that avoid these characters cannot be taken for an indentation or a closing brace. The sign
between a name and a value must not be one of them. -/
def Guards (marks : List Char) : Prop := ' ' ∈ marks ∧ '\x7d' ∈ marks ∧ '=' ∉ marks

instance {marks : List Char} : Decidable (Guards marks) :=
  inferInstanceAs (Decidable (' ' ∈ marks ∧ '\x7d' ∈ marks ∧ '=' ∉ marks))

variable {marks : List Char}

theorem simpleText_opens {assignments : List Assignment} {words : List Word} {location : Location}
    (guards : Guards marks) (meets : (Command.simple assignments words location).Meets (Shows marks)) :
    Opens (simpleText assignments words).toList := by
  obtain ⟨space, brace, equals⟩ := guards
  obtain ⟨⟨c, rest, chars, apart⟩, _⟩ := simpleText_of_shows equals meets
  rw [chars]
  exact opens_cons (ne_of_mem_of_not_mem space apart).symm (ne_of_mem_of_not_mem brace apart).symm

theorem Command.opens_broken {command : Command} (guards : Guards marks) (meets : command.Meets (Shows marks))
    (level line : Nat) :
    Opens (command.broken level line).text.toList := by
  cases command with
  | simple assignments words location => exact simpleText_opens guards meets
  | group body location => simp [Command.broken, Laid.andThen, Laid.inline, opens_cons]
  | subshell body location => simp [Command.broken, Laid.close, opens_cons]

theorem Pipeline.opens_broken {pipeline : Pipeline} (guards : Guards marks)
    (meets : pipeline.Meets (Shows marks)) (level line : Nat) :
    Opens (pipeline.broken level line).text.toList := by
  obtain ⟨negated, commands⟩ := pipeline
  obtain ⟨nonempty, complete⟩ := Pipeline.meets_mk.mp meets
  cases negated with
  | true => simp [Pipeline.broken, negationText, opens_cons]
  | false =>
    obtain ⟨command, rest, rfl⟩ := List.exists_cons_of_ne_nil nonempty
    have opens := Command.opens_broken guards (complete command List.mem_cons_self) level line
    simpa [Pipeline.broken, negationText, Command.brokenPiped, Laid.andThen, Laid.inline] using opens.append _

theorem AndOr.opens_broken {list : AndOr} (guards : Guards marks) (meets : list.Meets (Shows marks))
    (level line : Nat) :
    Opens (list.broken level line).text.toList := by
  obtain ⟨first, links, terminator⟩ := list
  have opens := Pipeline.opens_broken guards (AndOr.meets_mk.mp meets).1 level line
  simpa [AndOr.broken, Laid.andThen] using opens.append _

theorem AndOr.opens_brokenList {lists : List AndOr} (guards : Guards marks) (nonempty : lists ≠ [])
    (meets : ∀ list ∈ lists, list.Meets (Shows marks)) (level line : Nat) :
    Opens (AndOr.brokenList level lists line).text.toList := by
  obtain ⟨list, rest, rfl⟩ := List.exists_cons_of_ne_nil nonempty
  have opens := AndOr.opens_broken guards (meets list List.mem_cons_self) level line
  cases rest with
  | nil => simpa [AndOr.brokenList, Laid.close] using opens.append _
  | cons next rest => simpa [AndOr.brokenList, Laid.close, Laid.andThen] using opens.append _

end ShellTree
