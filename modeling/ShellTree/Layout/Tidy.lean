import ShellTree.Layout.Lines
import ShellTree.Sink.Basic
import ShellTree.Tree.Tokens

/-!
# Tidy texts

A line is tidy if no separator in it is stray: it is indented by whole levels, something stands on it,
single spaces separate what does, and it ends neither with a space nor with `;`.

`Tidy` builds such texts from the right: one character at a time, a space or a line break only between
two characters that are there to be seen. So tidy texts can be put together again, with any of the
separators of a layout between them.
-/

namespace ShellTree

/-- A line without stray separators. -/
structure TidyLine (line : List Char) : Prop where
  visible : ∃ c ∈ line, c ≠ ' '
  ended : ∀ c ∈ line.getLast?, c ≠ ' ' ∧ c ≠ ';'
  indented : 4 ∣ indentation line
  spaced : ¬ [' ', ' '] <:+: dedented line

/-- A text that begins with something visible, ends with something that is no separator, and in which
every separator stands between two such characters; only on several lines there are line breaks. -/
inductive Tidy : LineMode → List Char → Prop
  | last {mode : LineMode} {c : Char} (shown : c ∉ separators) : Tidy mode [c]
  | char {mode : LineMode} {c : Char} {rest : List Char} (visible : c ≠ ' ' ∧ c ≠ '\n') (tidy : Tidy mode rest) :
    Tidy mode (c :: rest)
  | space {mode : LineMode} {c : Char} {rest : List Char} (visible : c ≠ ' ' ∧ c ≠ '\n') (tidy : Tidy mode rest) :
    Tidy mode (c :: ' ' :: rest)
  | newline {c : Char} {rest : List Char} (shown : c ∉ separators) (level : Nat) (tidy : Tidy .multi rest) :
    Tidy .multi (c :: '\n' :: (List.replicate (indentWidth * level) ' ' ++ rest))

theorem not_mem_separators {c : Char} : c ∉ separators ↔ c ≠ ' ' ∧ c ≠ '\n' ∧ c ≠ ';' := by
  simp [separators]

namespace Tidy

variable {mode : LineMode} {text rest : List Char}

/-! ## Putting tidy texts together -/

/-- What can stand behind any shown character can stand behind a tidy text. -/
theorem append (tidy : Tidy mode text) (joins : ∀ c, c ∉ separators → Tidy mode (c :: rest)) :
    Tidy mode (text ++ rest) := by
  induction tidy with
  | last shown => exact joins _ shown
  | char visible _ ih => exact .char visible (ih joins)
  | space visible _ ih => exact .space visible (ih joins)
  | newline shown level _ ih =>
    rw [List.cons_append, List.cons_append, List.append_assoc]
    exact .newline shown level (ih joins)

theorem visible_of_shown {c : Char} (shown : c ∉ separators) : c ≠ ' ' ∧ c ≠ '\n' := by
  obtain ⟨noSpace, inline, _⟩ := not_mem_separators.mp shown
  exact ⟨noSpace, inline⟩

theorem append_tidy (tidy : Tidy mode text) (behind : Tidy mode rest) : Tidy mode (text ++ rest) :=
  tidy.append fun _ shown => .char (visible_of_shown shown) behind

theorem append_space (tidy : Tidy mode text) (behind : Tidy mode rest) : Tidy mode (text ++ ' ' :: rest) :=
  tidy.append fun _ shown => .space (visible_of_shown shown) behind

theorem append_newline (tidy : Tidy .multi text) (level : Nat) (behind : Tidy .multi rest) :
    Tidy .multi (text ++ '\n' :: (List.replicate (indentWidth * level) ' ' ++ rest)) :=
  tidy.append fun _ shown => .newline shown level behind

theorem of_shown {text : List Char} (nonempty : text ≠ []) (shown : ∀ c ∈ text, c ∉ separators) : Tidy mode text := by
  induction text with
  | nil => contradiction
  | cons c rest ih =>
    rw [List.forall_mem_cons] at shown
    cases rest with
    | nil => exact .last shown.1
    | cons next rest => exact .char (visible_of_shown shown.1) (ih (List.cons_ne_nil next rest) shown.2)

/-! ## The lines of a tidy text -/

theorem exists_cons (tidy : Tidy mode text) : ∃ c rest, text = c :: rest ∧ c ≠ ' ' ∧ c ≠ '\n' := by
  cases tidy with
  | last shown => exact ⟨_, _, rfl, visible_of_shown shown⟩
  | char visible _ => exact ⟨_, _, rfl, visible⟩
  | space visible _ => exact ⟨_, _, rfl, visible⟩
  | newline shown _ _ => exact ⟨_, _, rfl, visible_of_shown shown⟩

/-- There is no line break in a text on a single line. -/
theorem not_mem_newline (tidy : Tidy .single text) : '\n' ∉ text := by
  generalize same : LineMode.single = mode at tidy
  induction tidy with
  | last shown =>
    obtain ⟨_, inline, _⟩ := not_mem_separators.mp shown
    simpa using inline.symm
  | char visible _ ih => simpa [visible.2.symm] using ih same
  | space visible _ ih => simpa [visible.2.symm] using ih same
  | newline => cases same

end Tidy

/-- A line without stray separators, from the first thing that is visible on it. -/
structure TidyPart (line : List Char) : Prop where
  begins : ∃ c rest, line = c :: rest ∧ c ≠ ' '
  ended : ∀ c ∈ line.getLast?, c ≠ ' ' ∧ c ≠ ';'
  spaced : ¬ [' ', ' '] <:+: line

namespace TidyPart

variable {line : List Char} {c : Char}

theorem single (shown : c ∉ separators) : TidyPart [c] := by
  obtain ⟨noSpace, _, noSemicolon⟩ := not_mem_separators.mp shown
  exact ⟨⟨c, [], rfl, noSpace⟩, by simpa using ⟨noSpace, noSemicolon⟩, by simp [List.infix_cons_iff]⟩

theorem cons (visible : c ≠ ' ') (part : TidyPart line) : TidyPart (c :: line) := by
  obtain ⟨next, rest, rfl, _⟩ := part.begins
  refine ⟨⟨c, next :: rest, rfl, visible⟩, ?_, ?_⟩
  · rw [List.getLast?_cons_cons]
    exact part.ended
  · rw [List.infix_cons_iff, List.cons_prefix_cons]
    rintro (⟨same, _⟩ | later)
    · exact visible same.symm
    · exact part.spaced later

theorem cons_space (visible : c ≠ ' ') (part : TidyPart line) : TidyPart (c :: ' ' :: line) := by
  obtain ⟨next, rest, rfl, after⟩ := part.begins
  refine ⟨⟨c, ' ' :: next :: rest, rfl, visible⟩, ?_, ?_⟩
  · rw [List.getLast?_cons_cons, List.getLast?_cons_cons]
    exact part.ended
  · rw [List.infix_cons_iff, List.infix_cons_iff]
    simp only [List.cons_prefix_cons]
    rintro (⟨same, _⟩ | ⟨_, same, _⟩ | later)
    · exact visible same.symm
    · exact after same.symm
    · exact part.spaced later

/-- Behind the indentation of a level, such a line is tidy. -/
theorem tidyLine (part : TidyPart line) (level : Nat) :
    TidyLine (List.replicate (indentWidth * level) ' ' ++ line) := by
  obtain ⟨c, rest, rfl, visible⟩ := part.begins
  constructor
  · exact ⟨c, by simp, visible⟩
  · simpa using part.ended
  · rw [indentation_append _ (by simpa using visible)]
    exact Nat.dvd_mul_right 4 level
  · rw [dedented_indented _ visible]
    exact part.spaced

end TidyPart

/-- Of a tidy text all lines are tidy; the first one begins with the text. -/
theorem Tidy.exists_lines {mode : LineMode} {text : List Char} (tidy : Tidy mode text) :
    ∃ line lines, linesOf text = line :: lines ∧ TidyPart line ∧ ∀ later ∈ lines, TidyLine later := by
  induction tidy with
  | @last _ c shown =>
    obtain ⟨_, inline, _⟩ := not_mem_separators.mp shown
    exact ⟨[c], [], linesOf_cons inline rfl, .single shown, nofun⟩
  | @char _ c rest visible _ ih =>
    obtain ⟨line, lines, parts, part, later⟩ := ih
    exact ⟨c :: line, lines, linesOf_cons visible.2 parts, part.cons visible.1, later⟩
  | @space _ c rest visible _ ih =>
    obtain ⟨line, lines, parts, part, later⟩ := ih
    have behind : linesOf (' ' :: rest) = (' ' :: line) :: lines := linesOf_cons (by decide) parts
    exact ⟨c :: ' ' :: line, lines, linesOf_cons visible.2 behind, part.cons_space visible.1, later⟩
  | @newline c rest shown level _ ih =>
    obtain ⟨line, lines, parts, part, later⟩ := ih
    obtain ⟨_, inline, _⟩ := not_mem_separators.mp shown
    refine ⟨[c], _, linesOf_cons inline (linesOf_newline _), .single shown, ?_⟩
    rw [linesOf_indented _ parts, List.forall_mem_cons]
    exact ⟨part.tidyLine level, later⟩

theorem Tidy.tidyLines {mode : LineMode} {text : List Char} (tidy : Tidy mode text) :
    ∀ line ∈ linesOf text, TidyLine line := by
  obtain ⟨line, lines, parts, part, later⟩ := tidy.exists_lines
  rw [parts, List.forall_mem_cons]
  exact ⟨part.tidyLine 0, later⟩

end ShellTree
