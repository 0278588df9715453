import ShellTree.Proofs.Scopes

/-!
# New lines

Groups and links never break a line without opening the next one at once, at the level that it belongs
to. The two steps together are `Sink.onNewLine`, which cannot fail; what can fail is set apart in
`LineMode.Fits`. So where a group or a link is written, the sinks at its stages are known outright.
-/

namespace ShellTree

namespace LineMode

/-- What a line break writes when `queued` waits for it. -/
def lineBreak (mode : LineMode) (queued : String) : String :=
  match mode with
  | .single => ""
  | .multi => "\n" ++ queued

/-- What a line at some level begins with. -/
def margin (mode : LineMode) (level : Nat) : String :=
  match mode with
  | .single => ""
  | .multi => spaces (indentWidth * level)

/-- What a line break leaves pending. -/
def gap : LineMode → String
  | .single => " "
  | .multi => ""

/-- A level that a line can be opened at. -/
def Fits (mode : LineMode) (level : Nat) : Prop := mode = .multi → indentWidth * level < wordLimit

end LineMode

namespace Sink

/-- The sink after its line has been broken and the next one opened at `level`. -/
def onNewLine (sink : Sink) (level : Nat) : Sink where
  mode := sink.mode
  written := sink.written ++ sink.mode.lineBreak sink.queued ++ sink.mode.margin level
  pending := sink.mode.gap
  queued := ""
  level := level
  lineLevel := level

variable {sink inside opened after : Sink} {level : Nat} {connective : Connective}

theorem newLine_eq_ok :
    (sink.breakLine.atLevel level).printIndent = .ok after ↔
      sink.mode.Fits level ∧ sink.onNewLine level = after := by
  unfold printIndent breakLine onNewLine LineMode.Fits
  cases mode : sink.mode with
  | single => simp [atLevel, LineMode.lineBreak, LineMode.margin, LineMode.gap]
  | multi =>
    simp only [atLevel, LineMode.lineBreak, LineMode.margin, LineMode.gap, forall_const]
    by_cases fits : indentWidth * level < wordLimit
    · simp [fits, String.append_assoc]
    · simp [fits]

theorem openGroup_eq_ok :
    sink.openGroup = .ok opened ↔
      (sink.lineLevel + 1 < wordLimit ∧ sink.mode.Fits (sink.lineLevel + 1)) ∧
        (sink.append "\x7b").onNewLine (sink.lineLevel + 1) = opened := by
  simp only [openGroup, bind_eq_ok, raiseLevel_eq_ok_iff, newLine_eq_ok]
  constructor
  · rintro ⟨_, ⟨rfl, small⟩, fits, same⟩
    exact ⟨⟨small, fits⟩, same⟩
  · rintro ⟨⟨small, fits⟩, same⟩
    exact ⟨_, ⟨rfl, small⟩, fits, same⟩

theorem openLink_eq_ok :
    sink.openLink connective = .ok opened ↔
      (sink.level + 1 < wordLimit ∧ sink.mode.Fits sink.level) ∧
        ((sink.append connective.operator).onNewLine sink.level).atLevel (sink.level + 1) = opened := by
  have level : (sink.append connective.operator).breakLine =
      (sink.append connective.operator).breakLine.atLevel sink.level :=
    congrArg (Sink.atLevel _) (level_breakLine (sink.append connective.operator))
  simp only [openLink, bind_eq_ok, raiseLevel_eq_ok_iff, pure_eq_ok]
  rw [level]
  simp only [newLine_eq_ok]
  constructor
  · rintro ⟨_, ⟨fits, rfl⟩, _, ⟨rfl, small⟩, same⟩
    exact ⟨⟨small, fits⟩, same⟩
  · rintro ⟨⟨small, fits⟩, same⟩
    exact ⟨_, ⟨fits, rfl⟩, _, ⟨rfl, small⟩, same⟩

/-- The line that the closing brace of a group stands on: on a single line that of the body, and otherwise
a new one, as deep as the line that the group was opened on. -/
def onClosingLine (sink inside : Sink) : Sink :=
  match sink.mode with
  | .single => inside
  | .multi => inside.onNewLine sink.lineLevel

theorem closeGroup_eq_ok :
    sink.closeGroup inside = .ok after ↔
      (sink.mode = .multi → inside.mode.Fits sink.lineLevel) ∧
        (((sink.onClosingLine inside).atLevel sink.level).append "\x7d").defer " " = after := by
  unfold closeGroup onClosingLine
  cases sink.mode with
  | single => simp
  | multi =>
    simp only [bind_eq_ok, newLine_eq_ok, pure_eq_ok, forall_const]
    constructor
    · rintro ⟨_, ⟨fits, rfl⟩, same⟩
      exact ⟨fits, same⟩
    · rintro ⟨fits, same⟩
      exact ⟨_, ⟨fits, rfl⟩, same⟩

end Sink

end ShellTree
