import ShellTree.Proofs.Framing
import ShellTree.Proofs.TwoSinks

/-!
# Raising the level

Where lines are real, the level that a node is written at shows in nothing but its indentation: two runs
that start `count` levels apart end `count` levels apart, and their texts differ in the spaces behind
newlines. It does not matter that links take the level in force and groups that of the line, since both
are raised. This needs texts without newlines, because a newline that a word brings is not indented, and
an empty queue, for the same reason. On a single line no level shows at all.
-/

namespace ShellTree

/-- The text with `count` more spaces behind each newline. -/
def shifted (count : Nat) (text : String) : String :=
  String.ofList (text.toList.flatMap fun c => if c = '\n' then '\n' :: List.replicate count ' ' else [c])

theorem shifted_append (count : Nat) (first second : String) :
    shifted count (first ++ second) = shifted count first ++ shifted count second := by
  simp [shifted]

theorem shifted_newline (count : Nat) : shifted count "\n" = "\n" ++ spaces count := by
  simp [shifted, ← String.toList_inj]

/-- A text on one line is not shifted. -/
theorem shifted_of_avoids {text : String} (inline : Avoids ['\n'] text) (count : Nat) : shifted count text = text := by
  have kept (chars : List Char) (inline : ∀ c ∈ chars, c ≠ '\n') :
      (chars.flatMap fun c => if c = '\n' then '\n' :: List.replicate count ' ' else [c]) = chars := by
    induction chars with
    | nil => rfl
    | cons c rest ih =>
      rw [List.forall_mem_cons] at inline
      rw [List.flatMap_cons, if_neg inline.1, ih inline.2, List.singleton_append]
  rw [shifted, kept text.toList, String.ofList_toList]
  intro c member newline
  exact inline c member (List.mem_singleton.mpr newline)

theorem avoids_spaces (count : Nat) : Avoids ['\n'] (spaces count) := by
  intro c member
  rw [toList_spaces] at member
  rw [List.eq_of_mem_replicate member]
  decide

theorem Avoids.append {marks : List Char} {first second : String} (avoids : Avoids marks first)
    (avoids' : Avoids marks second) : Avoids marks (first ++ second) := by
  intro c member
  rw [String.toList_append, List.mem_append] at member
  rcases member with member | member
  · exact avoids c member
  · exact avoids' c member

/-! ## Where lines are real -/

/-- Two sinks with the same text `start` on them, of which the second has gone on `count` levels deeper. -/
structure Raised (count : Nat) (start : String) (sink other : Sink) : Prop where
  mode : sink.mode = .multi
  queue : sink.queued = ""
  inline : Avoids ['\n'] sink.pending
  apart : ∃ added, sink.written = start ++ added ∧ other =
    { sink with
      written := start ++ shifted (indentWidth * count) added
      level := sink.level + count
      lineLevel := sink.lineLevel + count }

namespace Raised

variable {count : Nat} {start : String} {sink other : Sink}

theorem pending (raised : Raised count start sink other) : other.pending = sink.pending := by
  obtain ⟨_, _, rfl⟩ := raised.apart
  rfl

/-- Texts without newlines that are put on both sinks alike do not drive them apart. -/
theorem put {text left : String} (raised : Raised count start sink other) (inline : Avoids ['\n'] text)
    (waiting : Avoids ['\n'] left) :
    Raised count start { sink with written := sink.written ++ text, pending := left }
      { other with written := other.written ++ text, pending := left } := by
  obtain ⟨mode, queue, _, added, written, rfl⟩ := raised
  refine ⟨mode, queue, waiting, added ++ text, ?_, ?_⟩
  · simp only [written, String.append_assoc]
  · simp only [shifted_append, shifted_of_avoids inline, String.append_assoc]

/-- The deeper sink writes as many more spaces behind its newline as it is deeper. -/
theorem onNewLine (raised : Raised count start sink other) (level : Nat) :
    Raised count start (sink.onNewLine level) (other.onNewLine (level + count)) := by
  obtain ⟨mode, queue, _, added, written, rfl⟩ := raised
  have newline : shifted (indentWidth * count) ("\n" ++ spaces (indentWidth * level)) =
      "\n" ++ spaces (indentWidth * (level + count)) := by
    rw [shifted_append, shifted_newline, shifted_of_avoids (avoids_spaces _), String.append_assoc, ← spaces_add,
      ← Nat.mul_add, Nat.add_comm count level]
  refine ⟨mode, rfl, ?_, added ++ ("\n" ++ spaces (indentWidth * level)), ?_, ?_⟩
  · simp [Sink.onNewLine, mode, LineMode.gap, Avoids]
  · simp only [Sink.onNewLine, mode, queue, written, LineMode.lineBreak, LineMode.margin, String.append_assoc,
      String.empty_append]
  · simp only [Sink.onNewLine, mode, queue, LineMode.lineBreak, LineMode.margin, shifted_append, newline,
      String.append_assoc, String.empty_append]

end Raised

theorem likeness_raised (count : Nat) (start : String) :
    Likeness (Raised count start) (fun level level' => level' = level + count) (Avoids ['\n']) where
  mode raised := by
    obtain ⟨_, _, rfl⟩ := raised.apart
    rfl
  level raised := by
    obtain ⟨_, _, rfl⟩ := raised.apart
    rfl
  lineLevel raised := by
    obtain ⟨_, _, rfl⟩ := raised.apart
    rfl
  raised same := by
    omega
  inline avoids := avoids
  append := by
    intro sink other text raised inline
    have put := raised.put (raised.inline.append inline) (by decide : Avoids ['\n'] "")
    simpa only [Sink.append, raised.pending, String.append_assoc] using put
  defer := by
    intro sink other text raised inline
    have put := raised.put (by decide : Avoids ['\n'] "") (raised.inline.append inline)
    simpa only [Sink.defer, raised.pending, String.append_empty] using put
  dropPending := by
    intro sink other raised
    have put := raised.put (by decide : Avoids ['\n'] "") (by decide : Avoids ['\n'] "")
    simpa only [Sink.dropPending, String.append_empty] using put
  atLevel := by
    rintro sink other level _ ⟨mode, queue, inline, added, written, rfl⟩ rfl
    exact ⟨mode, queue, inline, added, written, rfl⟩
  onNewLine := by
    rintro sink other level _ raised rfl
    exact raised.onNewLine level

/-! ## On a single line -/

/-- Two sinks on a single line that differ in their levels at most, and in what would be lost anyway. -/
structure SameLine (sink other : Sink) : Prop where
  mode : sink.mode = .single
  apart : ∃ queued level lineLevel, other = { sink with queued, level, lineLevel }

/-- No level shows on a single line, so levels need not be related at all. -/
theorem likeness_sameLine : Likeness SameLine (fun _ _ => True) fun _ => True where
  mode same := by
    obtain ⟨_, _, _, rfl⟩ := same.apart
    rfl
  level _ := trivial
  lineLevel _ := trivial
  raised _ := trivial
  inline _ := trivial
  append := by
    rintro sink other text ⟨single, queued, level, line, rfl⟩ _
    exact ⟨single, queued, level, line, rfl⟩
  defer := by
    rintro sink other text ⟨single, queued, level, line, rfl⟩ _
    exact ⟨single, queued, level, line, rfl⟩
  dropPending := by
    rintro sink other ⟨single, queued, level, line, rfl⟩
    exact ⟨single, queued, level, line, rfl⟩
  atLevel := by
    rintro sink other _ level' ⟨single, queued, level, line, rfl⟩ _
    exact ⟨single, queued, level', line, rfl⟩
  onNewLine := by
    rintro sink other _ level' ⟨single, queued, level, line, rfl⟩ _
    refine ⟨single, "", level', level', ?_⟩
    simp only [Sink.onNewLine, single, LineMode.lineBreak, LineMode.margin]

/-! ## Nodes of every kind -/

/-- Indentation follows the level. Where lines are real, a node that is written `count` levels deeper, without
newlines in what is pending and in its own texts and with an empty queue, has the same text but for `4 * count`
more spaces behind each newline, leaves the same pending, and ends `count` levels deeper. On a single line a node
adds the same text and leaves the same pending at any two levels whatever. -/
theorem Node.render_raised (node : Node) (sink after after' : Sink) :
    (∀ count, sink.mode = .multi → sink.queued = "" → Avoids ['\n'] sink.pending →
      (∀ text ∈ node.texts, Avoids ['\n'] text) → node.render sink = .ok after →
      node.render { sink with level := sink.level + count, lineLevel := sink.lineLevel + count } = .ok after' →
        (∃ added, after.written = sink.written ++ added ∧
          after'.written = sink.written ++ shifted (4 * count) added) ∧
        after'.pending = after.pending ∧ after'.level = after.level + count ∧
          after'.lineLevel = after.lineLevel + count) ∧
      ∀ level lineLevel, sink.mode = .single → node.render sink = .ok after →
        node.render { sink with level, lineLevel } = .ok after' →
          (∃ added, after.written = sink.written ++ added ∧ after'.written = sink.written ++ added) ∧
            after'.pending = after.pending := by
  constructor
  · intro count multi queue inline texts success success'
    have start : Raised count sink.written sink
        { sink with level := sink.level + count, lineLevel := sink.lineLevel + count } :=
      ⟨multi, queue, inline, "", String.append_empty.symm, by simp [shifted]⟩
    have raised := Node.keeps (likeness_raised count sink.written) texts _ _ after after' start success success'
    obtain ⟨added, written, rfl⟩ := raised.apart
    exact ⟨⟨added, written, rfl⟩, rfl, rfl, rfl⟩
  · intro level lineLevel single success success'
    have start : SameLine sink { sink with level, lineLevel } := ⟨single, sink.queued, level, lineLevel, rfl⟩
    have same := Node.keeps likeness_sameLine (fun _ _ => trivial) _ _ after after' start success success'
    obtain ⟨_, _, _, rfl⟩ := same.apart
    obtain ⟨added, written⟩ := node.framed.exists_written success
    exact ⟨⟨added, written, written⟩, rfl⟩

/-- A link to a group, two levels deeper; on a single line it goes on to another level, which does not show. -/
theorem Node.render_raised_group :
    let word (text : String) : Command := .simple [] [.literal text] {}
    let node : Node := .andOr (.mk (.mk false [word "a"])
      [.mk .andThen (.mk false [.group [.mk (.mk false [word "b"]) [] .sequential] {}])] .asynchronous)
    let sink (mode : LineMode) : Sink := { mode, written := "\n", pending := " ", level := 1 }
    let added := " a &&\n    \x7b\n        b\n    \x7d&"
    (∃ after after', node.render (sink .multi) = .ok after ∧
      node.render { sink .multi with level := 1 + 2, lineLevel := 0 + 2 } = .ok after' ∧
        after.written = "\n" ++ added ∧ after'.written = "\n" ++ shifted 8 added ∧
          after'.level = 3 ∧ after'.lineLevel = 3) ∧
      ∃ after after', node.render (sink .single) = .ok after ∧
        node.render { sink .single with level := 7, lineLevel := 5 } = .ok after' ∧
          after.written = "\n a && \x7b b; \x7d&" ∧ after'.written = after.written ∧
            after'.pending = after.pending ∧ after'.lineLevel ≠ after.lineLevel := by
  intro word node sink added
  constructor
  · have success : node.render (sink .multi) = .ok
        { mode := .multi, written := "\n a &&\n    \x7b\n        b\n    \x7d&", pending := " ", level := 1,
          lineLevel := 1 } := by cbv
    have success' : node.render { sink .multi with level := 1 + 2, lineLevel := 0 + 2 } = .ok
        { mode := .multi,
          written := "\n a &&\n            \x7b\n                b\n            \x7d&", pending := " ", level := 3,
          lineLevel := 3 } := by cbv
    obtain ⟨⟨text, written, written'⟩, _, level, line⟩ :=
      (Node.render_raised node (sink .multi) _ _).1 2 rfl rfl (by decide) (by decide) success success'
    have whole : "\n a &&\n    \x7b\n        b\n    \x7d&" = "\n" ++ added := by decide
    have same : added = text := (String.append_right_inj "\n").mp (whole.symm.trans written)
    refine ⟨_, _, success, success', whole, ?_, level, line⟩
    rw [same]
    exact written'
  · have success : node.render (sink .single) = .ok
        { mode := .single, written := "\n a && \x7b b; \x7d&", pending := " ", level := 1, lineLevel := 2 } := by cbv
    have success' : node.render { sink .single with level := 7, lineLevel := 5 } = .ok
        { mode := .single, written := "\n a && \x7b b; \x7d&", pending := " ", level := 7, lineLevel := 8 } := by cbv
    obtain ⟨⟨text, written, written'⟩, pending⟩ :=
      (Node.render_raised node (sink .single) _ _).2 7 5 rfl success success'
    exact ⟨_, _, success, success', rfl, written'.trans written.symm, pending, by decide⟩

end ShellTree
