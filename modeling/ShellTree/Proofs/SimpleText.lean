import ShellTree.Layout.Flat
import ShellTree.Tree.Words

/-!
# The text of a simple command

In both layouts a simple command is its assignments and its words with a space between any two. If
these texts avoid some characters, and none of them is empty, then so does the text of the command: it
begins with another character, and none of its characters but the spaces between the parts is among
those avoided.
-/

namespace ShellTree

/-- Words that are not empty, and words, names and values that avoid the given characters. -/
def Shows (marks : List Char) (simple : Simple) : Prop :=
  (∀ word ∈ simple.words, word.text ≠ "" ∧ Avoids marks word.text) ∧
    ∀ assignment ∈ simple.assignments, Avoids marks assignment.name ∧ Avoids marks assignment.value.text

variable {marks : List Char} {assignments : List Assignment} {words : List Word}

theorem Assignment.avoids_text {assignment : Assignment} (equals : '=' ∉ marks)
    (name : Avoids marks assignment.name) (value : Avoids marks assignment.value.text) :
    Avoids marks assignment.text := by
  intro c member
  simp only [text, String.toList_append, List.mem_append] at member
  rcases member with (inName | sign) | inValue
  · exact name c inName
  · obtain rfl : c = '=' := by simpa using sign
    exact equals
  · exact value c inValue

/-- Each part of a simple command shows in its text. -/
theorem texts_of_shows (equals : '=' ∉ marks) (shows : Shows marks ⟨assignments, words⟩) :
    ∀ text ∈ assignments.map Assignment.text ++ words.map Word.text, text ≠ "" ∧ Avoids marks text := by
  intro text member
  rcases List.mem_append.mp member with inside | inside
  · obtain ⟨assignment, among, rfl⟩ := List.mem_map.mp inside
    obtain ⟨name, value⟩ := shows.2 assignment among
    exact ⟨by simp [Assignment.text], Assignment.avoids_text equals name value⟩
  · obtain ⟨word, among, rfl⟩ := List.mem_map.mp inside
    exact shows.1 word among

/-- A complete simple command has parts. -/
theorem Command.texts_ne_nil {location : Location}
    (complete : (Command.simple assignments words location).issues = []) :
    assignments.map Assignment.text ++ words.map Word.text ≠ [] := by
  intro empty
  obtain ⟨noAssignments, noWords⟩ := List.append_eq_nil_iff.mp empty
  exact (Command.issues_simple_eq_nil.mp complete).1 (List.map_eq_nil_iff.mp noWords)
    (List.map_eq_nil_iff.mp noAssignments)

theorem exists_head_of_avoids {text : String} (visible : text ≠ "") (avoids : Avoids marks text) :
    ∃ c rest, text.toList = c :: rest ∧ c ∉ marks := by
  obtain ⟨c, rest, chars⟩ := List.exists_cons_of_ne_nil (mt String.toList_eq_nil_iff.mp visible)
  exact ⟨c, rest, chars, avoids c (by simp [chars])⟩

/-- Texts with spaces between them begin as the first one does. -/
theorem exists_head_intercalate {texts : List String} (nonempty : texts ≠ [])
    (shown : ∀ text ∈ texts, text ≠ "" ∧ Avoids marks text) :
    ∃ c rest, (" ".intercalate texts).toList = c :: rest ∧ c ∉ marks := by
  obtain ⟨text, others, rfl⟩ := List.exists_cons_of_ne_nil nonempty
  obtain ⟨visible, avoids⟩ := shown text List.mem_cons_self
  obtain ⟨c, rest, chars, apart⟩ := exists_head_of_avoids visible avoids
  cases others with
  | nil => exact ⟨c, rest, by simpa using chars, apart⟩
  | cons next others =>
    refine ⟨c, rest ++ ' ' :: (" ".intercalate (next :: others)).toList, ?_, apart⟩
    simp [chars]

theorem mem_intercalate {texts : List String} (avoid : ∀ text ∈ texts, Avoids marks text) :
    ∀ c ∈ (" ".intercalate texts).toList, c = ' ' ∨ c ∉ marks := by
  induction texts with
  | nil => simp
  | cons text rest ih =>
    rw [List.forall_mem_cons] at avoid
    intro c member
    cases rest with
    | nil => exact .inr (avoid.1 c (by simpa using member))
    | cons next rest =>
      simp only [String.intercalate_cons_cons, String.toList_append, List.mem_append] at member
      rcases member with (first | space) | behind
      · exact .inr (avoid.1 c first)
      · exact .inl (by simpa using space)
      · exact ih avoid.2 c behind

theorem simpleText_of_shows {location : Location} (equals : '=' ∉ marks)
    (meets : (Command.simple assignments words location).Meets (Shows marks)) :
    (∃ c rest, (simpleText assignments words).toList = c :: rest ∧ c ∉ marks) ∧
      ∀ c ∈ (simpleText assignments words).toList, c = ' ' ∨ c ∉ marks := by
  obtain ⟨complete, shows⟩ := Command.meets_simple.mp meets
  have shown := texts_of_shows equals shows
  exact ⟨exists_head_intercalate (Command.texts_ne_nil complete) shown,
    mem_intercalate fun text member => (shown text member).2⟩

end ShellTree
