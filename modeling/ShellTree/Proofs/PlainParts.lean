import ShellTree.Proofs.SimpleText
import ShellTree.Text.Stops
import ShellTree.Tree.Bare

/-!
# Plain simple commands and what follows them

Texts are plain if the layout could not be taken for them: they are not empty and have none of the
characters that the layout is made of. A simple command of plain texts ends where its text goes on with
one of these characters, except that a space may also stand between two of its parts; what can follow a
command, though, is never a space and a part. So in front of anything that can follow it, such a command
is determined by its text, up to its location and the division of its words.
-/

namespace ShellTree

/-- The characters that the layout of a tree is made of. -/
def plainMarks : List Char := [' ', '\n', ';', '&', '|', '(', ')', '\x7b', '\x7d', '!', '=']

/-- A text that is not empty, and has nothing in it that could be taken for the layout. -/
def Plain (text : String) : Prop := text ≠ "" ∧ Avoids plainMarks text

instance {text : String} : Decidable (Plain text) := inferInstanceAs (Decidable (_ ∧ _))

/-- Words and names that are plain, and values that are plain unless they are empty. -/
def PlainTexts (simple : Simple) : Prop :=
  (∀ word ∈ simple.words, Plain word.text) ∧
    ∀ assignment ∈ simple.assignments,
      Plain assignment.name ∧ (assignment.value.text = "" ∨ Plain assignment.value.text)

/-- The characters that no part of a simple command has: all of these but the equals sign. -/
def partMarks : List Char := [' ', '\n', ';', '&', '|', '(', ')', '\x7b', '\x7d', '!']

/-! ## What can follow -/

/-- What can follow a list. -/
inductive EndsList : List Char → Prop
  | nil : EndsList []
  | mark {c : Char} {rest : List Char} (mark : c = ';' ∨ c = '&' ∨ c = ')') : EndsList (c :: rest)

/-- What can follow a pipeline: the end of its list, or a link. -/
inductive EndsPipeline : List Char → Prop
  | list {rest : List Char} (ends : EndsList rest) : EndsPipeline rest
  | link {connective : Connective} {rest : List Char} :
    EndsPipeline (' ' :: (connective.operator.toList ++ ' ' :: rest))

/-- What can follow a command: the end of its pipeline, or a pipe. -/
inductive EndsCommand : List Char → Prop
  | pipeline {rest : List Char} (ends : EndsPipeline rest) : EndsCommand rest
  | pipe {rest : List Char} : EndsCommand (' ' :: '|' :: ' ' :: rest)

theorem EndsList.stops {rest : List Char} (ends : EndsList rest) : Stops partMarks rest := by
  cases ends with
  | nil => simp
  | mark mark => rcases mark with rfl | rfl | rfl <;> simp [partMarks]

/-- A space goes on with a list. -/
theorem EndsList.ne_space {rest : List Char} (ends : EndsList rest) (more : List Char) : rest ≠ ' ' :: more := by
  rintro rfl
  have stops : ¬ (' ' = ';' ∨ ' ' = '&' ∨ ' ' = ')') := by decide
  cases ends with
  | mark mark => exact stops mark

/-- No part of a simple command goes on with what follows the command. -/
theorem EndsCommand.stops {rest : List Char} (ends : EndsCommand rest) : Stops partMarks rest := by
  cases ends with
  | pipe => simp [partMarks]
  | pipeline ends =>
    cases ends with
    | link => simp [partMarks]
    | list ends => exact ends.stops

/-- What follows a command does not start with another part. -/
theorem EndsCommand.stops_tail {rest : List Char} (ends : EndsCommand (' ' :: rest)) : Stops partMarks rest := by
  generalize whole : ' ' :: rest = text at ends
  cases ends with
  | pipe =>
    obtain ⟨_, rfl⟩ := List.cons.inj whole
    simp [partMarks]
  | pipeline ends =>
    cases ends with
    | @link connective more =>
      obtain ⟨_, rfl⟩ := List.cons.inj whole
      cases connective <;> simp [Connective.operator, partMarks]
    | list ends => exact absurd whole.symm (ends.ne_space rest)

/-! ## Simple commands -/

/-- Behind one part there is a space and another part, or else the end of the command. -/
private theorem ends_of_parts {texts : List String} {rest : List Char} (nonempty : texts ≠ [])
    (parts : ∀ text ∈ texts, text ≠ "" ∧ Avoids partMarks text) :
    ¬ EndsCommand (' ' :: ((" ".intercalate texts).toList ++ rest)) := by
  intro ends
  obtain ⟨c, more, chars, apart⟩ := exists_head_intercalate nonempty parts
  have stops := ends.stops_tail
  rw [chars, List.cons_append, stops_cons] at stops
  exact apart stops

/-- The parts of a simple command, with spaces between them, are determined by their text. -/
theorem intercalate_append_inj {texts others : List String} {rest rest' : List Char} (nonempty : texts ≠ [])
    (nonempty' : others ≠ []) (parts : ∀ text ∈ texts, text ≠ "" ∧ Avoids partMarks text)
    (parts' : ∀ text ∈ others, text ≠ "" ∧ Avoids partMarks text) (ends : EndsCommand rest)
    (ends' : EndsCommand rest')
    (same : (" ".intercalate texts).toList ++ rest = (" ".intercalate others).toList ++ rest') :
    texts = others ∧ rest = rest' := by
  have space : ' ' ∈ partMarks := by decide
  induction texts generalizing others with
  | nil => contradiction
  | cons text more ih =>
    obtain ⟨text', more', rfl⟩ := List.exists_cons_of_ne_nil nonempty'
    rw [List.forall_mem_cons] at parts parts'
    cases more with
    | nil =>
      rw [String.intercalate_singleton] at same
      cases more' with
      | nil =>
        rw [String.intercalate_singleton] at same
        obtain ⟨chars, rfl⟩ := append_inj_of_stops parts.1.2 parts'.1.2 ends.stops ends'.stops same
        exact ⟨by rw [String.toList_inj.mp chars], rfl⟩
      | cons next' more' =>
        simp only [String.intercalate_cons_cons, String.toList_append, List.append_assoc] at same
        obtain ⟨_, rfl⟩ := append_inj_of_stops parts.1.2 parts'.1.2 ends.stops (stops_cons.mpr space) same
        exact absurd ends (ends_of_parts (List.cons_ne_nil next' more') parts'.2)
    | cons next more =>
      simp only [String.intercalate_cons_cons, String.toList_append, List.append_assoc] at same
      cases more' with
      | nil =>
        rw [String.intercalate_singleton] at same
        obtain ⟨_, rfl⟩ := append_inj_of_stops parts.1.2 parts'.1.2 (stops_cons.mpr space) ends'.stops same
        exact absurd ends' (ends_of_parts (List.cons_ne_nil next more) parts.2)
      | cons next' more' =>
        simp only [String.intercalate_cons_cons, String.toList_append, List.append_assoc] at same
        obtain ⟨chars, same⟩ :=
          append_inj_of_stops parts.1.2 parts'.1.2 (stops_cons.mpr space) (stops_cons.mpr space) same
        obtain ⟨texts, rfl⟩ := ih (List.cons_ne_nil next more) (List.cons_ne_nil next' more') parts.2 parts'.2
          (List.cons.inj same).2
        exact ⟨by rw [String.toList_inj.mp chars, texts], rfl⟩

theorem Plain.avoids {text : String} (plain : Plain text) : Avoids partMarks text :=
  plain.2.subset (by decide)

theorem Plain.no_equals {text : String} (plain : Plain text) : ∀ c ∈ text.toList, c ∉ ['='] :=
  plain.2.subset (by decide)

theorem PlainTexts.shows {simple : Simple} (plain : PlainTexts simple) : Shows partMarks simple := by
  refine ⟨fun word member => ⟨(plain.1 word member).1, (plain.1 word member).avoids⟩, ?_⟩
  intro assignment member
  obtain ⟨name, value⟩ := plain.2 assignment member
  refine ⟨name.avoids, ?_⟩
  rcases value with empty | value
  · simp [empty, Avoids]
  · exact value.avoids

/-- A plain word is bare up to its text. -/
theorem Word.bare_of_plain {word : Word} (plain : Plain word.text) : word.bare = .literal word.text := by
  have fragments : word.fragments ≠ [] := by
    intro empty
    exact plain.1 (by simp [Word.text, empty])
  simp [Word.bare, fragments]

/-- An assignment whose name is plain is determined by its text, up to how its value is divided. -/
theorem Assignment.bare_eq_of_text {first second : Assignment} (plain : Plain first.name)
    (plain' : Plain second.name) (same : first.text = second.text) : first.bare = second.bare := by
  have chars := congrArg String.toList same
  simp only [Assignment.text, String.toList_append, List.append_assoc] at chars
  have equals (rest : List Char) : Stops ['='] ("=".toList ++ rest) := stops_cons.mpr List.mem_cons_self
  obtain ⟨name, value⟩ := append_inj_of_stops plain.no_equals plain'.no_equals (equals _) (equals _) chars
  have text : first.value.text = second.value.text := String.toList_inj.mp (List.cons.inj value).2
  rw [Assignment.bare, Assignment.bare, text, String.toList_inj.mp name]

/-- An assignment has an equals sign, a plain word has none. -/
theorem Assignment.text_ne_of_plain {assignment : Assignment} {text : String} (plain : Plain text) :
    assignment.text ≠ text := by
  intro same
  have member : '=' ∈ assignment.text.toList := by simp [Assignment.text]
  rw [same] at member
  exact plain.no_equals '=' member (by decide)

/-- The parts of a simple command determine which of them are assignments. -/
theorem parts_inj {assignments assignments' : List Assignment} {words words' : List Word}
    (plain : PlainTexts ⟨assignments, words⟩) (plain' : PlainTexts ⟨assignments', words'⟩)
    (same : assignments.map Assignment.text ++ words.map Word.text =
      assignments'.map Assignment.text ++ words'.map Word.text) :
    assignments.map Assignment.bare = assignments'.map Assignment.bare ∧
      words.map Word.bare = words'.map Word.bare := by
  induction assignments generalizing assignments' with
  | nil =>
    cases assignments' with
    | nil =>
      have bare {words : List Word} (plain : ∀ word ∈ words, Plain word.text) :
          words.map Word.bare = (words.map Word.text).map Word.literal := by
        rw [List.map_map]
        exact List.map_congr_left fun word member => Word.bare_of_plain (plain word member)
      refine ⟨rfl, ?_⟩
      rw [bare plain.1, bare plain'.1]
      exact congrArg (List.map Word.literal) same
    | cons assignment rest =>
      obtain ⟨word, others, rfl⟩ : ∃ word others, words = word :: others :=
        List.exists_cons_of_ne_nil fun empty => by simp [empty] at same
      have text := (List.cons.inj same).1
      exact absurd text.symm (Assignment.text_ne_of_plain (plain.1 word List.mem_cons_self))
  | cons assignment rest ih =>
    cases assignments' with
    | nil =>
      obtain ⟨word, others, rfl⟩ : ∃ word others, words' = word :: others :=
        List.exists_cons_of_ne_nil fun empty => by simp [empty] at same
      have text := (List.cons.inj same).1
      exact absurd text (Assignment.text_ne_of_plain (plain'.1 word List.mem_cons_self))
    | cons assignment' rest' =>
      obtain ⟨text, same⟩ := List.cons.inj same
      obtain ⟨name, values⟩ := List.forall_mem_cons.mp plain.2
      obtain ⟨name', values'⟩ := List.forall_mem_cons.mp plain'.2
      have plainRest : PlainTexts ⟨rest, words⟩ := ⟨plain.1, values⟩
      have plainRest' : PlainTexts ⟨rest', words'⟩ := ⟨plain'.1, values'⟩
      obtain ⟨others, bare⟩ := ih plainRest plainRest' same
      refine ⟨?_, bare⟩
      rw [List.map_cons, List.map_cons, others, Assignment.bare_eq_of_text name.1 name'.1 text]

end ShellTree
