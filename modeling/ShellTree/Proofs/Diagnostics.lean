import Mathlib
import ShellTree.Address
import ShellTree.Text.Stops

/-!
# Telling issues apart by their texts

The text of an issue can be taken apart again, whatever the name of the file in it is. The address has no
space and no colon, so it ends at the first of these; the defect is known by its last characters; and of what
is left between them, the line and the column are behind the last two colons. So different issues have
different texts.
-/

namespace ShellTree

/-! ## Locations -/

/-- The file of a location, with the colon that stands behind it. -/
def Location.opening (location : Location) : List Char :=
  match location.file with
  | some file => file.toList ++ [':']
  | none => []

theorem Location.toList_text (location : Location) :
    location.text.toList = location.opening ++ location.line.toNat.repr.toList ++ [':'] ++
      location.column.toNat.repr.toList := by
  cases known : location.file <;> simp [text, opening, known]

theorem Location.stops_opening (location : Location) : Stops [':'] location.opening.reverse := by
  cases known : location.file <;> simp [opening, known]

theorem Location.file_eq_of_opening_eq {location other : Location} (same : location.opening = other.opening) :
    location.file = other.file := by
  cases known : location.file <;> cases known' : other.file <;> simp_all [opening, String.toList_inj]

/-- Locations are told apart by their texts: a line and a column have no colon. -/
theorem Location.text_injective {location other : Location} (same : location.text = other.text) :
    location = other := by
  have noColon (number : Nat) : ∀ c ∈ number.repr.toList, c ∉ [':'] := by
    intro c member colon
    rw [List.mem_singleton.mp colon] at member
    exact absurd (isDigit_of_mem_repr member) (by decide)
  rw [← String.toList_inj, toList_text, toList_text] at same
  obtain ⟨front, column⟩ := append_inj_of_stops_reverse (by simp) (by simp) (noColon _) (noColon _) same
  obtain ⟨opening, line⟩ := append_inj_of_stops_reverse location.stops_opening other.stops_opening (noColon _)
    (noColon _) (List.append_cancel_right front)
  have file := file_eq_of_opening_eq opening
  rw [String.toList_inj, Nat.repr_inj, UInt32.toNat_inj] at line column
  cases location
  cases other
  simp_all

/-! ## Issues -/

/-- The last characters of the wording of a defect. -/
def Defect.ending : Defect → List Char
  | .emptyPipeline => ['m', 'a', 'n', 'd', 's']
  | .emptyCommand => ['m', 'e', 'n', 't', 's']
  | .emptyWord => ['n', 'e', 'n', 't', 's']
  | .emptyAssignmentName => [' ', 'n', 'a', 'm', 'e']
  | .emptyBody => [' ', 'b', 'o', 'd', 'y']

theorem Defect.ending_suffix (defect : Defect) : defect.ending <:+ defect.text.toList := by
  cases defect <;> decide

theorem Defect.eq_of_ending_eq {defect other : Defect} (same : defect.ending = other.ending) : defect = other := by
  cases defect <;> cases other <;> simp [ending] at same ⊢

/-- A defect is known by the last characters of its wording. -/
theorem Defect.append_text_inj {defect other : Defect} {front front' : List Char}
    (same : front ++ defect.text.toList = front' ++ other.text.toList) : front = front' ∧ defect = other := by
  have ends : defect.ending <:+ front' ++ other.text.toList := by
    rw [← same]
    exact defect.ending_suffix.trans (List.suffix_append ..)
  have ends' : other.ending <:+ front' ++ other.text.toList := other.ending_suffix.trans (List.suffix_append ..)
  have length : defect.ending.length = other.ending.length := by cases defect <;> cases other <;> rfl
  have ending := (List.suffix_of_suffix_length_le ends ends' length.le).eq_of_length length
  obtain rfl := eq_of_ending_eq ending
  exact ⟨List.append_cancel_right same, rfl⟩

namespace Issue

/-- What the text of an issue says behind the address. -/
def closing (issue : Issue) : List Char :=
  match issue.location with
  | some location => ' ' :: '(' :: (location.text.toList ++ [')', ':', ' ']) ++ issue.defect.text.toList
  | none => [':', ' '] ++ issue.defect.text.toList

theorem toList_text (issue : Issue) : issue.text.toList = issue.address.text.toList ++ issue.closing := by
  cases known : issue.location <;> simp [text, closing, known]

theorem stops_closing (issue : Issue) : Stops [' ', ':'] issue.closing := by
  cases known : issue.location <;> simp [closing, known]

theorem eq_of_closing_eq {issue other : Issue} (same : issue.closing = other.closing) :
    issue.defect = other.defect ∧ issue.location = other.location := by
  unfold closing at same
  cases known : issue.location with
  | none =>
    cases known' : other.location with
    | none =>
      simp only [known, known'] at same
      exact ⟨(Defect.append_text_inj same).2, rfl⟩
    | some location => simp [known, known'] at same
  | some location =>
    cases known' : other.location with
    | none => simp [known, known'] at same
    | some location' =>
      simp only [known, known'] at same
      obtain ⟨front, defect⟩ := Defect.append_text_inj same
      simp only [List.cons.injEq, true_and, List.append_cancel_right_eq, String.toList_inj] at front
      exact ⟨defect, by rw [Location.text_injective front]⟩

theorem text_injective {issue other : Issue} (same : issue.text = other.text) : issue = other := by
  have avoids (address : Address) : ∀ c ∈ address.text.toList, c ∉ [' ', ':'] := by
    intro c member
    simp only [List.mem_cons, List.not_mem_nil, or_false]
    rintro (rfl | rfl)
    · exact address.not_mem_text_of_mem_marks (by decide) (by decide) member
    · exact address.not_mem_text_of_mem_marks (by decide) (by decide) member
  rw [← String.toList_inj, toList_text, toList_text] at same
  obtain ⟨address, closing⟩ := append_inj_of_stops (avoids _) (avoids _) issue.stops_closing other.stops_closing same
  obtain ⟨defect, location⟩ := eq_of_closing_eq closing
  have way := Address.text_injective (String.toList_inj.mp address)
  cases issue
  cases other
  simp_all

end Issue

/-- Two issues of two scripts, or of one, that read the same are the same: they have the same defect, address
and location, whatever the names of files look like. Locations that read the same are the same too. -/
theorem Script.issues_told_apart (script other : Script) :
    (∀ issue ∈ script.issues, ∀ issue' ∈ other.issues, issue.text = issue'.text → issue = issue') ∧
      ∀ location location' : Location, location.text = location'.text → location = location' := by
  constructor
  · intro issue _ issue' _ same
    exact Issue.text_injective same
  · intro location location' same
    exact Location.text_injective same

/-- A file whose name reads like the end of an issue, and one that reads like a line. -/
theorem Script.issues_told_apart_colons :
    let place : Location := { file := some "a:1:2): word has no components", line := 3, column := 4 }
    let script : Script := [.mk (.mk false [.simple [] [{}] place]) [] .sequential]
    let other : Script := [.mk (.mk true [.simple [] [{}, .literal "b"] place]) [] .asynchronous]
    let text := "lists[0].pipeline.commands[0].words[0] (a:1:2): word has no components:3:4): word has no components"
    (∃ issue ∈ script.issues, ∃ issue' ∈ other.issues, issue.text = text ∧ issue'.text = text ∧ issue = issue') ∧
      ({ file := some "1", line := 2, column := 3 } : Location).text ≠
        ({ line := 1, column := 2 } : Location).text := by
  intro place script other text
  obtain ⟨issues, locations⟩ := Script.issues_told_apart script other
  constructor
  · let issue : Issue := ⟨.emptyWord, [.list 0, .pipeline, .command 0, .word 0], some place⟩
    have member : issue ∈ script.issues := by decide
    have member' : issue ∈ other.issues := by decide
    have reads : issue.text = text := by decide
    exact ⟨issue, member, issue, member', reads, reads, issues issue member issue member' rfl⟩
  · intro same
    exact absurd (locations _ _ same) (by decide)

end ShellTree
