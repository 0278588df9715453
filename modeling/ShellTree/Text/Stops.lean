/-!
# Texts up to a mark

Two texts in a row can be told apart if the first one has none of some marks and the second one starts with
a mark or is empty. The same holds from the end: if the second one has no mark, and the first one ends with
one or is empty.
-/

namespace ShellTree

/-- A text that is empty or starts with one of the given characters. -/
def Stops (marks rest : List Char) : Prop := ∀ c ∈ rest.head?, c ∈ marks

@[simp] theorem stops_nil {marks : List Char} : Stops marks [] := nofun

@[simp] theorem stops_cons {marks rest : List Char} {c : Char} : Stops marks (c :: rest) ↔ c ∈ marks := by
  simp [Stops]

/-- Two texts without marks are the same if what follows each is nothing or starts with a mark. -/
theorem append_inj_of_stops {marks first second rest rest' : List Char} (avoids : ∀ c ∈ first, c ∉ marks)
    (avoids' : ∀ c ∈ second, c ∉ marks) (stops : Stops marks rest) (stops' : Stops marks rest')
    (same : first ++ rest = second ++ rest') : first = second ∧ rest = rest' := by
  induction first generalizing second with
  | nil =>
    cases second with
    | nil => exact ⟨rfl, same⟩
    | cons c others =>
      rw [List.nil_append] at same
      rw [same, List.cons_append, stops_cons] at stops
      exact absurd stops (avoids' c List.mem_cons_self)
  | cons c others ih =>
    cases second with
    | nil =>
      rw [List.nil_append] at same
      rw [← same, List.cons_append, stops_cons] at stops'
      exact absurd stops' (avoids c List.mem_cons_self)
    | cons c' others' =>
      simp only [List.cons_append, List.cons.injEq] at same
      rw [List.forall_mem_cons] at avoids avoids'
      obtain ⟨rfl, rest⟩ := ih avoids.2 avoids'.2 same.2
      exact ⟨by rw [same.1], rest⟩

/-- Two texts without marks are the same if what stands in front of each is nothing or ends with a mark. -/
theorem append_inj_of_stops_reverse {marks first second rest rest' : List Char}
    (stops : Stops marks first.reverse) (stops' : Stops marks second.reverse) (avoids : ∀ c ∈ rest, c ∉ marks)
    (avoids' : ∀ c ∈ rest', c ∉ marks) (same : first ++ rest = second ++ rest') : first = second ∧ rest = rest' := by
  have backwards := congrArg List.reverse same
  rw [List.reverse_append, List.reverse_append] at backwards
  obtain ⟨behind, front⟩ := append_inj_of_stops (fun c member => avoids c (List.mem_reverse.mp member))
    (fun c member => avoids' c (List.mem_reverse.mp member)) stops stops' backwards
  exact ⟨List.reverse_inj.mp front, List.reverse_inj.mp behind⟩

end ShellTree
