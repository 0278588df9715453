import ShellTree.Layout.Lines

/-!
# The indentation of lines

How far the lines of a text are indented, and what becomes of that when texts are put together. A text
can stand behind another one on its first line, so what counts are the later lines: their indentations
are those of the parts, one after the other (`laterIndents_append`).
-/

namespace ShellTree

/-- The indentations of all lines but the first. -/
def laterIndents (text : List Char) : List Nat := (linesOf text).tail.map indentation

theorem exists_linesOf (text : List Char) : ∃ line lines, linesOf text = line :: lines :=
  List.exists_cons_of_ne_nil (List.splitOn_ne_nil '\n' text)

theorem linesOf_append_newline (text rest : List Char) :
    linesOf (text ++ '\n' :: rest) = linesOf text ++ linesOf rest := by
  induction text with
  | nil => exact linesOf_newline rest
  | cons c text ih =>
    by_cases newline : c = '\n'
    · subst newline
      rw [List.cons_append, linesOf_newline, linesOf_newline, ih, List.cons_append]
    · obtain ⟨line, lines, parts⟩ := exists_linesOf text
      rw [parts, List.cons_append] at ih
      rw [List.cons_append, linesOf_cons newline ih, linesOf_cons newline parts, List.cons_append]

theorem laterIndents_cons {c : Char} (inline : c ≠ '\n') (rest : List Char) :
    laterIndents (c :: rest) = laterIndents rest := by
  obtain ⟨line, lines, parts⟩ := exists_linesOf rest
  rw [laterIndents, laterIndents, linesOf_cons inline parts, parts]
  rfl

theorem laterIndents_indented (count : Nat) (rest : List Char) :
    laterIndents (List.replicate count ' ' ++ rest) = laterIndents rest := by
  induction count with
  | zero => rfl
  | succ count ih => exact (laterIndents_cons (by decide) _).trans ih

/-- What stands behind the indentation of a line begins the text or the line. -/
theorem map_indentation_of_head {text : List Char} (visible : ∀ c ∈ text.head?, c ≠ ' ') (count : Nat) :
    (linesOf (List.replicate count ' ' ++ text)).map indentation = count :: laterIndents text := by
  obtain ⟨line, lines, parts⟩ := exists_linesOf text
  have first : ∀ c ∈ line.head?, c ≠ ' ' := by
    cases text with
    | nil =>
      cases parts
      simp
    | cons c rest =>
      by_cases newline : c = '\n'
      · rw [newline, linesOf_newline] at parts
        cases parts
        simp
      · obtain ⟨next, others, behind⟩ := exists_linesOf rest
        rw [linesOf_cons newline behind] at parts
        cases parts
        simpa using visible
  rw [linesOf_indented count parts, laterIndents, parts, List.map_cons, indentation_append count first]
  rfl

theorem laterIndents_newline {rest : List Char} (visible : ∀ c ∈ rest.head?, c ≠ ' ') (count : Nat) :
    laterIndents ('\n' :: (List.replicate count ' ' ++ rest)) = count :: laterIndents rest := by
  rw [laterIndents, linesOf_newline, List.tail_cons, map_indentation_of_head visible]

theorem laterIndents_append {behind : List Char} (visible : ∀ c ∈ behind.head?, c ≠ ' ') (text : List Char) :
    laterIndents (text ++ behind) = laterIndents text ++ laterIndents behind := by
  have whole : (linesOf (text ++ behind)).map indentation = (linesOf text).map indentation ++ laterIndents behind := by
    induction text with
    | nil => exact map_indentation_of_head visible 0
    | cons c text ih =>
      by_cases newline : c = '\n'
      · subst newline
        rw [List.cons_append, linesOf_newline, linesOf_newline, List.map_cons, ih, List.map_cons, List.cons_append]
      · obtain ⟨line, lines, parts⟩ := exists_linesOf text
        obtain ⟨first, others, joined⟩ := exists_linesOf (text ++ behind)
        rw [parts, joined, List.map_cons, List.map_cons, List.cons_append, List.cons.injEq] at ih
        have deeper : indentation (c :: first) = indentation (c :: line) := by
          have same : (first.takeWhile (· == ' ')).length = (line.takeWhile (· == ' ')).length := ih.1
          by_cases space : c = ' '
          · simp [indentation, space, same]
          · simp [indentation, space]
        rw [List.cons_append, linesOf_cons newline joined, linesOf_cons newline parts, List.map_cons, List.map_cons,
          List.cons_append, deeper, ih.2]
  obtain ⟨line, lines, parts⟩ := exists_linesOf text
  have later : laterIndents text = lines.map indentation := by rw [laterIndents, parts, List.tail_cons]
  rw [parts] at whole
  rw [later, laterIndents, List.map_tail, whole]
  rfl

theorem length_laterIndents (text : List Char) : (laterIndents text).length = text.count '\n' := by
  induction text with
  | nil => rfl
  | cons c text ih =>
    by_cases newline : c = '\n'
    · obtain ⟨line, lines, parts⟩ := exists_linesOf text
      rw [laterIndents, parts] at ih
      rw [laterIndents, newline, linesOf_newline, parts, List.count_cons_self, ← ih]
      simp
    · rw [laterIndents_cons newline, ih, List.count_cons_of_ne newline]

/-! ## Lines between two others -/

/-- Of lines with the given indentations, the one numbered `last` is indented as the one numbered
`first`, and all lines between the two by four more at least. -/
structure Encloses (indents : List Nat) (first last : Nat) : Prop where
  aligned : indents.getD last 0 = indents.getD first 0
  deeper : ∀ number, first < number → number < last → indents.getD first 0 + 4 ≤ indents.getD number 0

namespace Encloses

variable {indents others : List Nat} {first last : Nat}

theorem append_left (encloses : Encloses indents first last) (front : List Nat) :
    Encloses (front ++ indents) (front.length + first) (front.length + last) := by
  have shifted (number : Nat) : (front ++ indents).getD (front.length + number) 0 = indents.getD number 0 := by
    simp [List.getD_eq_getElem?_getD, List.getElem?_append_right]
  constructor
  · rw [shifted, shifted, encloses.aligned]
  · intro number after before
    obtain ⟨step, rfl⟩ := Nat.exists_eq_add_of_le (show front.length ≤ number by omega)
    rw [shifted, shifted]
    exact encloses.deeper step (by omega) (by omega)

theorem append_right (encloses : Encloses indents first last) (ordered : first ≤ last)
    (inside : last < indents.length) :
    Encloses (indents ++ others) first last := by
  have stays (number : Nat) (within : number ≤ last) : (indents ++ others).getD number 0 = indents.getD number 0 := by
    simp [List.getD_eq_getElem?_getD, List.getElem?_append_left (show number < indents.length by omega)]
  constructor
  · rw [stays last (Nat.le_refl _), stays first ordered, encloses.aligned]
  · intro number after before
    rw [stays first ordered, stays number (Nat.le_of_lt before)]
    exact encloses.deeper number after before

/-- The first and the last of some lines, all others of which are deeper. -/
theorem of_deeper {inside : List Nat} {indent : Nat} (deeper : ∀ other ∈ inside, indent + 4 ≤ other) :
    Encloses (indent :: (inside ++ [indent])) 0 (inside.length + 1) := by
  constructor
  · simp [List.getD_eq_getElem?_getD]
  · intro number after before
    obtain ⟨index, rfl⟩ := Nat.exists_eq_succ_of_ne_zero (Nat.ne_of_gt after)
    have within : index < inside.length := by omega
    have found : (indent :: (inside ++ [indent])).getD (index + 1) 0 = inside[index] := by
      simp [List.getD_eq_getElem?_getD, List.getElem?_append_left within, within]
    rw [found]
    exact deeper _ (List.getElem_mem within)

end Encloses

end ShellTree
