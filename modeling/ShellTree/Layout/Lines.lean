/-!
# Lines that are put on one

A text on several lines is put on one line by taking the indentation away and joining the lines with
spaces. Only a closing brace needs more: where lines are real, the line break in front of it also ends
the list there, so a `;` has to come back, unless the list is ended by `&` anyway.

`rejoined` says this of the lines of a text. `unbroken` reads the text once from left to right and
gives the same.
-/

namespace ShellTree

def dedented (line : List Char) : List Char := line.dropWhile (· == ' ')

/-- The number of spaces in front of a line. -/
def indentation (line : List Char) : Nat := (line.takeWhile (· == ' ')).length

/-- The lines of a text; a text without line breaks is one line. -/
def linesOf (text : List Char) : List (List Char) := text.splitOn '\n'

@[simp] theorem linesOf_newline (rest : List Char) : linesOf ('\n' :: rest) = [] :: linesOf rest := by
  rw [linesOf, List.splitOn_cons_eq_if_modifyHead, if_pos (beq_self_eq_true '\n')]
  rfl

/-- A character that is no line break goes in front of the first line. -/
theorem linesOf_cons {c : Char} {rest line : List Char} {lines : List (List Char)} (inline : c ≠ '\n')
    (parts : linesOf rest = line :: lines) : linesOf (c :: rest) = (c :: line) :: lines := by
  have behind : rest.splitOn '\n' = line :: lines := parts
  rw [linesOf, List.splitOn_cons_eq_if_modifyHead, if_neg (by simpa using inline), behind]
  rfl

theorem linesOf_append {front rest line : List Char} {lines : List (List Char)} (inline : ∀ c ∈ front, c ≠ '\n')
    (parts : linesOf rest = line :: lines) : linesOf (front ++ rest) = (front ++ line) :: lines := by
  induction front with
  | nil => exact parts
  | cons c front ih =>
    rw [List.forall_mem_cons] at inline
    exact linesOf_cons inline.1 (ih inline.2)

theorem linesOf_indented (count : Nat) {rest line : List Char} {lines : List (List Char)}
    (parts : linesOf rest = line :: lines) :
    linesOf (List.replicate count ' ' ++ rest) = (List.replicate count ' ' ++ line) :: lines :=
  linesOf_append (by simp [List.mem_replicate]) parts

theorem indentation_append {line : List Char} (count : Nat) (visible : ∀ c ∈ line.head?, c ≠ ' ') :
    indentation (List.replicate count ' ' ++ line) = count := by
  have stops : line.takeWhile (· == ' ') = [] := by
    cases line with
    | nil => rfl
    | cons c rest =>
      have apart : c ≠ ' ' := visible c rfl
      simp [apart]
  simp [indentation, List.takeWhile_append_of_pos, stops]

/-- What joins a line to the next one; `ampersand` says whether the line in front ends in `&`. -/
def joint (ampersand : Bool) (next : List Char) : List Char :=
  if next.head? = some '\x7d' ∧ ampersand = false then [';', ' '] else [' ']

def endsAsync (line : List Char) : Bool := line.getLast? == some '&'

/-- Lines in a row, joined; none is dedented. -/
def joined : List (List Char) → List Char
  | [] => []
  | [line] => line
  | line :: next :: rest => line ++ joint (endsAsync line) next ++ joined (next :: rest)

/-- The lines of a text put on one line, each but the first without its indentation. -/
def rejoined (text : String) : String :=
  match text.toList.splitOn '\n' with
  | [] => ""
  | line :: rest => String.ofList (joined (line :: rest.map dedented))

/-- A text from left to right, with a joint for each line break and the spaces behind it; `ampersand`
says whether the character in front is `&`. -/
def unbroken (ampersand : Bool) : List Char → List Char
  | [] => []
  | c :: rest =>
    if c = '\n' then joint ampersand (dedented rest) ++ unbroken false (dedented rest)
    else c :: unbroken (c == '&') rest
termination_by text => text.length
decreasing_by
  · exact Nat.lt_succ_of_le (List.dropWhile_sublist (· == ' ')).length_le
  · exact Nat.lt_succ_self rest.length

/-- Only the first line loses its indentation with the text. -/
theorem splitOn_dedented (text : List Char) :
    (dedented text).splitOn '\n' = (text.splitOn '\n').modifyHead dedented := by
  induction text with
  | nil => rfl
  | cons c rest ih =>
    by_cases space : c = ' '
    · have skip (line : List Char) : dedented (' ' :: line) = dedented line := rfl
      obtain ⟨line, lines, parts⟩ := List.exists_cons_of_ne_nil (List.splitOn_ne_nil '\n' rest)
      subst space
      rw [skip, ih, List.splitOn_cons_eq_if_modifyHead, parts]
      simp [skip]
    · have stay (line : List Char) : dedented (c :: line) = c :: line := by simp [dedented, space]
      rw [stay, List.splitOn_cons_eq_if_modifyHead]
      split
      · rfl
      · obtain ⟨line, lines, parts⟩ := List.exists_cons_of_ne_nil (List.splitOn_ne_nil '\n' rest)
        simp [parts, stay]

/-- A joint is decided by the first line that follows. -/
theorem joint_eq_of_splitOn {ampersand : Bool} {text line : List Char} {lines : List (List Char)}
    (parts : text.splitOn '\n' = line :: lines) : joint ampersand line = joint ampersand text := by
  cases text with
  | nil =>
    simp only [List.splitOn_nil, List.cons.injEq] at parts
    rw [parts.1]
  | cons c rest =>
    rw [List.splitOn_cons_eq_if_modifyHead] at parts
    split at parts
    · next newline =>
      obtain rfl := (List.cons.inj parts).1
      rw [beq_iff_eq] at newline
      simp [joint, newline]
    · obtain ⟨first, others, split⟩ := List.exists_cons_of_ne_nil (List.splitOn_ne_nil '\n' rest)
      rw [split] at parts
      obtain rfl := (List.cons.inj parts).1
      simp [joint]

/-- Joining the lines of a text is reading it from left to right, also when something of the first
line has been read before. -/
theorem joined_eq_unbroken (front text line : List Char) (lines : List (List Char))
    (parts : text.splitOn '\n' = line :: lines) :
    joined ((front ++ line) :: lines.map dedented) = front ++ unbroken (endsAsync front) text := by
  generalize flag : endsAsync front = ampersand
  fun_induction unbroken ampersand text generalizing front line lines with
  | case1 =>
    cases parts
    simp [joined]
  | case2 ampersand rest ih =>
    rw [List.splitOn_cons_eq_if_modifyHead, if_pos (beq_self_eq_true '\n')] at parts
    obtain ⟨rfl, rfl⟩ := List.cons.inj parts
    obtain ⟨next, others, split⟩ := List.exists_cons_of_ne_nil (List.splitOn_ne_nil '\n' rest)
    have apart : (dedented rest).splitOn '\n' = dedented next :: others := by
      rw [splitOn_dedented, split, List.modifyHead_cons]
    -- The line in front ends here, so nothing of the next one has been read.
    have later := ih [] (dedented next) others apart rfl
    rw [List.nil_append] at later
    rw [split, List.append_nil, List.map_cons, joined, later, flag, joint_eq_of_splitOn apart, List.append_assoc,
      List.nil_append]
  | case3 ampersand c rest inline ih =>
    rw [List.splitOn_cons_eq_if_modifyHead, if_neg (by simpa using inline)] at parts
    obtain ⟨first, others, split⟩ := List.exists_cons_of_ne_nil (List.splitOn_ne_nil '\n' rest)
    rw [split, List.modifyHead_cons] at parts
    obtain ⟨rfl, rfl⟩ := List.cons.inj parts
    have later := ih (front ++ [c]) first others split (by simp [endsAsync])
    rw [List.append_cons, later, List.append_assoc, List.singleton_append]

theorem rejoined_eq_unbroken (text : String) : rejoined text = String.ofList (unbroken false text.toList) := by
  obtain ⟨line, lines, parts⟩ := List.exists_cons_of_ne_nil (List.splitOn_ne_nil '\n' text.toList)
  have whole := joined_eq_unbroken [] text.toList line lines parts
  rw [List.nil_append, List.nil_append] at whole
  simp only [rejoined, parts, whole, endsAsync, List.getLast?_nil]
  rfl

/-! ## Reading the pieces of a text -/

variable {ampersand : Bool} {rest : List Char}

theorem unbroken_cons {c : Char} (inline : c ≠ '\n') :
    unbroken ampersand (c :: rest) = c :: unbroken (c == '&') rest := by
  rw [unbroken, if_neg inline]

/-- A text without a line break is read as it is. -/
theorem unbroken_append {text : List Char} (nonempty : text ≠ []) (inline : ∀ c ∈ text, c ≠ '\n' ∧ c ≠ '&') :
    unbroken ampersand (text ++ rest) = text ++ unbroken false rest := by
  induction text generalizing ampersand with
  | nil => contradiction
  | cons c others ih =>
    rw [List.forall_mem_cons] at inline
    have plain : (c == '&') = false := beq_eq_false_iff_ne.mpr inline.1.2
    rw [List.cons_append, unbroken_cons inline.1.1, plain]
    cases others with
    | nil => rfl
    | cons next others =>
      rw [ih (List.cons_ne_nil next others) inline.2]
      rfl

/-- A text that can stand at the start of a line behind its indentation, where it is no closing brace. -/
def Opens (text : List Char) : Prop := ∃ c rest, text = c :: rest ∧ c ≠ ' ' ∧ c ≠ '\x7d'

theorem opens_cons {c : Char} (visible : c ≠ ' ') (noBrace : c ≠ '\x7d') : Opens (c :: rest) :=
  ⟨c, rest, rfl, visible, noBrace⟩

theorem Opens.append {text : List Char} (opens : Opens text) (rest : List Char) : Opens (text ++ rest) := by
  obtain ⟨c, others, rfl, apart⟩ := opens
  exact ⟨c, others ++ rest, rfl, apart⟩

theorem dedented_indented (count : Nat) {c : Char} (visible : c ≠ ' ') :
    dedented (List.replicate count ' ' ++ c :: rest) = c :: rest := by
  simp [dedented, visible]

/-- A line break in front of anything but a brace is read as a space. -/
theorem unbroken_newline (count : Nat) (opens : Opens rest) :
    unbroken ampersand ('\n' :: (List.replicate count ' ' ++ rest)) = ' ' :: unbroken false rest := by
  obtain ⟨c, others, rfl, visible, noBrace⟩ := opens
  rw [unbroken, if_pos rfl, dedented_indented count visible, joint, if_neg (by simp [noBrace])]
  rfl

/-- A line break in front of a closing brace brings back the `;` that no `&` stands for. -/
theorem unbroken_newline_brace (count : Nat) :
    unbroken ampersand ('\n' :: (List.replicate count ' ' ++ '\x7d' :: rest)) =
      (bif ampersand then [' '] else [';', ' ']) ++ '\x7d' :: unbroken false rest := by
  rw [unbroken, if_pos rfl, dedented_indented count (by decide), unbroken_cons (by decide)]
  cases ampersand <;> rfl

end ShellTree
