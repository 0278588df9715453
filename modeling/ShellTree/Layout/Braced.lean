import ShellTree.Layout.Braces
import ShellTree.Sink.Basic

/-!
# Texts made of groups

`Braced` builds texts from the left to the right, a group with both of its braces at a time, and keeps
track of the level of the line that is written on. The braces of such a text are aligned, if it begins
on a line without indentation (`Braced.bracesAligned`).
-/

namespace ShellTree

/-- What stands between the braces of a group that is opened on a line of level `line`. -/
def groupBody (line : Nat) (inside : List Char) : List Char :=
  '\n' :: (List.replicate (indentWidth * (line + 1)) ' ' ++
    (inside ++ '\n' :: List.replicate (indentWidth * line) ' '))

/-- A text that begins on a line of level `line` and ends on one of level `last`, and of which no later
line is above the level `floor`. Braces come in pairs, each the braces of a group. -/
inductive Braced : (floor line : Nat) → List Char → (last : Nat) → Prop
  | nil {floor line : Nat} : Braced floor line [] line
  | char {floor line last : Nat} {c : Char} {rest : List Char} (plain : c ≠ '\n' ∧ c ≠ '\x7b' ∧ c ≠ '\x7d')
    (braced : Braced floor line rest last) : Braced floor line (c :: rest) last
  | newline {floor line level last : Nat} {rest : List Char} (deep : floor ≤ level) (opens : Opens rest)
    (braced : Braced floor level rest last) :
    Braced floor line ('\n' :: (List.replicate (indentWidth * level) ' ' ++ rest)) last
  | group {floor line last inner : Nat} {inside rest : List Char} (deep : floor ≤ line) (opens : Opens inside)
    (within : Braced (line + 1) (line + 1) inside inner) (braced : Braced floor line rest last) :
    Braced floor line ('\x7b' :: (groupBody line inside ++ '\x7d' :: rest)) last

theorem Opens.visible {text : List Char} (opens : Opens text) : ∀ c ∈ text.head?, c ≠ ' ' := by
  obtain ⟨c, rest, rfl, visible, _⟩ := opens
  simpa using visible

theorem laterIndents_groupBody {line : Nat} {inside : List Char} (opens : Opens inside) :
    laterIndents (groupBody line inside) =
      indentWidth * (line + 1) :: laterIndents inside ++ [indentWidth * line] := by
  have last : laterIndents ('\n' :: List.replicate (indentWidth * line) ' ') = [indentWidth * line] := by
    have alone := @laterIndents_newline [] (by simp) (indentWidth * line)
    rwa [List.append_nil] at alone
  rw [groupBody, laterIndents_newline (opens.append _).visible, laterIndents_append (by simp), last]
  rfl

theorem laterIndents_group {line : Nat} {inside : List Char} (rest : List Char) :
    laterIndents ('\x7b' :: (groupBody line inside ++ '\x7d' :: rest)) =
      laterIndents (groupBody line inside) ++ laterIndents rest := by
  rw [laterIndents_cons (by decide), laterIndents_append (by simp), laterIndents_cons (by decide)]

namespace Braced

variable {floor line middle last : Nat} {text rest : List Char}

theorem append (braced : Braced floor line text middle) (behind : Braced floor middle rest last) :
    Braced floor line (text ++ rest) last := by
  induction braced with
  | nil => exact behind
  | char plain _ ih => exact .char plain (ih behind)
  | newline deep opens _ ih =>
    rw [List.cons_append, List.append_assoc]
    exact .newline deep (opens.append rest) (ih behind)
  | group deep opens within _ _ ih =>
    rw [List.cons_append, List.append_assoc, List.cons_append]
    exact .group deep opens within (ih behind)

theorem of_plain (plain : ∀ c ∈ text, c ≠ '\n' ∧ c ≠ '\x7b' ∧ c ≠ '\x7d') : Braced floor line text line := by
  induction text with
  | nil => exact .nil
  | cons c rest ih =>
    rw [List.forall_mem_cons] at plain
    exact .char plain.1 (ih plain.2)

theorem floor_le (braced : Braced floor line text last) (deep : floor ≤ line) : floor ≤ last := by
  induction braced with
  | nil => exact deep
  | char _ _ ih => exact ih deep
  | newline below _ _ ih => exact ih below
  | group _ _ _ _ _ ih => exact ih deep

theorem le_laterIndents (braced : Braced floor line text last) :
    ∀ indent ∈ laterIndents text, indentWidth * floor ≤ indent := by
  induction braced with
  | nil => simp [laterIndents, linesOf]
  | char plain _ ih =>
    rw [laterIndents_cons plain.1]
    exact ih
  | newline deep opens _ ih =>
    rw [laterIndents_newline opens.visible, List.forall_mem_cons]
    exact ⟨Nat.mul_le_mul_left indentWidth deep, ih⟩
  | @group floor line _ _ inside rest deep opens _ _ ihInside ih =>
    have own : indentWidth * floor ≤ indentWidth * line := Nat.mul_le_mul_left indentWidth deep
    have body : indentWidth * line ≤ indentWidth * (line + 1) := Nat.mul_le_mul_left indentWidth (Nat.le_succ line)
    rw [laterIndents_group, laterIndents_groupBody opens]
    intro indent member
    simp only [List.cons_append, List.mem_cons, List.mem_append, List.not_mem_nil, or_false] at member
    rcases member with rfl | (inner | rfl) | later
    · omega
    · exact Nat.le_trans (Nat.le_trans own body) (ihInside indent inner)
    · exact own
    · exact ih indent later

theorem balanced_newline (count : Nat) (balanced : Balanced rest) :
    Balanced ('\n' :: (List.replicate count ' ' ++ rest)) := by
  have spaces : Balanced (List.replicate count ' ') := .of_plain (by simp [List.mem_replicate])
  exact .char (by decide) (spaces.append balanced)

theorem balanced_groupBody {inside : List Char} (balanced : Balanced inside) (line : Nat) :
    Balanced (groupBody line inside) := by
  have last := balanced_newline (indentWidth * line) .nil
  rw [List.append_nil] at last
  exact balanced_newline _ (balanced.append last)

theorem balanced (braced : Braced floor line text last) : Balanced text := by
  induction braced with
  | nil => exact .nil
  | char plain _ ih => exact .char plain.2 ih
  | newline _ _ _ ih => exact balanced_newline _ ih
  | group _ _ _ _ ihInside ih => exact .pair (balanced_groupBody ihInside _) ih

end Braced

/-! ## The lines of such texts -/

/-- The rest of a line on which something stands already: no brace can be closed on it. -/
structure BracePart (line : List Char) : Prop where
  opening : '\x7b' ∉ line.dropLast
  unclosed : '\x7d' ∉ line

namespace BracePart

variable {line : List Char}

theorem cons {c : Char} (plain : c ≠ '\x7b' ∧ c ≠ '\x7d') (part : BracePart line) : BracePart (c :: line) := by
  constructor
  · cases line with
    | nil => simp
    | cons next rest =>
      rw [List.dropLast_cons_cons, List.mem_cons, not_or]
      exact ⟨plain.1.symm, part.opening⟩
  · rw [List.mem_cons, not_or]
    exact ⟨plain.2.symm, part.unclosed⟩

theorem indented (part : BracePart line) (count : Nat) : BracePart (List.replicate count ' ' ++ line) := by
  induction count with
  | zero => exact part
  | succ count ih => exact ih.cons (by decide)

theorem braceLine (part : BracePart line) : BraceLine line := by
  refine ⟨part.opening, fun member => part.unclosed ?_⟩
  exact (List.dropWhile_sublist _).subset (List.mem_of_mem_tail member)

/-- Behind its indentation a line can begin with a closing brace. -/
theorem closing (part : BracePart line) (count : Nat) : BraceLine (List.replicate count ' ' ++ '\x7d' :: line) := by
  constructor
  · have plain : '\x7b' ∉ ('\x7d' :: line).dropLast := by
      cases line with
      | nil => simp
      | cons next rest =>
        rw [List.dropLast_cons_cons, List.mem_cons, not_or]
        exact ⟨by decide, part.opening⟩
    rw [List.dropLast_append_of_ne_nil (List.cons_ne_nil _ _), List.mem_append, not_or]
    exact ⟨by simp [List.mem_replicate], plain⟩
  · rw [dedented_indented count (by decide)]
    exact part.unclosed

end BracePart

theorem Braced.exists_lines {floor line last : Nat} {text : List Char} (braced : Braced floor line text last) :
    ∃ first lines, linesOf text = first :: lines ∧ BracePart first ∧ ∀ later ∈ lines, BraceLine later := by
  induction braced with
  | nil => exact ⟨[], [], rfl, ⟨by simp, by simp⟩, nofun⟩
  | @char _ _ _ c _ plain _ ih =>
    obtain ⟨first, lines, parts, part, later⟩ := ih
    exact ⟨c :: first, lines, linesOf_cons plain.1 parts, part.cons plain.2, later⟩
  | newline _ _ _ ih =>
    obtain ⟨first, lines, parts, part, later⟩ := ih
    refine ⟨[], _, linesOf_newline _, ⟨by simp, by simp⟩, ?_⟩
    rw [linesOf_indented _ parts, List.forall_mem_cons]
    exact ⟨(part.indented _).braceLine, later⟩
  | @group _ line _ _ inside rest _ _ _ _ ihInside ih =>
    obtain ⟨inner, inners, insideParts, innerPart, innerLater⟩ := ihInside
    obtain ⟨first, lines, parts, part, later⟩ := ih
    have text : '\x7b' :: (groupBody line inside ++ '\x7d' :: rest) =
        ['\x7b'] ++ '\n' :: (List.replicate (indentWidth * (line + 1)) ' ' ++ inside ++
          '\n' :: (List.replicate (indentWidth * line) ' ' ++ '\x7d' :: rest)) := by
      simp [groupBody]
    have closing : linesOf ('\x7d' :: rest) = ('\x7d' :: first) :: lines := linesOf_cons (by decide) parts
    have all : linesOf ('\x7b' :: (groupBody line inside ++ '\x7d' :: rest)) = ['\x7b'] ::
        ((List.replicate (indentWidth * (line + 1)) ' ' ++ inner) :: inners ++
          (List.replicate (indentWidth * line) ' ' ++ '\x7d' :: first) :: lines) := by
      rw [text, linesOf_append_newline, linesOf_append_newline, linesOf_indented _ insideParts,
        linesOf_indented _ closing]
      rfl
    refine ⟨['\x7b'], _, all, ⟨by simp, by simp⟩, ?_⟩
    intro other member
    rcases List.mem_append.mp member with body | close
    · rcases List.mem_cons.mp body with rfl | body
      · exact (innerPart.indented _).braceLine
      · exact innerLater other body
    · rcases List.mem_cons.mp close with rfl | close
      · exact part.closing _
      · exact later other close

theorem Braced.braceLines {floor line last : Nat} {text : List Char} (braced : Braced floor line text last) :
    ∀ line ∈ linesOf text, BraceLine line := by
  obtain ⟨first, lines, parts, part, later⟩ := braced.exists_lines
  rw [parts, List.forall_mem_cons]
  exact ⟨part.braceLine, later⟩

/-! ## Partners in such texts -/

/-- Behind something that stands on a line with an indentation, any two partners of a text are aligned. -/
def PartnersAligned (indent : Nat) (text : List Char) : Prop :=
  ∀ before inside behind, text = before ++ '\x7b' :: (inside ++ '\x7d' :: behind) → Balanced inside →
    Encloses (indent :: laterIndents text) (before.count '\n') ((before ++ '\x7b' :: inside).count '\n')

namespace PartnersAligned

variable {indent : Nat} {text rest : List Char}

theorem char {c : Char} (plain : c ≠ '\n' ∧ c ≠ '\x7b') (aligned : PartnersAligned indent rest) :
    PartnersAligned indent (c :: rest) := by
  intro before inside behind split within
  cases before with
  | nil => exact absurd (List.cons.inj split).1 plain.2
  | cons d before =>
    obtain ⟨rfl, cut⟩ := List.cons.inj split
    have later := aligned before inside behind cut within
    rw [laterIndents_cons plain.1, List.cons_append, List.count_cons_of_ne plain.1, List.count_cons_of_ne plain.1]
    exact later

theorem indented (aligned : PartnersAligned indent rest) (count : Nat) :
    PartnersAligned indent (List.replicate count ' ' ++ rest) := by
  induction count with
  | zero => exact aligned
  | succ count ih => exact ih.char (by decide)

theorem newline {count : Nat} (visible : ∀ c ∈ rest.head?, c ≠ ' ') (aligned : PartnersAligned count rest) :
    PartnersAligned indent ('\n' :: (List.replicate count ' ' ++ rest)) := by
  intro before inside behind split within
  cases before with
  | nil => exact absurd (List.cons.inj split).1 (by decide)
  | cons d before =>
    obtain ⟨rfl, cut⟩ := List.cons.inj split
    have later := (aligned.indented count before inside behind cut within).append_left [indent]
    rw [laterIndents_newline visible, List.cons_append, List.count_cons_self, List.count_cons_self]
    rw [laterIndents_indented] at later
    simpa [Nat.add_comm] using later

/-- What has no closing brace in it adds no partners. -/
theorem append (aligned : PartnersAligned indent text) (visible : ∀ c ∈ rest.head?, c ≠ ' ')
    (unclosed : '\x7d' ∉ rest) : PartnersAligned indent (text ++ rest) := by
  intro before inside behind split within
  obtain ⟨more, rfl⟩ : ∃ more, text = (before ++ '\x7b' :: inside) ++ '\x7d' :: more := by
    have cut : text ++ rest = (before ++ '\x7b' :: inside) ++ '\x7d' :: behind := by
      rw [split, List.append_assoc, List.cons_append]
    rcases List.append_eq_append_iff.mp cut with ⟨more, _, found⟩ | ⟨more, rfl, tail⟩
    · exact absurd (by simp [found]) unclosed
    · cases more with
      | nil =>
        rw [List.nil_append] at tail
        exact absurd (tail ▸ List.mem_cons_self) unclosed
      | cons c more =>
        obtain rfl := (List.cons.inj tail).1
        exact ⟨more, rfl⟩
  have encloses := aligned before inside more (by simp) within
  rw [laterIndents_append visible]
  refine encloses.append_right ?_ ?_
  · rw [List.count_append]
    omega
  · rw [List.length_cons, length_laterIndents]
    exact Nat.lt_succ_of_le ((List.sublist_append_left _ _).count_le _)

theorem body {level : Nat} (opens : Opens text) (aligned : PartnersAligned (indentWidth * (level + 1)) text) :
    PartnersAligned indent (groupBody level text) := by
  have closed : '\x7d' ∉ '\n' :: List.replicate (indentWidth * level) ' ' := by simp [List.mem_replicate]
  exact (aligned.append (by simp) closed).newline (opens.append _).visible

/-- The braces of a group enclose its body. -/
theorem encloses_groupBody {level : Nat} (opens : Opens text)
    (deeper : ∀ other ∈ laterIndents text, indentWidth * (level + 1) ≤ other) :
    Encloses (indentWidth * level :: laterIndents (groupBody level text)) 0 ((groupBody level text).count '\n') := by
  have width : indentWidth * level + 4 = indentWidth * (level + 1) := rfl
  have inner : ∀ other ∈ indentWidth * (level + 1) :: laterIndents text, indentWidth * level + 4 ≤ other := by
    rw [List.forall_mem_cons, width]
    exact ⟨Nat.le_refl _, deeper⟩
  rw [← length_laterIndents, laterIndents_groupBody opens, List.length_append]
  exact .of_deeper inner

theorem group {level : Nat} {inside : List Char} (opens : Opens inside)
    (deeper : ∀ other ∈ laterIndents inside, indentWidth * (level + 1) ≤ other) (balanced : Balanced inside)
    (within : PartnersAligned (indentWidth * (level + 1)) inside)
    (aligned : PartnersAligned (indentWidth * level) rest) :
    PartnersAligned (indentWidth * level) ('\x7b' :: (groupBody level inside ++ '\x7d' :: rest)) := by
  have whole : Balanced (groupBody level inside) := Braced.balanced_groupBody balanced level
  have outside (lines : List Char) : ('\x7b' :: lines).count '\n' = lines.count '\n' :=
    List.count_cons_of_ne (by decide)
  intro before between behind split partners
  rw [laterIndents_group, ← List.cons_append]
  cases before with
  | nil =>
    -- The pair is the group's own, since its opening brace has no other partner.
    obtain rfl := partners.inside_unique whole (List.cons.inj split).2.symm
    have own := encloses_groupBody opens deeper
    rw [List.nil_append, outside]
    exact own.append_right (Nat.zero_le _) (by simp [length_laterIndents])
  | cons c before =>
    obtain ⟨rfl, cut⟩ := List.cons.inj split
    rw [List.cons_append, List.cons_append, outside, outside]
    -- Any other pair is inside the body or behind the group, and what is added around it moves its lines.
    rcases whole.split_pair partners cut with ⟨more, inner⟩ | ⟨more, rfl, outer⟩
    · have inBody : PartnersAligned (indentWidth * level) (groupBody level inside) := within.body opens
      have own := inBody before between more inner partners
      have fits : (before ++ '\x7b' :: between).count '\n' ≤ (groupBody level inside).count '\n' := by
        rw [inner, List.count_append, List.count_append, outside, outside, List.count_append]
        omega
      refine own.append_right ?_ ?_
      · rw [List.count_append]
        omega
      · rw [List.length_cons, length_laterIndents]
        omega
    · have own := aligned more between behind outer partners
      have front : (indentWidth * level :: indentWidth * (level + 1) :: laterIndents inside).length =
          (groupBody level inside ++ ['\x7d']).count '\n' := by
        rw [List.count_append, ← length_laterIndents, laterIndents_groupBody opens]
        simp
      have later := own.append_left (indentWidth * level :: indentWidth * (level + 1) :: laterIndents inside)
      rw [front] at later
      simpa [laterIndents_groupBody opens] using later

end PartnersAligned

namespace Braced

variable {floor line last : Nat} {text : List Char}

theorem partnersAligned (braced : Braced floor line text last) : PartnersAligned (indentWidth * line) text := by
  induction braced with
  | nil =>
    intro before inside behind split _
    simp at split
  | char plain _ ih => exact ih.char ⟨plain.1, plain.2.1⟩
  | newline _ opens _ ih => exact ih.newline opens.visible
  | group _ opens within _ ihInside ih => exact .group opens within.le_laterIndents within.balanced ihInside ih

theorem bracesAligned (braced : Braced 0 0 text last) (visible : ∀ c ∈ text.head?, c ≠ ' ') : BracesAligned text := by
  have indents : (linesOf text).map indentation = 0 :: laterIndents text := map_indentation_of_head visible 0
  refine ⟨braced.braceLines, braced.balanced, fun before inside behind split within => ?_⟩
  rw [indents]
  exact braced.partnersAligned before inside behind split within

end Braced

end ShellTree
