import ShellTree.Layout.Indents

/-!
# Aligned braces

Braces are aligned if an opening brace ends its line, a closing one begins its line, the two stand
equally far to the right, and all lines between them stand further to the right.

Which closing brace goes with an opening one is said by what stands between them, which has to be
balanced. So an opening brace has one partner at most (`Balanced.inside_unique`), and two partners are
on the same side of a brace that closes a balanced text (`Balanced.split_pair`).
-/

namespace ShellTree

/-- Texts in which every brace has a partner. -/
inductive Balanced : List Char → Prop
  | nil : Balanced []
  | char {c : Char} {rest : List Char} (plain : c ≠ '\x7b' ∧ c ≠ '\x7d') (balanced : Balanced rest) :
    Balanced (c :: rest)
  | pair {inside rest : List Char} (within : Balanced inside) (balanced : Balanced rest) :
    Balanced ('\x7b' :: (inside ++ '\x7d' :: rest))

/-- A line on which braces stand only where they may: an opening brace at its end, and a closing one in
front of everything else. -/
structure BraceLine (line : List Char) : Prop where
  opening : '\x7b' ∉ line.dropLast
  closing : '\x7d' ∉ (dedented line).tail

/-- A text with its braces aligned. Two braces are partners if what they have between them is balanced;
the number of a line is how many line breaks stand in front of it. -/
structure BracesAligned (text : List Char) : Prop where
  lines : ∀ line ∈ linesOf text, BraceLine line
  balanced : Balanced text
  partners : ∀ before inside behind, text = before ++ '\x7b' :: (inside ++ '\x7d' :: behind) → Balanced inside →
    Encloses ((linesOf text).map indentation) (before.count '\n') ((before ++ '\x7b' :: inside).count '\n')

/-! ## Partners -/

namespace Balanced

variable {text other inside before behind rest : List Char}

theorem append (balanced : Balanced text) (after : Balanced rest) : Balanced (text ++ rest) := by
  induction balanced with
  | nil => exact after
  | char plain _ ih => exact .char plain ih
  | pair within _ _ ih =>
    rw [List.cons_append, List.append_assoc, List.cons_append]
    exact .pair within ih

theorem of_plain (plain : ∀ c ∈ text, c ≠ '\x7b' ∧ c ≠ '\x7d') : Balanced text := by
  induction text with
  | nil => exact .nil
  | cons c rest ih =>
    rw [List.forall_mem_cons] at plain
    exact .char plain.1 (ih plain.2)

theorem count_eq (balanced : Balanced text) : text.count '\x7b' = text.count '\x7d' := by
  induction balanced with
  | nil => rfl
  | char plain _ ih => simpa [plain] using ih
  | pair _ _ within ih =>
    simp only [List.count_cons, List.count_append, within, ih]
    simp
    omega

/-- On the way through a balanced text, no brace is closed before it is opened. -/
theorem count_le_of_prefix (balanced : Balanced text) :
    ∀ front, front <+: text → front.count '\x7d' ≤ front.count '\x7b' := by
  induction balanced with
  | nil =>
    intro front isPrefix
    rw [List.prefix_nil.mp isPrefix]
    exact Nat.le_refl _
  | char plain _ ih =>
    intro front isPrefix
    rcases List.prefix_cons_iff.mp isPrefix with rfl | ⟨rest, rfl, later⟩
    · exact Nat.le_refl _
    · simpa [plain] using ih rest later
  | @pair inside rest within _ ihInside ihRest =>
    intro front isPrefix
    rcases List.prefix_cons_iff.mp isPrefix with rfl | ⟨front, rfl, later⟩
    · exact Nat.le_refl _
    rcases List.prefix_or_prefix_of_prefix later (List.prefix_append inside _) with short | ⟨more, rfl⟩
    · have opened := ihInside front short
      simp only [List.count_cons]
      simp
      omega
    · have equal := within.count_eq
      rw [List.prefix_append_right_inj] at later
      rcases List.prefix_cons_iff.mp later with rfl | ⟨more, rfl, behind⟩
      · simp only [List.append_nil, List.count_cons, equal]
        simp
      · have opened := ihRest more behind
        simp only [List.count_cons, List.count_append, equal]
        simp
        omega

/-- What is balanced does not go on with a brace that closes it. -/
theorem not_closed (within : Balanced inside) (balanced : Balanced text) : ¬ inside ++ ['\x7d'] <+: text := by
  intro isPrefix
  have opened := balanced.count_le_of_prefix _ isPrefix
  rw [List.count_append, List.count_append, within.count_eq] at opened
  have closing : ['\x7d'].count '\x7d' = 1 := rfl
  have opening : ['\x7d'].count '\x7b' = 0 := rfl
  omega

/-- An opening brace has one partner. -/
theorem inside_unique (first : Balanced text) (second : Balanced other)
    (same : text ++ '\x7d' :: behind = other ++ '\x7d' :: rest) : text = other := by
  rcases List.append_eq_append_iff.mp same with ⟨more, rfl, tail⟩ | ⟨more, rfl, tail⟩
  · cases more with
    | nil => exact (List.append_nil text).symm
    | cons c more =>
      obtain rfl := (List.cons.inj tail).1
      exact absurd ⟨more, by simp⟩ (not_closed first second)
  · cases more with
    | nil => exact List.append_nil other
    | cons c more =>
      obtain rfl := (List.cons.inj tail).1
      exact absurd ⟨more, by simp⟩ (not_closed second first)

/-- Two partners are on the same side of a brace that closes a balanced text. -/
theorem split_pair (balanced : Balanced text) (within : Balanced inside)
    (same : text ++ '\x7d' :: rest = before ++ '\x7b' :: (inside ++ '\x7d' :: behind)) :
    (∃ more, text = before ++ '\x7b' :: (inside ++ '\x7d' :: more)) ∨
      ∃ more, before = text ++ '\x7d' :: more ∧ rest = more ++ '\x7b' :: (inside ++ '\x7d' :: behind) := by
  rcases List.append_eq_append_iff.mp same with ⟨more, rfl, tail⟩ | ⟨more, rfl, tail⟩
  · cases more with
    | nil => simp at tail
    | cons c more =>
      obtain ⟨rfl, behind⟩ := List.cons.inj tail
      exact .inr ⟨more, rfl, behind⟩
  · cases more with
    | nil => simp at tail
    | cons c opened =>
      obtain ⟨rfl, enclosed⟩ := List.cons.inj tail
      left
      -- What the text has behind the opening brace closes as much as it opens, so its partner is there too.
      have unclosed : ¬ opened <+: inside := by
        intro isPrefix
        have front := balanced.count_le_of_prefix before (List.prefix_append ..)
        have back := within.count_le_of_prefix opened isPrefix
        have whole := balanced.count_eq
        simp only [List.count_append, List.count_cons, beq_self_eq_true] at whole
        simp at whole
        omega
      rcases List.append_eq_append_iff.mp enclosed with ⟨more, rfl, closed⟩ | ⟨more, rfl, _⟩
      · cases more with
        | nil => exact absurd (by simp) unclosed
        | cons c more =>
          obtain rfl := (List.cons.inj closed).1
          exact ⟨more, rfl⟩
      · exact absurd (List.prefix_append ..) unclosed

end Balanced

end ShellTree
