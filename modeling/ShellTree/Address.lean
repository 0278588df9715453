import ShellTree.Part

/-!
# Addresses as text and in order

The text of an address can be read back. It is divided at its dots, and every piece shows one segment:
the number in its brackets is read first, then the segment with that number is found whose text the
piece is. So a piece that gives its number in another way, such as `lists[01]`, shows none.

Addresses have an order, the one in which a tree is walked: a node comes before its parts, and of two
parts of one node the left one comes first with all that is in it.
-/

namespace ShellTree

/-- The number that the digits between the brackets of a text make, or zero if there are none. -/
def bracketedNumber (text : List Char) : Nat :=
  Nat.ofDigitChars 10 (((text.dropWhile (· != '[')).drop 1).takeWhile (· != ']')) 0

/-- The segments of every kind, those that count their parts at the given number. -/
def Segment.numbered (index : Nat) : List Segment :=
  [.list index, .link index, .pipeline, .command index, .assignment index, .name, .word index, .body]

/-- The segment that a text shows. -/
def Segment.ofText? (text : List Char) : Option Segment :=
  (Segment.numbered (bracketedNumber text)).find? fun segment => segment.text.toList == text

/-- The address that a text shows. -/
def Address.ofText? (text : String) : Option Address :=
  if text = "" then some [] else (text.toList.splitOn '.').mapM Segment.ofText?

/-- The part of a script that the text of an address leads to. -/
def Script.named? (script : Script) (path : String) : Option Part :=
  (Address.ofText? path).bind script.at?

/-! ## Reading what was written -/

theorem isDigit_of_mem_repr {index : Nat} {c : Char} (member : c ∈ index.repr.toList) : c.isDigit = true := by
  rw [Nat.toList_repr] at member
  exact Nat.isDigit_of_mem_toDigits (by decide) (by decide) member

/-- The number of a text is the one that stands behind its only opening bracket. -/
theorem bracketedNumber_append {opening : String} (opens : opening.toList.dropWhile (· != '[') = ['['])
    (index : Nat) : bracketedNumber (opening ++ index.repr ++ "]").toList = index := by
  have opened : (opening ++ index.repr ++ "]").toList.dropWhile (· != '[') =
      '[' :: (index.repr.toList ++ [']']) := by
    simp [List.append_assoc, List.dropWhile_append, opens]
  have closed : (index.repr.toList ++ [']']).takeWhile (· != ']') = index.repr.toList := by
    rw [List.takeWhile_append_of_pos]
    · simp
    · intro c member
      have digit := isDigit_of_mem_repr member
      have other : c ≠ ']' := by
        rintro rfl
        exact absurd digit (by decide)
      simpa using other
  rw [bracketedNumber, opened, List.drop_succ_cons, List.drop_zero, closed, Nat.toList_repr,
    Nat.ofDigitChars_ten_toDigits]

/-- A segment is read back from its text. -/
theorem Segment.ofText?_text (segment : Segment) : Segment.ofText? segment.text.toList = some segment := by
  cases segment with
  | pipeline | name | body => rfl
  | list index | link index | command index | assignment index | word index =>
    rw [ofText?, text, bracketedNumber_append (by decide)]
    simp [numbered, text]

theorem Segment.text_of_ofText? {text : List Char} {segment : Segment}
    (success : Segment.ofText? text = some segment) : segment.text.toList = text := by
  have same := List.find?_some success
  simpa using same

theorem Segment.mapM_ofText?_text (address : Address) :
    (address.map fun segment => segment.text.toList).mapM Segment.ofText? = some address := by
  induction address with
  | nil => rfl
  | cons segment rest ih => simp [List.mapM_cons, ofText?_text, ih]

theorem Segment.map_text_of_mapM {pieces : List (List Char)} {address : Address}
    (success : pieces.mapM Segment.ofText? = some address) :
    (address.map fun segment => segment.text.toList) = pieces := by
  induction pieces generalizing address with
  | nil =>
    cases success
    rfl
  | cons piece pieces ih =>
    simp only [List.mapM_cons, Option.bind_eq_bind, Option.bind_eq_some_iff, Option.pure_def,
      Option.some.injEq] at success
    obtain ⟨segment, first, rest, others, rfl⟩ := success
    rw [List.map_cons, text_of_ofText? first, ih others]

/-- The characters that stand between the segments of an address, and those that can stand behind it. -/
def Address.marks : List Char := ['.', ' ', ':']

theorem Segment.not_mem_text_of_mem_marks {mark : Char} (isMark : mark ∈ Address.marks) (segment : Segment) :
    mark ∉ segment.text.toList := by
  simp only [Address.marks, List.mem_cons, List.not_mem_nil, or_false] at isMark
  have digits (index : Nat) : mark ∉ Nat.toDigits 10 index := by
    intro member
    rw [← Nat.toList_repr] at member
    have digit := isDigit_of_mem_repr member
    rcases isMark with rfl | rfl | rfl <;> exact absurd digit (by decide)
  rcases isMark with rfl | rfl | rfl <;> cases segment <;> simp [text, digits]

theorem Address.toList_text (address : Address) :
    address.text.toList = ['.'].intercalate (address.map fun segment => segment.text.toList) := by
  simp [text, Function.comp_def]

theorem Address.text_cons_cons (segment next : Segment) (rest : Address) :
    Address.text (segment :: next :: rest) = segment.text ++ "." ++ Address.text (next :: rest) :=
  String.intercalate_cons_cons

/-- What stands behind an address is not taken for a part of it. -/
theorem Address.not_mem_text_of_mem_marks {mark : Char} (isMark : mark ∈ marks) (outside : mark ≠ '.')
    (address : Address) : mark ∉ address.text.toList := by
  induction address with
  | nil => simp [text]
  | cons segment rest ih =>
    have apart := segment.not_mem_text_of_mem_marks isMark
    cases rest with
    | nil => simpa [text] using apart
    | cons next rest =>
      rw [text_cons_cons]
      simp [apart, outside, ih]

theorem Address.text_append {front back : Address} (moved : front ≠ []) (more : back ≠ []) :
    Address.text (front ++ back) = front.text ++ "." ++ back.text := by
  induction front with
  | nil => contradiction
  | cons segment rest ih =>
    cases rest with
    | nil =>
      obtain ⟨next, others, rfl⟩ := List.exists_cons_of_ne_nil more
      rw [List.singleton_append, text_cons_cons]
      simp [text]
    | cons next rest =>
      rw [List.cons_append, List.cons_append, text_cons_cons, ← List.cons_append, ih (by simp), text_cons_cons]
      simp only [String.append_assoc]

/-- Between the dots of an address there are its segments. -/
theorem Address.splitOn_text {address : Address} (moved : address ≠ []) :
    address.text.toList.splitOn '.' = address.map fun segment => segment.text.toList := by
  rw [toList_text]
  apply List.splitOn_intercalate
  · intro piece member
    obtain ⟨segment, _, rfl⟩ := List.mem_map.mp member
    exact segment.not_mem_text_of_mem_marks (by decide)
  · simpa using moved

/-- An address is read back from its text. -/
theorem Address.ofText?_text (address : Address) : Address.ofText? address.text = some address := by
  cases address with
  | nil => rfl
  | cons segment rest =>
    have pieces := Address.splitOn_text (List.cons_ne_nil segment rest)
    have shown : Address.text (segment :: rest) ≠ "" := by
      intro empty
      rw [empty] at pieces
      have blank : segment.text.toList = [] := (List.cons.inj pieces).1.symm
      have read := segment.ofText?_text
      rw [blank] at read
      exact nomatch read
    rw [ofText?, if_neg shown, pieces, Segment.mapM_ofText?_text]

/-- What is read as an address is the text of that address. -/
theorem Address.text_of_ofText? {text : String} {address : Address}
    (success : Address.ofText? text = some address) : address.text = text := by
  rw [ofText?] at success
  split at success
  · next empty =>
    cases success
    exact empty.symm
  · have pieces := Segment.map_text_of_mapM success
    rw [← String.toList_inj, toList_text, pieces, List.intercalate_splitOn]

theorem Address.text_injective {first second : Address} (same : first.text = second.text) : first = second := by
  have read := first.ofText?_text
  rw [same, second.ofText?_text] at read
  exact (Option.some.inj read).symm

/-! ## The order of a walk -/

/-- Of two parts of one node, the one that comes first. -/
inductive Segment.Before : Segment → Segment → Prop where
  | lists {first second : Nat} (less : first < second) : Before (.list first) (.list second)
  | pipelineLink (index : Nat) : Before .pipeline (.link index)
  | links {first second : Nat} (less : first < second) : Before (.link first) (.link second)
  | commands {first second : Nat} (less : first < second) : Before (.command first) (.command second)
  | assignments {first second : Nat} (less : first < second) : Before (.assignment first) (.assignment second)
  | assignmentWord (first second : Nat) : Before (.assignment first) (.word second)
  | words {first second : Nat} (less : first < second) : Before (.word first) (.word second)

/-- Of two addresses in one tree, the one that a walk meets first: that of a node in front of those of its
parts, and that of a part in front of all that is in the parts behind it. -/
def Address.Before (first second : Address) : Prop := List.Lex Segment.Before first second

theorem Segment.Before.irrefl (segment : Segment) : ¬ segment.Before segment := by
  intro before
  cases before <;> omega

theorem Segment.Before.asymm {first second : Segment} (before : first.Before second) : ¬ second.Before first := by
  intro after
  cases before <;> cases after <;> omega

theorem Address.Before.irrefl (address : Address) : ¬ address.Before address :=
  List.lex_irrefl Segment.Before.irrefl address

/-- What comes between two parts of one node is inside this node. -/
theorem Address.prefix_of_between {front first middle last : Address} (before : first.Before middle)
    (behind : middle.Before last) (starts : front <+: first) (ends : front <+: last) : front <+: middle := by
  induction front generalizing first middle last with
  | nil => exact List.nil_prefix
  | cons segment rest ih =>
    obtain ⟨more, rfl⟩ := starts
    obtain ⟨more', rfl⟩ := ends
    cases before with
    | rel less =>
      cases behind with
      | rel greater => exact absurd greater less.asymm
      | cons => exact absurd less (Segment.Before.irrefl segment)
    | cons before =>
      cases behind with
      | rel less => exact absurd less (Segment.Before.irrefl segment)
      | cons behind =>
        rw [List.cons_prefix_cons]
        exact ⟨rfl, ih before behind (List.prefix_append ..) (List.prefix_append ..)⟩

end ShellTree
