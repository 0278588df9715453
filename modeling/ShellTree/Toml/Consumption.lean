import Mathlib.Data.List.TakeDrop
import ShellTree.Success
import ShellTree.Toml.Document
import ShellTree.Toml.Weight

/-!
# What readers take

A reader of a TOML document gives what it reads and the characters behind it. What it reads never
weighs more than the characters that it takes, so a document weighs no more than its text is long.
-/

namespace ShellTree.Toml

variable {input rest : List Char}

/-! ## Strings -/

theorem length_dropBlanks_le (input : List Char) : (dropBlanks input).length ≤ input.length :=
  (List.dropWhile_sublist isBlank).length_le

theorem length_span (condition : Char → Bool) (input : List Char) :
    (input.span condition).1.length + (input.span condition).2.length = input.length := by
  rw [List.span_eq_takeWhile_dropWhile, ← List.length_append, List.takeWhile_append_dropWhile]

theorem length_dropFiller_le (inComment : Bool) (input : List Char) :
    (dropFiller inComment input).length ≤ input.length := by
  fun_induction dropFiller inComment input <;> grind

theorem length_of_afterNewline? (taken : afterNewline? input = some rest) : rest.length < input.length := by
  unfold afterNewline? at taken
  split at taken <;> grind

theorem length_dropNewline_le (input : List Char) : (dropNewline input).length ≤ input.length := by
  unfold dropNewline
  cases taken : afterNewline? input with
  | none => exact Nat.le_refl _
  | some rest => exact Nat.le_of_lt (length_of_afterNewline? taken)

theorem length_closeMarks_le (mark : Char) (read : String) (input : List Char) :
    (closeMarks mark read input).2.length ≤ input.length := by
  fun_cases closeMarks mark read input <;> grind

theorem length_of_basic? {read text : String} {skip : Nat} (taken : basic? read skip input = some (text, rest)) :
    rest.length < input.length := by
  fun_induction basic? read skip input with
  | case3 read behind ih =>
    obtain ⟨⟨c, length⟩, _, taken⟩ := Option.bind_eq_some_iff.mp taken
    exact Nat.lt_succ_of_lt (ih c length taken)
  | _ => grind

theorem length_of_literal? {read text : String} (taken : literal? read input = some (text, rest)) :
    rest.length < input.length := by
  fun_induction literal? read input <;> grind

theorem length_of_basicLines? {read text : String} {skip : Nat}
    (taken : basicLines? read skip input = some (text, rest)) : rest.length < input.length := by
  fun_induction basicLines? read skip input with
  | case4 read behind _ ih =>
    obtain ⟨⟨c, length⟩, _, taken⟩ := Option.bind_eq_some_iff.mp taken
    exact Nat.lt_succ_of_lt (ih c length taken)
  | _ => grind [length_closeMarks_le]

theorem length_of_literalLines? {read text : String} (taken : literalLines? read input = some (text, rest)) :
    rest.length < input.length := by
  fun_induction literalLines? read input <;> grind [length_closeMarks_le]

theorem length_of_string? {text : String} (taken : string? input = some (text, rest)) : rest.length < input.length := by
  unfold string? at taken
  split at taken
  · next behind =>
    have content := length_of_basicLines? taken
    have opened := length_dropNewline_le behind
    simp only [List.length_cons]
    omega
  · exact Nat.lt_succ_of_lt (length_of_basic? taken)
  · next behind =>
    have content := length_of_literalLines? taken
    have opened := length_dropNewline_le behind
    simp only [List.length_cons]
    omega
  · exact Nat.lt_succ_of_lt (length_of_literal? taken)
  · cases taken

/-! ## Keys -/

theorem length_of_keyPart? {part : String} (taken : keyPart? input = some (part, rest)) :
    rest.length < input.length := by
  unfold keyPart? at taken
  split at taken
  · cases taken
  · cases taken
  · exact Nat.lt_succ_of_lt (length_of_basic? taken)
  · exact Nat.lt_succ_of_lt (length_of_literal? taken)
  · have whole := length_span isRun input
    dsimp only at taken
    split at taken
    · next present =>
      obtain ⟨-, rfl⟩ := Prod.mk.inj (Option.some.inj taken)
      have some := List.length_pos_iff.mpr present.1
      omega
    · cases taken

theorem length_of_after? {c : Char} (taken : after? c input = some rest) : rest.length < input.length := by
  unfold after? at taken
  split at taken
  · split at taken
    · obtain rfl := Option.some.inj taken
      exact Nat.lt_succ_self _
    · cases taken
  · cases taken

/-- Each part of a key takes a character. -/
theorem length_of_keyParts? {fuel : Nat} {parts : List String} (taken : keyParts? fuel input = some (parts, rest)) :
    parts.length + rest.length ≤ input.length := by
  induction fuel generalizing input parts with
  | zero => cases taken
  | succ fuel ih =>
    obtain ⟨⟨part, behind⟩, first, taken⟩ := Option.bind_eq_some_iff.mp taken
    have blanks := length_dropBlanks_le input
    have shorter := length_of_keyPart? first
    have spaced := length_dropBlanks_le behind
    dsimp only at taken
    split at taken
    · next next_ dotted =>
      obtain ⟨⟨more, last⟩, later, taken⟩ := Option.bind_eq_some_iff.mp taken
      cases taken
      have others := ih later
      rw [dotted] at spaced
      simp only [List.length_cons] at spaced others ⊢
      omega
    · cases taken
      simp only [List.length_cons, List.length_nil]
      omega

theorem length_of_readKey {parts : List String} (taken : readKey input = .ok (parts, rest)) :
    parts.length + rest.length ≤ input.length := by
  obtain ⟨⟨found, behind⟩, read, taken⟩ := bind_eq_ok.mp taken
  dsimp only at taken
  split at taken
  · cases taken
  · cases taken
    exact length_of_keyParts? (Reading.of_eq_ok.mp read)

/-! ## Values -/

theorem length_splitBare (input : List Char) :
    (splitBare input).1.length + (splitBare input).2.length = input.length := by
  have whole := length_span isBareScalar input
  unfold splitBare
  dsimp only
  split
  · next c behind spaced =>
    split
    · have time := length_span isBareScalar (c :: behind)
      rw [spaced] at whole ⊢
      simp only [List.drop_succ_cons, List.drop_zero, List.length_append, List.length_cons] at whole time ⊢
      omega
    · exact whole
  · exact whole

theorem weight_of_digitsOf? {base : Nat} {value : Value} (read : digitsOf? base input = some value) :
    value.weight = 1 := by
  unfold digitsOf? at read
  split at read
  · obtain rfl := Option.some.inj read
    split <;> rfl
  · cases read

theorem weight_of_finite? {negative : Bool} {value : Value} (read : finite? negative input = some value) :
    value.weight = 1 := by
  obtain ⟨⟨whole, rest⟩, _, read⟩ := Option.bind_eq_some_iff.mp read
  obtain ⟨⟨fraction, rest⟩, _, read⟩ := Option.bind_eq_some_iff.mp read
  obtain ⟨⟨power, rest⟩, _, read⟩ := Option.bind_eq_some_iff.mp read
  dsimp only at read
  split at read
  · split at read
    · obtain rfl := Option.some.inj read
      rfl
    · obtain rfl := Option.some.inj read
      rfl
  · cases read

theorem weight_of_decimal? {value : Value} (read : decimal? input = some value) : value.weight = 1 := by
  unfold decimal? at read
  dsimp only at read
  split at read
  · split at read
    · exact weight_of_finite? read
    · cases read
  · split at read
    · cases read
    · split at read
      · split at read
        · cases read
        · obtain rfl := Option.some.inj read
          rfl
      · split at read
        · obtain rfl := Option.some.inj read
          split <;> rfl
        · cases read
      · cases read

theorem weight_of_number? {value : Value} (read : number? input = some value) : value.weight = 1 := by
  unfold number? at read
  split at read
  · exact weight_of_digitsOf? read
  · exact weight_of_digitsOf? read
  · exact weight_of_digitsOf? read
  · dsimp only at read
    split at read
    · obtain rfl := Option.some.inj read
      rfl
    · split at read
      · obtain rfl := Option.some.inj read
        rfl
      · exact weight_of_decimal? read

/-- What a bare text denotes holds no other value, and there has to be a text. -/
theorem weight_of_bareValue? {text : List Char} {value : Value} (read : bareValue? text = some value) :
    value.weight = 1 ∧ text ≠ [] := by
  constructor
  · unfold bareValue? at read
    split at read
    · obtain rfl := Option.some.inj read
      rfl
    · split at read
      · obtain rfl := Option.some.inj read
        rfl
      · split at read
        · obtain rfl := Option.some.inj read
          rfl
        · exact weight_of_number? read
  · rintro rfl
    cases read

theorem length_of_scalar? {value : Value} (taken : scalar? input = some (value, rest)) :
    value.weight + rest.length ≤ input.length := by
  unfold scalar? at taken
  split at taken
  · obtain ⟨⟨text, behind⟩, read, same⟩ := Option.map_eq_some_iff.mp taken
    cases same
    have shorter := length_of_string? read
    simp only [Value.weight]
    omega
  · obtain ⟨⟨text, behind⟩, read, same⟩ := Option.map_eq_some_iff.mp taken
    cases same
    have shorter := length_of_string? read
    simp only [Value.weight]
    omega
  · have whole := length_splitBare input
    generalize splitBare input = parts at whole taken
    obtain ⟨text, behind⟩ := parts
    obtain ⟨found, read, same⟩ := Option.map_eq_some_iff.mp taken
    obtain ⟨rfl, rfl⟩ := Prod.mk.inj same
    obtain ⟨light, present⟩ := weight_of_bareValue? read
    have some := List.length_pos_iff.mpr present
    dsimp only at whole
    omega

/-- A reader of values that weigh no more than what it takes. -/
def Frugal (read : List Char → Reading (Value × List Char)) : Prop :=
  ∀ {input rest value}, read input = .ok (value, rest) → value.weight + rest.length ≤ input.length

variable {read : List Char → Reading (Value × List Char)} {fuel : Nat}

theorem Frugal.readElements (frugal : Frugal read) {values : List Value}
    (taken : readElements read fuel input = .ok (values, rest)) :
    elementsWeight values + rest.length ≤ input.length := by
  induction fuel generalizing input values with
  | zero => cases taken
  | succ fuel ih =>
    have filler := length_dropFiller_le false input
    unfold Toml.readElements at taken
    split at taken
    · next behind closed =>
      cases taken
      rw [closed, List.length_cons] at filler
      simp only [elementsWeight]
      omega
    · obtain ⟨⟨value, behind⟩, first, taken⟩ := bind_eq_ok.mp taken
      have item := frugal first
      have spaced := length_dropFiller_le false behind
      dsimp only at taken
      split at taken
      · next behind comma =>
        obtain ⟨⟨more, last⟩, later, taken⟩ := bind_eq_ok.mp taken
        cases taken
        have others := ih later
        rw [comma, List.length_cons] at spaced
        simp only [elementsWeight] at others ⊢
        omega
      · next behind closed =>
        cases taken
        rw [closed, List.length_cons] at spaced
        simp only [elementsWeight]
        omega
      · cases taken

theorem Frugal.readMembers (frugal : Frugal read) {draft after : Draft} (ordered : draft.Ordered)
    (taken : readMembers read fuel draft input = .ok (after, rest)) :
    after.Ordered ∧ after.weight + rest.length ≤ draft.weight + input.length := by
  induction fuel generalizing input draft with
  | zero => cases taken
  | succ fuel ih =>
    have filler := length_dropFiller_le false input
    unfold Toml.readMembers at taken
    split at taken
    · next behind closed =>
      cases taken
      rw [closed, List.length_cons] at filler
      exact ⟨ordered, by omega⟩
    · obtain ⟨⟨path, afterKey⟩, key, taken⟩ := bind_eq_ok.mp taken
      obtain ⟨afterSign, sign, taken⟩ := bind_eq_ok.mp taken
      obtain ⟨⟨value, behind⟩, item, taken⟩ := bind_eq_ok.mp taken
      obtain ⟨grown, set, taken⟩ := bind_eq_ok.mp taken
      have parts := length_of_readKey key
      have signed := length_of_after? (Reading.of_eq_ok.mp sign)
      have weighed := frugal item
      have grows := Draft.grown_insert ordered (Reading.of_eq_ok.mp set)
      have weight := grows.weight
      have spaced := length_dropFiller_le false afterKey
      have opened := length_dropFiller_le false afterSign
      have closing := length_dropFiller_le false behind
      split at taken
      · next behind comma =>
        obtain ⟨still, others⟩ := ih grows.ordered taken
        rw [comma, List.length_cons] at closing
        exact ⟨still, by omega⟩
      · next behind closed =>
        cases taken
        rw [closed, List.length_cons] at closing
        exact ⟨grows.ordered, by omega⟩
      · cases taken

theorem frugal_readValue (depth : Nat) : Frugal (readValue depth) := by
  induction depth with
  | zero =>
    intro input rest value taken
    exact length_of_scalar? (Reading.of_eq_ok.mp taken)
  | succ depth ih =>
    intro input rest value taken
    unfold readValue at taken
    split at taken
    · next inside =>
      obtain ⟨⟨values, behind⟩, elements, taken⟩ := bind_eq_ok.mp taken
      cases taken
      have weight := ih.readElements elements
      simp only [Value.weight, List.length_cons] at weight ⊢
      omega
    · next inside =>
      obtain ⟨⟨draft, behind⟩, members, taken⟩ := bind_eq_ok.mp taken
      cases taken
      have weight := (ih.readMembers Draft.ordered_nil members).2
      simp only [Value.weight, List.length_cons, Draft.weight_nil] at weight ⊢
      rw [Draft.weight] at weight
      omega
    · exact length_of_scalar? (Reading.of_eq_ok.mp taken)

/-! ## Documents -/

/-- What a statement can add to the tables of a document. -/
def Statement.weight : Statement → Nat
  | .table path => path.length
  | .element path => path.length + 1
  | .pair path value => path.length + value.weight

theorem length_of_afterLine? (taken : afterLine? input = some rest) : rest.length ≤ input.length := by
  have blanks := length_dropBlanks_le input
  unfold afterLine? at taken
  have commented : ∀ ended : List Char, ended.length ≤ input.length →
      (if ended.isEmpty then some [] else afterNewline? ended) = some rest → rest.length ≤ input.length := by
    intro ended shorter taken
    split at taken
    · obtain rfl := Option.some.inj taken
      exact Nat.zero_le _
    · exact Nat.le_trans (Nat.le_of_lt (length_of_afterNewline? taken)) shorter
  refine commented _ ?_ taken
  split
  · next comment found =>
    have shorter := (List.dropWhile_sublist isPlain (l := comment)).length_le
    rw [found, List.length_cons] at blanks
    omega
  · exact blanks

theorem length_of_readStatement {statement : Statement} (taken : readStatement input = .ok (statement, rest)) :
    statement.weight + rest.length ≤ input.length := by
  unfold readStatement at taken
  split at taken
  · obtain ⟨⟨path, afterPath⟩, key, taken⟩ := bind_eq_ok.mp taken
    obtain ⟨afterFirst, first, taken⟩ := bind_eq_ok.mp taken
    obtain ⟨afterSecond, second, taken⟩ := bind_eq_ok.mp taken
    obtain ⟨last, line, taken⟩ := bind_eq_ok.mp taken
    cases taken
    have parts := length_of_readKey key
    have closed := length_of_after? (Reading.of_eq_ok.mp first)
    have closedAgain := length_of_after? (Reading.of_eq_ok.mp second)
    have ended := length_of_afterLine? (Reading.of_eq_ok.mp line)
    simp only [Statement.weight, List.length_cons]
    omega
  · obtain ⟨⟨path, afterPath⟩, key, taken⟩ := bind_eq_ok.mp taken
    obtain ⟨afterFirst, first, taken⟩ := bind_eq_ok.mp taken
    obtain ⟨last, line, taken⟩ := bind_eq_ok.mp taken
    cases taken
    have parts := length_of_readKey key
    have closed := length_of_after? (Reading.of_eq_ok.mp first)
    have ended := length_of_afterLine? (Reading.of_eq_ok.mp line)
    simp only [Statement.weight, List.length_cons]
    omega
  · obtain ⟨⟨path, afterPath⟩, key, taken⟩ := bind_eq_ok.mp taken
    obtain ⟨afterSign, sign, taken⟩ := bind_eq_ok.mp taken
    obtain ⟨⟨value, afterValue⟩, item, taken⟩ := bind_eq_ok.mp taken
    obtain ⟨last, line, taken⟩ := bind_eq_ok.mp taken
    cases taken
    have parts := length_of_readKey key
    have signed := length_of_after? (Reading.of_eq_ok.mp sign)
    have blanks := length_dropBlanks_le afterSign
    have weighed := frugal_readValue nestingLimit item
    have ended := length_of_afterLine? (Reading.of_eq_ok.mp line)
    simp only [Statement.weight]
    omega

/-- The tables that have been built are in order, and the one that keys belong under is there. -/
structure Progress.Sound (progress : Progress) : Prop where
  ordered : progress.root.Ordered
  reached : Draft.missing progress.header progress.root = 0

theorem Progress.step_sound {progress after : Progress} {statement : Statement} (sound : progress.Sound)
    (stepped : progress.step statement = some after) :
    after.Sound ∧ after.root.weight ≤ progress.root.weight + statement.weight := by
  cases statement with
  | table path =>
    obtain ⟨root, opened, same⟩ := Option.bind_eq_some_iff.mp stepped
    cases same
    have grown := Draft.grown_openTable sound.ordered opened
    exact ⟨⟨grown.ordered, grown.reached⟩, grown.weight⟩
  | element path =>
    obtain ⟨root, opened, same⟩ := Option.bind_eq_some_iff.mp stepped
    cases same
    have grown := Draft.grown_openElement sound.ordered opened
    exact ⟨⟨grown.ordered, grown.reached⟩, grown.weight⟩
  | pair path value =>
    obtain ⟨root, altered, same⟩ := Option.bind_eq_some_iff.mp stepped
    cases same
    have grown := Draft.grown_alter (fun ordered set => Draft.grown_insert ordered set) sound.ordered altered
    rw [List.append_nil, sound.reached, Nat.zero_add] at grown
    exact ⟨⟨grown.ordered, grown.reached⟩, grown.weight⟩

theorem Progress.finish_sound {progress after : Progress} (sound : progress.Sound)
    (finished : progress.finish fuel input = .ok after) : after.root.weight ≤ progress.root.weight + input.length := by
  induction fuel generalizing progress input with
  | zero => cases finished
  | succ fuel ih =>
    have filler := length_dropFiller_le false input
    unfold finish at finished
    split at finished
    · cases finished
      exact Nat.le_add_right _ _
    · obtain ⟨⟨statement, rest⟩, read, finished⟩ := bind_eq_ok.mp finished
      have taken := length_of_readStatement read
      dsimp only at finished
      split at finished
      · next next stepped =>
        obtain ⟨still, weight⟩ := step_sound sound stepped
        have others := ih still finished
        omega
      · cases finished

/-- A document weighs no more than its text is long. -/
theorem weight_of_parse {text : String} {members : Members} (parsed : parse text = .ok members) :
    membersWeight members ≤ text.length := by
  unfold parse at parsed
  dsimp only at parsed
  split at parsed
  · next progress finished =>
    obtain rfl := Except.ok.inj parsed
    have sound : Progress.Sound {} := ⟨Draft.ordered_nil, rfl⟩
    have weight := Progress.finish_sound sound finished
    rw [Draft.weight, Draft.weight_nil, Nat.zero_add] at weight
    apply Nat.le_trans weight
    rw [← String.length_toList]
    split
    · next rest marked =>
      rw [marked]
      exact Nat.le_succ _
    · exact Nat.le_refl _
  · cases parsed

end ShellTree.Toml
