import ShellTree.Toml.Table

/-!
# The weight of values

The weight of a value is the number of values in it, itself included. A table under construction weighs
what it will come to. Each operation on such a table adds no more than the parts of its path that are
missing and what is put at the end: a key that is there already is set again in its place, because the
keys of a table are in order (`Draft.Ordered`).
-/

namespace ShellTree.Toml

mutual

/-- The number of values in a value. -/
def Value.weight : Value → Nat
  | .array elements => elementsWeight elements + 1
  | .table members => membersWeight members + 1
  | _ => 1

def elementsWeight : List Value → Nat
  | [] => 0
  | value :: rest => value.weight + elementsWeight rest

def membersWeight : List (String × Value) → Nat
  | [] => 0
  | (_, value) :: rest => value.weight + membersWeight rest

end

theorem Value.weight_pos (value : Value) : 0 < value.weight := by
  cases value <;> simp [Value.weight]

/-- The number of values that an entry comes to. -/
def Entry.weight (entry : Entry) : Nat := entry.close.weight

def Draft.weight (draft : Draft) : Nat := membersWeight (Entry.closeMembers draft)

@[simp] theorem Entry.weight_value (value : Value) : (Entry.value value).weight = value.weight := by
  rw [Entry.weight, Entry.close]

@[simp] theorem Entry.weight_table (origin : Origin) (members : Draft) :
    (Entry.table origin members).weight = members.weight + 1 := by
  rw [Entry.weight, Entry.close, Value.weight, Draft.weight]

/-- Elements are closed in front of those that are closed already. -/
theorem Entry.weight_closeElements (earlier : List Draft) (closed : List Value) :
    elementsWeight (Entry.closeElements earlier closed) =
      elementsWeight (Entry.closeElements earlier []) + elementsWeight closed := by
  induction earlier generalizing closed with
  | nil => simp [Entry.closeElements, elementsWeight]
  | cons members earlier ih =>
    rw [Entry.closeElements, Entry.closeElements, ih, ih [_], elementsWeight, elementsWeight, elementsWeight]
    omega

/-- What the elements of an array of tables come to, but for the latest one. -/
def Entry.earlierWeight (earlier : List Draft) : Nat := elementsWeight (Entry.closeElements earlier [])

theorem Entry.weight_tables (latest : Draft) (earlier : List Draft) :
    (Entry.tables latest earlier).weight = Entry.earlierWeight earlier + latest.weight + 2 := by
  rw [Entry.weight, Entry.close, Value.weight, Entry.weight_closeElements]
  simp only [elementsWeight, Value.weight, Entry.earlierWeight, Draft.weight]
  omega

theorem Entry.earlierWeight_cons (latest : Draft) (earlier : List Draft) :
    Entry.earlierWeight (latest :: earlier) = Entry.earlierWeight earlier + latest.weight + 1 := by
  rw [Entry.earlierWeight, Entry.closeElements, Entry.weight_closeElements]
  simp only [elementsWeight, Value.weight, Entry.earlierWeight, Draft.weight]
  omega

@[simp] theorem Draft.weight_nil : Draft.weight [] = 0 := by
  rw [Draft.weight, Entry.closeMembers, membersWeight]

@[simp] theorem Draft.weight_cons (key : String) (entry : Entry) (rest : Draft) :
    Draft.weight ((key, entry) :: rest) = entry.weight + Draft.weight rest := by
  rw [Draft.weight, Entry.closeMembers, membersWeight, Draft.weight, Entry.weight]

/-! ## Tables with their keys in order -/

mutual

/-- An entry with its keys in order, as far as they can still be added to. -/
def Entry.Ordered : Entry → Prop
  | .value _ => True
  | .table _ members => Entry.AllOrdered members
  | .tables latest _ => Entry.AllOrdered latest

/-- Members with their keys in order, and so are their entries. -/
def Entry.AllOrdered : List (String × Entry) → Prop
  | [] => True
  | (key, entry) :: rest => (∀ member ∈ rest, key < member.1) ∧ entry.Ordered ∧ Entry.AllOrdered rest

end

namespace Draft

variable {key : String} {entry : Entry} {draft : Draft}

/-- A table under construction with its keys in order, on all levels. -/
def Ordered (draft : Draft) : Prop := Entry.AllOrdered draft

@[simp] theorem ordered_table {origin : Origin} {members : Draft} :
    (Entry.table origin members).Ordered ↔ Ordered members := by
  rw [Entry.Ordered, Ordered]

@[simp] theorem ordered_tables {latest : Draft} {earlier : List Draft} :
    (Entry.tables latest earlier).Ordered ↔ Ordered latest := by
  rw [Entry.Ordered, Ordered]

theorem ordered_nil : Ordered [] := by
  rw [Ordered, Entry.AllOrdered]
  trivial

theorem ordered_cons {rest : Draft} : Ordered ((key, entry) :: rest) ↔
    (∀ member ∈ rest, key < member.1) ∧ entry.Ordered ∧ Ordered rest := by
  rw [Ordered, Entry.AllOrdered, Ordered]

theorem ordered_of_find? (ordered : draft.Ordered) (found : draft.find? key = some entry) : entry.Ordered := by
  induction draft with
  | nil => cases found
  | cons member rest ih =>
    obtain ⟨other, present⟩ := member
    obtain ⟨_, this, later⟩ := ordered_cons.mp ordered
    rw [find?, List.lookup_cons] at found
    split at found
    · obtain rfl := Option.some.inj found
      exact this
    · exact ih later found

theorem mem_put {member : String × Entry} (inside : member ∈ draft.put key entry) :
    member = (key, entry) ∨ member ∈ draft := by
  induction draft with
  | nil => exact .inl (List.mem_singleton.mp inside)
  | cons first rest ih =>
    obtain ⟨other, present⟩ := first
    unfold put at inside
    split at inside
    · exact List.mem_cons.mp inside
    · split at inside
      · rcases List.mem_cons.mp inside with same | later
        · exact .inl same
        · exact .inr (List.mem_cons_of_mem _ later)
      · rcases List.mem_cons.mp inside with same | later
        · exact .inr (same ▸ List.mem_cons_self)
        · exact (ih later).imp_right (List.mem_cons_of_mem _)

theorem ordered_put (ordered : draft.Ordered) (fits : entry.Ordered) : (draft.put key entry).Ordered := by
  induction draft with
  | nil => exact ordered_cons.mpr ⟨by simp, fits, ordered_nil⟩
  | cons first rest ih =>
    obtain ⟨other, present⟩ := first
    obtain ⟨before, this, later⟩ := ordered_cons.mp ordered
    unfold put
    split
    · next less =>
      refine ordered_cons.mpr ⟨?_, fits, ordered⟩
      rw [List.forall_mem_cons]
      exact ⟨less, fun member inside => String.lt_trans less (before member inside)⟩
    · next notLess =>
      split
      · next same => exact ordered_cons.mpr ⟨same ▸ before, fits, later⟩
      · next differs =>
        have greater : other < key := Std.lt_of_le_of_ne notLess (Ne.symm differs)
        refine ordered_cons.mpr ⟨fun member inside => ?_, this, ih later⟩
        rcases mem_put inside with rfl | inside
        · exact greater
        · exact before member inside

theorem weight_put_le (key : String) (entry : Entry) (draft : Draft) :
    (draft.put key entry).weight ≤ draft.weight + entry.weight := by
  induction draft with
  | nil => simp [put]
  | cons first rest ih =>
    obtain ⟨other, present⟩ := first
    unfold put
    split
    · simp only [weight_cons]
      omega
    · split
      · simp only [weight_cons]
        omega
      · simp only [weight_cons]
        omega

/-- A key that is there already gives up what it had. -/
theorem weight_put_of_find? {old : Entry} (ordered : draft.Ordered) (found : draft.find? key = some old) :
    (draft.put key entry).weight + old.weight = draft.weight + entry.weight := by
  induction draft with
  | nil => cases found
  | cons first rest ih =>
    obtain ⟨other, present⟩ := first
    obtain ⟨before, _, later⟩ := ordered_cons.mp ordered
    rw [find?, List.lookup_cons] at found
    by_cases same : key = other
    · subst same
      obtain rfl : present = old := by simpa using found
      simp only [put, String.lt_irrefl, ↓reduceIte, weight_cons]
      omega
    · have differs : (key == other) = false := by simpa using same
      rw [differs] at found
      have inside : (key, old) ∈ rest := by
        obtain ⟨front, back, rfl, _⟩ := List.lookup_eq_some_iff.mp found
        simp
      have notLess : ¬ key < other := String.lt_asymm (before (key, old) inside)
      have rewritten := ih later found
      simp only [put, notLess, same, ↓reduceIte, weight_cons]
      omega

/-! ## What is added -/

/-- How many parts of a path are missing: those behind the last table on the way that is there. -/
def missing : List String → Draft → Nat
  | [], _ => 0
  | key :: path, draft =>
    match draft.find? key with
    | some (.table _ members) => missing path members
    | some (.tables latest _) => missing path latest
    | _ => path.length + 1

theorem missing_le (path : List String) (draft : Draft) : missing path draft ≤ path.length := by
  induction path generalizing draft with
  | nil => exact Nat.le_refl 0
  | cons key path ih =>
    unfold missing
    split
    · exact Nat.le_succ_of_le (ih _)
    · exact Nat.le_succ_of_le (ih _)
    · exact Nat.le_refl _

/-- A table that has grown by no more than `cost`, with its keys in order still, and now with all of
`path`. -/
structure Grown (before : Draft) (cost : Nat) (path : List String) (after : Draft) : Prop where
  ordered : after.Ordered
  weight : after.weight ≤ before.weight + cost
  reached : missing path after = 0

/-- Where a change at the end of a path adds no more than `cost`, the change as a whole adds no more than
that and the parts of the path that are missing. -/
theorem grown_alter {made origin : Origin} {change : Origin → Draft → Option Draft} {cost : Nat} {tail : List String}
    (changes : ∀ {origin} {draft after : Draft}, draft.Ordered → change origin draft = some after →
      Grown draft cost tail after) {path : List String} {draft after : Draft} (ordered : draft.Ordered)
    (altered : draft.alter made change path origin = some after) :
    Grown draft (missing path draft + cost) (path ++ tail) after := by
  induction path generalizing origin draft after with
  | nil =>
    have grown := changes ordered altered
    exact ⟨grown.ordered, by rw [missing, Nat.zero_add]; exact grown.weight, grown.reached⟩
  | cons key path ih =>
    rw [List.cons_append]
    cases found : draft.find? key with
    | none =>
      obtain ⟨inner, below, rfl⟩ : ∃ inner, alter made change path made [] = some inner ∧
          draft.put key (.table made inner) = after := by
        simpa [alter, found, Option.bind_map, Option.bind_eq_some_iff] using altered
      have grown := ih ordered_nil below
      refine ⟨ordered_put ordered (by simpa using grown.ordered), ?_, ?_⟩
      · have set := weight_put_le key (.table made inner) draft
        have weight := grown.weight
        have short := missing_le path []
        simp only [Entry.weight_table, weight_nil, missing, found] at set weight ⊢
        omega
      · simp [missing, grown.reached]
    | some entry =>
      have inside := ordered_of_find? ordered found
      cases entry with
      | value value => simp [alter, found] at altered
      | table within members =>
        obtain ⟨inner, below, rfl⟩ : ∃ inner, alter made change path within members = some inner ∧
            draft.put key (.table within inner) = after := by
          by_cases closed : made = .dotted ∧ within = .header
          · simp [alter, found, closed] at altered
          · simpa [alter, found, closed, Option.bind_map, Option.bind_eq_some_iff] using altered
        have grown := ih (by simpa using inside) below
        refine ⟨ordered_put ordered (by simpa using grown.ordered), ?_, ?_⟩
        · have set := @weight_put_of_find? key (.table within inner) draft _ ordered found
          have weight := grown.weight
          simp only [Entry.weight_table, missing, found] at set weight ⊢
          omega
        · simp [missing, grown.reached]
      | tables latest earlier =>
        obtain ⟨inner, below, rfl⟩ : ∃ inner, alter made change path .header latest = some inner ∧
            draft.put key (.tables inner earlier) = after := by
          simpa [alter, found, Option.bind_map, Option.bind_eq_some_iff] using altered
        have grown := ih (by simpa using inside) below
        refine ⟨ordered_put ordered (by simpa using grown.ordered), ?_, ?_⟩
        · have set := @weight_put_of_find? key (.tables inner earlier) draft _ ordered found
          have weight := grown.weight
          simp only [Entry.weight_tables, missing, found] at set weight ⊢
          omega
        · simp [missing, grown.reached]

/-- Setting a key adds no more than its entry. -/
theorem grown_put {cost : Nat} {tail : List String} (ordered : draft.Ordered) (fits : entry.Ordered)
    (light : entry.weight ≤ cost) (reached : missing tail (draft.put key entry) = 0) :
    Grown draft cost tail (draft.put key entry) := by
  refine ⟨ordered_put ordered fits, ?_, reached⟩
  have set := weight_put_le key entry draft
  omega

theorem eq_append_of_splitLast {path front : List String} (split : splitLast path = some (front, key)) :
    path = front ++ [key] := by
  fun_induction splitLast path generalizing front with
  | case1 => cases split
  | case2 =>
    cases split
    rfl
  | case3 first path _ ih =>
    obtain ⟨⟨rest, last⟩, found, same⟩ := Option.map_eq_some_iff.mp split
    cases same
    rw [ih found, List.cons_append]

/-- A change behind all of a path but its last key is one behind the path, of which every part may be
missing. -/
theorem Grown.of_splitLast {path front : List String} {draft after : Draft} {cost : Nat}
    (grown : Grown draft (missing front draft + (cost + 1)) (front ++ [key]) after)
    (split : splitLast path = some (front, key)) : Grown draft (path.length + cost) path after := by
  rw [eq_append_of_splitLast split]
  refine ⟨grown.ordered, ?_, grown.reached⟩
  have weight := grown.weight
  have short := missing_le front draft
  rw [List.length_append, List.length_singleton]
  omega

theorem grown_insert {path : List String} {value : Value} {draft after : Draft} (ordered : draft.Ordered)
    (inserted : draft.insert path value = some after) : Grown draft (path.length + value.weight) [] after := by
  obtain ⟨⟨front, key⟩, split, altered⟩ := Option.bind_eq_some_iff.mp inserted
  have grown : Grown draft (missing front draft + value.weight) (front ++ []) after := by
    refine grown_alter ?_ ordered altered
    intro origin draft after ordered set
    split at set
    · obtain rfl := Option.some.inj set
      exact grown_put ordered trivial (Nat.le_of_eq (Entry.weight_value value)) rfl
    · cases set
  refine ⟨grown.ordered, ?_, rfl⟩
  have weight := grown.weight
  have short := missing_le front draft
  rw [eq_append_of_splitLast split, List.length_append]
  omega

theorem grown_openTable {path : List String} {draft after : Draft} (ordered : draft.Ordered)
    (opened : draft.openTable path = some after) : Grown draft path.length path after := by
  obtain ⟨⟨front, key⟩, split, altered⟩ := Option.bind_eq_some_iff.mp opened
  have grown : Grown draft (missing front draft + (0 + 1)) (front ++ [key]) after := by
    refine grown_alter ?_ ordered altered
    intro origin draft after ordered set
    split at set
    · obtain rfl := Option.some.inj set
      exact grown_put ordered (by simp [ordered_nil]) (by simp) (by simp [missing])
    · next members found =>
      obtain rfl := Option.some.inj set
      have within := ordered_of_find? ordered found
      have weight := @weight_put_of_find? key (.table .header members) draft _ ordered found
      refine ⟨ordered_put ordered (by simpa using within), ?_, by simp [missing]⟩
      simp only [Entry.weight_table] at weight
      omega
    · cases set
  exact grown.of_splitLast split

theorem grown_openElement {path : List String} {draft after : Draft} (ordered : draft.Ordered)
    (opened : draft.openElement path = some after) : Grown draft (path.length + 1) path after := by
  obtain ⟨⟨front, key⟩, split, altered⟩ := Option.bind_eq_some_iff.mp opened
  have grown : Grown draft (missing front draft + (1 + 1)) (front ++ [key]) after := by
    refine grown_alter ?_ ordered altered
    intro origin draft after ordered set
    split at set
    · obtain rfl := Option.some.inj set
      have light : (Entry.tables [] []).weight ≤ 2 := by
        simp [Entry.weight_tables, Entry.earlierWeight, Entry.closeElements, elementsWeight]
      exact grown_put ordered (by simp [ordered_nil]) light (by simp [missing])
    · next latest earlier found =>
      obtain rfl := Option.some.inj set
      have weight := @weight_put_of_find? key (.tables [] (latest :: earlier)) draft _ ordered found
      refine ⟨ordered_put ordered (by simp [ordered_nil]), ?_, by simp [missing]⟩
      simp only [Entry.weight_tables, Entry.earlierWeight_cons, weight_nil] at weight
      omega
    · cases set
  exact grown.of_splitLast split

end Draft

end ShellTree.Toml
