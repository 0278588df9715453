import ShellTree.Toml.Value

/-!
# Tables under construction

While a document is read, a table remembers how it came to be, because that settles what may still
be added to it. A table with a header of its own takes plain keys behind that header; a table that
only lies on the way to another header may still get its own; a table made by dotted keys takes
further dotted keys only; and a value, be it an array or a table in braces, is closed.

Each operation gives nothing where TOML forbids the addition, so a table is never defined twice and
a key is never set twice.
-/

namespace ShellTree.Toml

inductive Origin where
  /-- It has a header of its own, or is the document itself. -/
  | header
  /-- It lies on the way to the table of some header. -/
  | implied
  /-- It was made by a dotted key. -/
  | dotted
deriving DecidableEq

/-- What a key stands for while a document is read. The elements of an array of tables are kept
with the latest apart and in front of the earlier ones, which are in reverse order. -/
inductive Entry where
  | value (value : Value)
  | table (origin : Origin) (members : List (String × Entry))
  | tables (latest : List (String × Entry)) (earlier : List (List (String × Entry)))

/-- The members of a table under construction, in the order of their keys. -/
abbrev Draft := List (String × Entry)

namespace Draft

def find? (draft : Draft) (key : String) : Option Entry := List.lookup key draft

def put (key : String) (entry : Entry) : Draft → Draft
  | [] => [(key, entry)]
  | (other, present) :: rest =>
    if key < other then (key, entry) :: (other, present) :: rest
    else if key = other then (key, entry) :: rest
    else (other, present) :: put key entry rest

@[simp] theorem find?_put_self (key : String) (entry : Entry) (draft : Draft) :
    (draft.put key entry).find? key = some entry := by
  unfold find?
  induction draft with
  | nil => simp [put]
  | cons member rest ih =>
    obtain ⟨other, present⟩ := member
    by_cases before : key < other
    · simp [put, before]
    · by_cases same : key = other
      · simp [put, same]
      · have differs : (key == other) = false := by simpa using same
        simp [put, before, same, List.lookup_cons, differs, ih]

theorem find?_put_of_ne {key asked : String} (differs : asked ≠ key) (entry : Entry)
    (draft : Draft) : (draft.put key entry).find? asked = draft.find? asked := by
  unfold find?
  have apart : (asked == key) = false := by simpa using differs
  induction draft with
  | nil => simp [put, List.lookup_cons, apart]
  | cons member rest ih =>
    obtain ⟨other, present⟩ := member
    by_cases before : key < other
    · simp [put, before, List.lookup_cons, apart]
    · by_cases same : key = other
      · subst same
        simp only [put, if_neg before, ↓reduceIte, List.lookup_cons, apart]
      · simp [put, before, same, List.lookup_cons, ih]

/-- Changes the table at the end of `path`. Tables that are missing on the way are made, with the
given origin; an array of tables is entered at its latest element. A dotted key passes no table
that has a header, and nothing passes a value. -/
def alter (made : Origin) (change : Origin → Draft → Option Draft) :
    (path : List String) → Origin → Draft → Option Draft
  | [], origin, draft => change origin draft
  | key :: path, _, draft => do
    let entry ← match draft.find? key with
      | none => (alter made change path made []).map (.table made)
      | some (.table origin members) =>
        if made = .dotted ∧ origin = .header then none
        else (alter made change path origin members).map (.table origin)
      | some (.tables latest earlier) =>
        (alter made change path .header latest).map (.tables · earlier)
      | some (.value _) => none
    return draft.put key entry

def splitLast : List String → Option (List String × String)
  | [] => none
  | [key] => some ([], key)
  | key :: path => (splitLast path).map fun (front, last) => (key :: front, last)

/-- Sets the value of a dotted key. The key must be new, and the table that it is set in must be a
dotted one exactly if there is a dot. -/
def insert (path : List String) (value : Value) (draft : Draft) : Option Draft := do
  let (front, key) ← splitLast path
  let set (origin : Origin) (draft : Draft) : Option Draft :=
    if (draft.find? key).isNone ∧ (origin = .dotted ↔ front ≠ []) then
      some (draft.put key (.value value))
    else none
  draft.alter .dotted set front .header

/-- Opens the table of a header: it must be new, or implied by other headers so far. -/
def openTable (path : List String) (draft : Draft) : Option Draft := do
  let (front, key) ← splitLast path
  let opened (_ : Origin) (draft : Draft) : Option Draft :=
    match draft.find? key with
    | none => some (draft.put key (.table .header []))
    | some (.table .implied members) => some (draft.put key (.table .header members))
    | some _ => none
  draft.alter .implied opened front .header

/-- Opens one more element of an array of tables. -/
def openElement (path : List String) (draft : Draft) : Option Draft := do
  let (front, key) ← splitLast path
  let opened (_ : Origin) (draft : Draft) : Option Draft :=
    match draft.find? key with
    | none => some (draft.put key (.tables [] []))
    | some (.tables latest earlier) => some (draft.put key (.tables [] (latest :: earlier)))
    | some _ => none
  draft.alter .implied opened front .header

end Draft

mutual

/-- The value that an entry has come to. -/
def Entry.close : Entry → Value
  | .value closed => closed
  | .table _ members => .table (Entry.closeMembers members)
  | .tables latest earlier => .array (Entry.closeElements earlier [.table (Entry.closeMembers latest)])

def Entry.closeMembers : List (String × Entry) → Members
  | [] => []
  | (key, entry) :: rest => (key, entry.close) :: Entry.closeMembers rest

/-- The elements of an array of tables that is complete, in front of those already closed. -/
def Entry.closeElements : List (List (String × Entry)) → List Value → List Value
  | [], closed => closed
  | members :: earlier, closed =>
    Entry.closeElements earlier (.table (Entry.closeMembers members) :: closed)

end

end ShellTree.Toml
