import ShellTree.Toml.DateTime
import ShellTree.Toml.Value

/-!
# Bounds of numbers

An integer of TOML has 64 bits, one of them for its sign. A reader that only looks past a value may
be content with more, and one that never comes to a value with anything. `Bounds.allow` says whether
all numbers inside a value are legible and within bounds, and `membersAreStandard` whether a
document keeps to what TOML promises. Wider bounds allow more (`Bounds.allow_of_le`).
-/

namespace ShellTree.Toml

/-- The integers from `least` on that are below `limit`. -/
structure Bounds where
  least : Int
  limit : Int
deriving DecidableEq

namespace Bounds

/-- The integers of TOML. -/
def standard : Bounds := ⟨-Int.pow 2 63, Int.pow 2 63⟩

/-- The integers of 64 bits, with a sign or without one. -/
def word : Bounds := ⟨-Int.pow 2 63, Int.pow 2 64⟩

/-- The integers of 128 bits, with a sign or without one. -/
def doubleWord : Bounds := ⟨-Int.pow 2 127, Int.pow 2 128⟩

def contain (bounds : Bounds) (number : Int) : Bool :=
  bounds.least ≤ number && number < bounds.limit

mutual

/-- Whether all numbers inside a value are legible and within bounds. -/
def allow (bounds : Bounds) : Value → Bool
  | .integer number => bounds.contain number
  | .illegible => false
  | .array elements => allowElements bounds elements
  | .table members => allowMembers bounds members
  | _ => true

def allowElements (bounds : Bounds) : List Value → Bool
  | [] => true
  | value :: rest => allow bounds value && allowElements bounds rest

def allowMembers (bounds : Bounds) : List (String × Value) → Bool
  | [] => true
  | (_, value) :: rest => allow bounds value && allowMembers bounds rest

end

theorem contain_of_le {inner outer : Bounds} (least : outer.least ≤ inner.least)
    (limit : inner.limit ≤ outer.limit) {number : Int} (within : inner.contain number = true) :
    outer.contain number = true := by
  simp only [contain, Bool.and_eq_true, decide_eq_true_eq] at within ⊢
  omega

mutual

theorem allow_of_le {inner outer : Bounds} (least : outer.least ≤ inner.least)
    (limit : inner.limit ≤ outer.limit) :
    (value : Value) → inner.allow value = true → outer.allow value = true
  | .integer _, allowed => by
    rw [allow] at allowed ⊢
    exact contain_of_le least limit allowed
  | .illegible, allowed => by simp [allow] at allowed
  | .array elements, allowed => by
    rw [allow] at allowed ⊢
    exact allowElements_of_le least limit elements allowed
  | .table members, allowed => by
    rw [allow] at allowed ⊢
    exact allowMembers_of_le least limit members allowed
  | .string _, _ => by simp [allow]
  | .float _, _ => by simp [allow]
  | .boolean _, _ => by simp [allow]
  | .dateTime _, _ => by simp [allow]

theorem allowElements_of_le {inner outer : Bounds} (least : outer.least ≤ inner.least)
    (limit : inner.limit ≤ outer.limit) :
    (elements : List Value) → inner.allowElements elements = true →
      outer.allowElements elements = true
  | [], _ => rfl
  | value :: rest, allowed => by
    simp only [allowElements, Bool.and_eq_true] at allowed ⊢
    exact ⟨allow_of_le least limit value allowed.1, allowElements_of_le least limit rest allowed.2⟩

theorem allowMembers_of_le {inner outer : Bounds} (least : outer.least ≤ inner.least)
    (limit : inner.limit ≤ outer.limit) :
    (members : List (String × Value)) → inner.allowMembers members = true →
      outer.allowMembers members = true
  | [], _ => rfl
  | (_, value) :: rest, allowed => by
    simp only [allowMembers, Bool.and_eq_true] at allowed ⊢
    exact ⟨allow_of_le least limit value allowed.1, allowMembers_of_le least limit rest allowed.2⟩

end

end Bounds

/-- The key that is reserved for date-times: a table that begins with it stands for one. -/
def dateTimeKey : String := "$__toml_private_datetime"

mutual

/-- Whether a value keeps to what TOML promises: legible numbers of 64 bits, and date-times under
the key that is reserved for them. -/
def Value.isStandard : Value → Bool
  | .integer number => Bounds.standard.contain number
  | .illegible => false
  | .array elements => elementsAreStandard elements
  | .table [] => true
  | .table ((key, value) :: rest) =>
    if key = dateTimeKey then
      match value with
      | .string text => isDateTime text.toList
      | _ => false
    else value.isStandard && membersAreStandard rest
  | _ => true

def elementsAreStandard : List Value → Bool
  | [] => true
  | value :: rest => value.isStandard && elementsAreStandard rest

def membersAreStandard : List (String × Value) → Bool
  | [] => true
  | (_, value) :: rest => value.isStandard && membersAreStandard rest

end

end ShellTree.Toml
