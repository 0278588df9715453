/-!
# Dates and times in TOML

A date-time is a date, a time, or a date and a time with an optional offset behind them. Each part
is checked against its range, the day against its month; a time may leave out its seconds, and the
second sixty exists.
-/

namespace ShellTree.Toml

def twoDigits? (a b : Char) : Option Nat :=
  if a.isDigit ∧ b.isDigit then some ((a.toNat - '0'.toNat) * 10 + (b.toNat - '0'.toNat)) else none

/-- The number of days in a month of a year, zero if there is no such month. -/
def daysInMonth (year month : Nat) : Nat :=
  if month = 2 then
    if year % 4 = 0 ∧ (year % 100 ≠ 0 ∨ year % 400 = 0) then 29 else 28
  else if month = 4 ∨ month = 6 ∨ month = 9 ∨ month = 11 then 30
  else if 1 ≤ month ∧ month ≤ 12 then 31
  else 0

def afterDate? : List Char → Option (List Char)
  | y :: y' :: y'' :: y''' :: '-' :: m :: m' :: '-' :: d :: d' :: rest => do
    let year := (← twoDigits? y y') * 100 + (← twoDigits? y'' y''')
    let month ← twoDigits? m m'
    let day ← twoDigits? d d'
    if 1 ≤ day ∧ day ≤ daysInMonth year month then some rest else none
  | _ => none

/-- What follows hours and minutes at the front. -/
def afterMinutes? : List Char → Option (List Char)
  | h :: h' :: ':' :: m :: m' :: rest => do
    if (← twoDigits? h h') ≤ 23 ∧ (← twoDigits? m m') ≤ 59 then some rest else none
  | _ => none

/-- What follows a time at the front; only a time with seconds may have a fraction. -/
def afterTime? (input : List Char) : Option (List Char) := do
  match ← afterMinutes? input with
  | ':' :: s :: s' :: rest =>
    if (← twoDigits? s s') ≤ 60 then
      match rest with
      | '.' :: c :: rest => if c.isDigit then some (rest.dropWhile Char.isDigit) else none
      | rest => some rest
    else none
  | rest => some rest

/-- Whether the text is an offset from universal time, or empty. -/
def isOffset : List Char → Bool
  | [] => true
  | 'Z' :: rest => rest.isEmpty
  | 'z' :: rest => rest.isEmpty
  | c :: rest => (c = '+' || c = '-') && afterMinutes? rest = some []

def isDate (input : List Char) : Bool := afterDate? input = some []

def isDateTime (input : List Char) : Bool :=
  match afterDate? input with
  | some [] => true
  | some (c :: rest) => (c = 'T' || c = 't' || c = ' ') && (afterTime? rest).any isOffset
  | none => afterTime? input = some []

end ShellTree.Toml
