import ShellTree.Toml.Value

/-!
# Numbers in TOML

Integers are decimal with an optional sign, or hexadecimal, octal or binary without one. Floats have
a fraction, an exponent or both, or are `inf` or `nan`. Underscores may stand between digits.

The form of a numeral is checked before its digits are. Behind an underscore, a decimal integer may
hold anything that leaves the underscores between hexadecimal digits, and the digits behind the
prefix of a base may be missing; such a numeral is `Value.illegible`.
-/

namespace ShellTree.Toml

/-- The value of a digit of any base up to sixteen. -/
def digitValue? (c : Char) : Option Nat :=
  if '0' ≤ c ∧ c ≤ '9' then some (c.toNat - '0'.toNat)
  else if 'a' ≤ c ∧ c ≤ 'f' then some (c.toNat - 'a'.toNat + 10)
  else if 'A' ≤ c ∧ c ≤ 'F' then some (c.toNat - 'A'.toNat + 10)
  else none

def isDigitOf (base : Nat) (c : Char) : Bool := (digitValue? c).any (· < base)

def isDigitOrMark (base : Nat) (c : Char) : Bool := isDigitOf base c || c = '_'

/-- The number that digits denote, the most significant first. -/
def numberOf (base : Nat) (digits : List Nat) : Nat :=
  digits.foldl (fun number digit => number * base + digit) 0

/-- The number that digits with underscores between them denote. -/
def numeralValue (base : Nat) (digits : List Char) : Nat :=
  numberOf base (digits.filterMap digitValue?)

/-- Whether each underscore has a digit of the given base on both sides; `before` says whether there
is one in front of it all. -/
def marksBetween (base : Nat) : (before : Bool) → List Char → Bool
  | _, [] => true
  | before, '_' :: rest => before && rest.head?.any (isDigitOf base) && marksBetween base false rest
  | _, c :: rest => marksBetween base (isDigitOf base c) rest

def marksFit (base : Nat) (numeral : List Char) : Bool := marksBetween base false numeral

/-- Splits a sign off; `true` stands for minus. -/
def splitSign : List Char → Bool × List Char
  | '-' :: rest => (true, rest)
  | '+' :: rest => (false, rest)
  | rest => (false, rest)

def signed (negative : Bool) (number : Nat) : Int := if negative then -number else number

/-- Reads the digits behind the prefix of a base. -/
def digitsOf? (base : Nat) (digits : List Char) : Option Value :=
  if digits.all (isDigitOrMark base) && marksFit base digits then
    some (if digits.isEmpty then .illegible else .integer (numeralValue base digits))
  else none

/-- Splits off the digits at the front, with any underscores among them. There must be a digit, and
no zero in front of another one unless `zeros` allows it. -/
def splitDigits? (zeros : Bool) (input : List Char) : Option (List Char × List Char) :=
  let (digits, rest) := input.span (isDigitOrMark 10)
  let count := digits.countP (isDigitOf 10)
  if count = 0 ∨ (1 < count ∧ digits.head? = some '0' ∧ !zeros) then none else some (digits, rest)

def fraction? : List Char → Option (List Char × List Char)
  | '.' :: rest => splitDigits? true rest
  | rest => some ([], rest)

def exponent? : List Char → Option (Int × List Char)
  | [] => some (0, [])
  | c :: rest =>
    if c = 'e' ∨ c = 'E' then do
      let (negative, rest) := splitSign rest
      let (digits, rest) ← splitDigits? true rest
      return (signed negative (numeralValue 10 digits), rest)
    else some (0, c :: rest)

/-- Reads the whole text as a float that is a number, without its sign. -/
def finite? (negative : Bool) (input : List Char) : Option Value := do
  let (whole, rest) ← splitDigits? false input
  let (fraction, rest) ← fraction? rest
  let (power, rest) ← exponent? rest
  let places := fraction.countP (isDigitOf 10)
  if rest.isEmpty then
    match Binary64.ofDecimal negative (numeralValue 10 (whole ++ fraction)) (power - places) with
    | .infinite _ => some .illegible
    | number => some (.float number)
  else none

def decimal? (input : List Char) : Option Value :=
  let (negative, value) := splitSign input
  let (digits, rest) := value.span Char.isDigit
  if rest.any fun c => c = '.' || c = 'e' || c = 'E' then
    if marksFit 10 input then finite? negative value else none
  else if digits.head? = some '0' ∧ value ≠ ['0'] then none
  else
    match rest with
    | [] => if digits.isEmpty then none else some (.integer (signed negative (numeralValue 10 digits)))
    | '_' :: _ =>
      if marksFit 16 input then
        some (if value.all (isDigitOrMark 10) then .integer (signed negative (numeralValue 10 value))
          else .illegible)
      else none
    | _ => none

def number? (input : List Char) : Option Value :=
  match input with
  | '0' :: 'x' :: digits => digitsOf? 16 digits
  | '0' :: 'o' :: digits => digitsOf? 8 digits
  | '0' :: 'b' :: digits => digitsOf? 2 digits
  | input =>
    let (negative, rest) := splitSign input
    if rest = ['i', 'n', 'f'] then some (.float (.infinite negative))
    else if rest = ['n', 'a', 'n'] then some (.float .nan)
    else decimal? input

end ShellTree.Toml
