import ShellTree.Decimal.Binary64

/-!
# The shortest decimal of a double

The decimals that round to a given double form an interval, which holds its two ends exactly when
the significand is even. The shortest decimal of the double is the one in that interval with the
fewest digits, and the nearest of those; an exact tie goes away from zero. For each number of
digits it is enough to look at the two neighbours of the double on the grid of decimals with that
many digits. All comparisons are made in exact arithmetic.

`Binary64.positional` writes that decimal without an exponent and with at least one fraction digit.
-/

namespace ShellTree

namespace Binary64

/-- Compares `digits * 10 ^ power` with `quarters * 2 ^ (exponent - 2)`. -/
def compareDecimal (digits : Nat) (power : Int) (quarters : Nat) (exponent : Int) : Ordering :=
  let decimal := scaleRatio 10 power digits 1
  let binary := scaleRatio 2 (exponent - 2) quarters 1
  compare (decimal.1 * binary.2) (binary.1 * decimal.2)

/-- Whether a decimal rounds to the double with the given significand and exponent. The gap below a
power of two is half as wide as the one above it. -/
def roundsTo (digits : Nat) (power : Int) (significand : Nat) (exponent : Int) : Bool :=
  let below := if significand = Nat.pow 2 (precision - 1) ∧ leastExponent < exponent then 1 else 2
  let low := compareDecimal digits power (4 * significand - below) exponent
  let high := compareDecimal digits power (4 * significand + 2) exponent
  if significand % 2 = 0 then low != .lt && high != .gt else low == .gt && high == .lt

/-- The greatest power of ten at most `num / den`. The difference of the two digit counts is that
power or one above it. -/
def floorLog10 (num den : Nat) : Int :=
  let estimate := (num.repr.length : Int) - den.repr.length
  if powerLe 10 estimate num den then estimate else estimate - 1

/-- The shortest decimal of a nonzero double, as digits and a power of ten, tried from `count`
digits on; seventeen always suffice. -/
def shortestFrom (significand : Nat) (exponent leading : Int) : (fuel count : Nat) → Nat × Int
  | 0, _ => (0, 0)
  | fuel + 1, count =>
    let power := leading + 1 - (count : Int)
    let value := scaleRatio 2 exponent significand 1
    let scaled := scaleRatio 10 (-power) value.1 value.2
    let down := scaled.1 / scaled.2
    let up := down + 1
    let downFits := roundsTo down power significand exponent
    let upFits := roundsTo up power significand exponent
    if downFits && (!upFits || decide (2 * (scaled.1 % scaled.2) < scaled.2)) then (down, power)
    else if upFits then (up, power)
    else shortestFrom significand exponent leading fuel (count + 1)

/-- Moves trailing zeros of `digits` into the power of ten. -/
def stripZeros : (fuel : Nat) → Nat → Int → Nat × Int
  | 0, digits, power => (digits, power)
  | fuel + 1, digits, power =>
    if digits ≠ 0 ∧ digits % 10 = 0 then stripZeros fuel (digits / 10) (power + 1)
    else (digits, power)

/-- The shortest decimal of a double that is neither zero nor infinite, without trailing zeros. -/
def shortest (significand : Nat) (exponent : Int) : Nat × Int :=
  let value := scaleRatio 2 exponent significand 1
  let found := shortestFrom significand exponent (floorLog10 value.1 value.2) 17 1
  stripZeros 17 found.1 found.2

/-- `digits * 10 ^ power` without an exponent, with at least one digit on each side of the point. -/
def positionalText (digits : Nat) (power : Int) : String :=
  if 0 ≤ power then digits.repr ++ "".pushn '0' power.toNat ++ ".0"
  else
    let places := (-power).toNat
    let scale := Nat.pow 10 places
    let fraction := (digits % scale).repr
    (digits / scale).repr ++ "." ++ "".pushn '0' (places - fraction.length) ++ fraction

/-- The text of a double: its shortest decimal, or the name of what is not finite. -/
def positional : Binary64 → String
  | .nan => "NaN"
  | .infinite negative => if negative then "-inf" else "inf"
  | .finite negative significand exponent =>
    let magnitude :=
      if significand = 0 then positionalText 0 0
      else
        let decimal := shortest significand exponent
        positionalText decimal.1 decimal.2
    if negative then "-" ++ magnitude else magnitude

end Binary64

end ShellTree
