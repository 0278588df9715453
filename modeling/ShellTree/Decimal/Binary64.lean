/-!
# Double-precision numbers

A finite double is a sign, a significand below 2^53 and a power of two. `Binary64.ofDecimal` rounds
a decimal to the nearest double in exact arithmetic; a tie goes to the even significand.
-/

namespace ShellTree

/-- A double-precision number. A finite one is `significand * 2 ^ exponent`, with its sign. -/
inductive Binary64 where
  | nan
  | infinite (negative : Bool)
  | finite (negative : Bool) (significand : Nat) (exponent : Int)
deriving DecidableEq

namespace Binary64

def precision : Nat := 53

def leastExponent : Int := -1074

def greatestExponent : Int := 971

/-- The quotient of two naturals to the nearest natural; a half goes to the even neighbour. -/
def divToEven (num den : Nat) : Nat :=
  let quotient := num / den
  let twice := 2 * (num % den)
  if twice < den ∨ (twice = den ∧ quotient % 2 = 0) then quotient else quotient + 1

/-- Multiplies the ratio `num / den` by `base ^ power`, as a ratio again. -/
def scaleRatio (base : Nat) (power : Int) (num den : Nat) : Nat × Nat :=
  if 0 ≤ power then (num * base.pow power.toNat, den) else (num, den * base.pow (-power).toNat)

/-- Whether `base ^ power` is at most `num / den`. -/
def powerLe (base : Nat) (power : Int) (num den : Nat) : Bool :=
  let scaled := scaleRatio base power den num
  scaled.1 ≤ scaled.2

/-- The greatest power of two at most `num / den`. The difference of the two logarithms is that
power or one above it. -/
def floorLog2 (num den : Nat) : Int :=
  let estimate := (num.log2 : Int) - den.log2
  if powerLe 2 estimate num den then estimate else estimate - 1

/-- The double nearest to the positive ratio `num / den`. -/
def ofRatio (negative : Bool) (num den : Nat) : Binary64 :=
  let exponent := max leastExponent (floorLog2 num den - (precision - 1 : Nat))
  let scaled := scaleRatio 2 (-exponent) num den
  let significand := divToEven scaled.1 scaled.2
  if significand < Nat.pow 2 precision then
    if exponent ≤ greatestExponent then .finite negative significand exponent else .infinite negative
  else if exponent < greatestExponent then .finite negative (significand / 2) (exponent + 1)
  else .infinite negative

/-- The decimal exponent past which every decimal with a nonzero digit in front is infinite or zero
as a double. -/
def decimalRange : Int := 400

/-- The double nearest to `digits * 10 ^ exponent`. Magnitudes far outside the range are settled
from the number of digits alone. -/
def ofDecimal (negative : Bool) (digits : Nat) (exponent : Int) : Binary64 :=
  let magnitude := (digits.repr.length : Int) + exponent
  if digits = 0 ∨ magnitude < -decimalRange then .finite negative 0 leastExponent
  else if decimalRange < magnitude then .infinite negative
  else
    let ratio := scaleRatio 10 exponent digits 1
    ofRatio negative ratio.1 ratio.2

end Binary64

end ShellTree
