/-
# Shortest decimals

The decimal with the fewest digits that reads back as a given double, and of those the nearest to
it.

The doubles around `significand · 2 ^ exponent` leave it an interval: every real number in it rounds
to that double.  The ends of the interval belong to it if the significand is even.  For one, two, …,
seventeen digits in turn, the two neighbours of the double on the grid of the decimals with that
many digits are tested; if the grid meets the interval at all, one of these two is in it.  All
comparisons are between natural numbers, so the result is exact.
-/
import FormLetter.Number.Binary64

namespace FormLetter

/-- The decimal number `digits · 10 ^ exponent`. -/
structure Decimal where
  digits : Nat
  exponent : Int
deriving DecidableEq

/-- Which of two equally near decimals is taken. -/
inductive Tie where
  /-- The larger one. -/
  | up
  /-- The one whose last digit is even. -/
  | even
deriving DecidableEq

namespace Decimal

/-- A positive number and the interval of the numbers that round to it, over a common denominator.
-/
structure Neighbourhood where
  lower : Nat
  value : Nat
  upper : Nat
  denominator : Nat
  /-- Do the two ends belong to the interval? -/
  closed : Bool

namespace Neighbourhood

/-- The interval of a double.  It reaches half way to the next double on either side; below a power
of two the next double is only half as far, save where the exponent is the least one. -/
def ofDouble (significand : Nat) (exponent : Int) : Neighbourhood :=
  let below := if significand = Binary64.fractions ∧ exponent ≠ -1074 then 1 else 2
  let factor := 1 <<< (exponent - 2).toNat
  { lower := (4 * significand - below) * factor
    value := 4 * significand * factor
    upper := (4 * significand + 2) * factor
    denominator := 1 <<< (2 - exponent).toNat
    closed := significand % 2 == 0 }

/-- The same interval, measured in units of `10 ^ exponent`. -/
def scale (n : Neighbourhood) (exponent : Int) : Neighbourhood :=
  let factor := Nat.pow 10 (-exponent).toNat
  { lower := n.lower * factor
    value := n.value * factor
    upper := n.upper * factor
    denominator := n.denominator * Nat.pow 10 exponent.toNat
    closed := n.closed }

/-- Is the whole number in the interval? -/
def contains (n : Neighbourhood) (whole : Nat) : Bool :=
  let x := whole * n.denominator
  if n.closed then n.lower ≤ x && x ≤ n.upper else n.lower < x && x < n.upper

/-- The whole number of the interval that is nearest to its value, if one of the value's two
neighbours is in it. -/
def nearest? (tie : Tie) (n : Neighbourhood) : Option Nat :=
  let below := n.value / n.denominator
  let above := below + 1
  let twice := 2 * (n.value % n.denominator)
  let takeAbove :=
    n.denominator < twice ||
      (twice == n.denominator && (tie == .up || below % 2 == 1))
  if n.contains below then
    if n.contains above && takeAbove then some above else some below
  else if n.contains above then some above
  else none

/-- The number `p` such that the value is at least `10 ^ (p - 1)` and less than `10 ^ p`. -/
def places (n : Neighbourhood) : Int :=
  if n.denominator ≤ n.value then (Nat.toDigits 10 (n.value / n.denominator)).length
  else 1 - (Nat.toDigits 10 ((n.denominator - 1) / n.value)).length

end Neighbourhood

/-- The decimal with at most `count` digits that is nearest to the value, if it is in the interval.
-/
def ofDigitCount? (tie : Tie) (n : Neighbourhood) (count : Nat) : Option Decimal :=
  let exponent := n.places - count
  ((n.scale exponent).nearest? tie).map (⟨·, exponent⟩)

/-- The shortest decimal that reads back as the double `significand · 2 ^ exponent`, for a positive
significand.  Seventeen digits always suffice. -/
def shortest (tie : Tie) (significand : Nat) (exponent : Int) : Decimal :=
  let n := Neighbourhood.ofDouble significand exponent
  ((List.range' 1 17).findSome? (ofDigitCount? tie n)).getD ⟨0, 0⟩

end Decimal
end FormLetter
