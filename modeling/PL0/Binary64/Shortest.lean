import PL0.Binary64.Basic

/-!
# The shortest decimal that reads back

Among all decimals that round to a given double, the one written is the one
with the fewest digits, and among those the one nearest to the double.  All
comparisons are made in exact arithmetic on natural numbers.
-/

namespace PL0.Binary64

/-- The decimal `0.d₁d₂…dₙ * 10 ^ point` of a list of digits. -/
structure Decimal where
  digits : List Char
  point : Int
deriving DecidableEq

/-- The number of decimal digits of a natural number. -/
def digitCount (n : Nat) : Nat :=
  (Nat.toDigits 10 n).length

/-- The exponent `k` for which a positive quotient lies in
`[10 ^ (k - 1), 10 ^ k)`. -/
def decimalOrder (numerator denominator : Nat) : Int :=
  if denominator ≤ numerator then digitCount (numerator / denominator)
  else 1 - (digitCount ((denominator - 1) / numerator) : Int)

/-- The multiple of `10 ^ grid` nearest to `significand * 2 ^ exponent` among
those that round to it, as a number of grid steps.  Values and interval ends
are compared as multiples of a quarter of the last binary place.  A half of a
step rounds up. -/
def nearestOnGrid (significand : Nat) (exponent : Int) (grid : Int) :
    Option Nat :=
  let quarter := exponent - 2
  let scale := Nat.pow 2 quarter.toNat * Nat.pow 10 (-grid).toNat
  let step := Nat.pow 2 (-quarter).toNat * Nat.pow 10 grid.toNat
  let value := 4 * significand * scale
  let gapBelow :=
    if significand = Nat.pow 2 52 && -1074 < exponent then 1 else 2
  let low := (4 * significand - gapBelow) * scale
  let high := (4 * significand + 2) * scale
  let readsBack (count : Nat) : Bool :=
    if significand % 2 = 0 then low ≤ count * step && count * step ≤ high
    else low < count * step && count * step < high
  let below := value / step
  let above := below + 1
  if readsBack below && (!readsBack above || 2 * (value % step) < step)
    then some below
  else if readsBack above then some above
  else none

/-- The digits of a number of grid steps, without the zeros at the end. -/
def significantDigits (count : Nat) : List Char :=
  ((Nat.toDigits 10 count).reverse.dropWhile (· = '0')).reverse

/-- The shortest decimal that rounds to `significand * 2 ^ exponent`: the
first of the grids of one, two, … seventeen digits that has a decimal of the
interval. -/
def shortest (significand : Nat) (exponent : Int) : Decimal :=
  let order :=
    decimalOrder (significand * Nat.pow 2 exponent.toNat)
      (Nat.pow 2 (-exponent).toNat)
  let found := (List.range 17).findSome? fun (others : Nat) =>
    let grid := order - 1 - (others : Int)
    (nearestOnGrid significand exponent grid).map fun count => (count, grid)
  match found with
  | some (count, grid) => ⟨significantDigits count, digitCount count + grid⟩
  | none => ⟨['0'], 1⟩

end PL0.Binary64
