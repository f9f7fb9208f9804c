import Mathlib.Algebra.Order.Field.Power
import Mathlib.Data.Nat.Cast.Order.Field
import Mathlib.Data.Rat.Cast.Order
import Mathlib.Order.Monotone.Basic
import Mathlib.Tactic.FieldSimp
import Mathlib.Tactic.Linarith
import Mathlib.Tactic.NormNum
import Mathlib.Tactic.Positivity
import Mathlib.Tactic.Ring
import PL0.Binary64.Shortest

/-!
# Which double a decimal rounds to

The non-negative finite doubles are in the order of their bits, so the bits of
a double, read as a number, are its rank among them.  All values are multiples
of `2 ^ (-1074)`, and the numbers that round to a double reach half way to its
neighbours.  The intervals of different ranks have no number in common.  The
shortest decimal of a double lies in the interval of the double, because a
grid of seventeen digits is fine enough for all of them.
-/

namespace PL0.Binary64

/-- The significand of the double of a rank. -/
def significandAt (rank : Nat) : Nat :=
  if rank / 2 ^ 52 = 0 then rank % 2 ^ 52 else 2 ^ 52 + rank % 2 ^ 52

/-- The exponent of the double of a rank, counted from `-1074`. -/
def placeAt (rank : Nat) : Nat :=
  rank / 2 ^ 52 - 1

/-- The value of the double of a rank, as a multiple of `2 ^ (-1074)`. -/
def valueAt (rank : Nat) : Nat :=
  significandAt rank * 2 ^ placeAt rank

/-- The lower end of the numbers that round to the double of a rank, as a
multiple of `2 ^ (-1076)`.  The upper end is the lower end of the next
rank. -/
def lowerEnd (rank : Nat) : Nat :=
  2 * (valueAt (rank - 1) + valueAt rank)

theorem valueAt_succ (rank : Nat) :
    valueAt (rank + 1) = valueAt rank + 2 ^ placeAt rank := by
  by_cases isLast : rank % 2 ^ 52 = 2 ^ 52 - 1
  · have nextField : (rank + 1) / 2 ^ 52 = rank / 2 ^ 52 + 1 := by omega
    have nextFraction : (rank + 1) % 2 ^ 52 = 0 := by omega
    cases field : rank / 2 ^ 52 with
    | zero =>
        simp only [valueAt, significandAt, placeAt, nextField, nextFraction,
          field, isLast]
        decide
    | succ place =>
        simp only [valueAt, significandAt, placeAt, nextField, nextFraction,
          field, isLast, Nat.add_one_ne_zero, if_false, Nat.add_sub_cancel,
          Nat.add_zero, Nat.pow_succ 2 place]
        omega
  · have nextField : (rank + 1) / 2 ^ 52 = rank / 2 ^ 52 := by omega
    have nextFraction : (rank + 1) % 2 ^ 52 = rank % 2 ^ 52 + 1 := by omega
    have nextSignificand :
        significandAt (rank + 1) = significandAt rank + 1 := by
      simp only [significandAt, nextField, nextFraction]
      split <;> omega
    rw [valueAt, valueAt, nextSignificand, placeAt, nextField, ← placeAt,
      Nat.succ_mul]

theorem valueAt_strictMono : StrictMono valueAt := by
  apply strictMono_nat_of_lt_succ
  intro rank
  rw [valueAt_succ]
  exact Nat.lt_add_of_pos_right (Nat.two_pow_pos _)

theorem lowerEnd_strictMono : StrictMono lowerEnd := by
  apply strictMono_nat_of_lt_succ
  intro rank
  have below : valueAt (rank - 1) ≤ valueAt rank :=
    valueAt_strictMono.monotone (Nat.sub_le rank 1)
  have above : valueAt rank < valueAt (rank + 1) :=
    valueAt_strictMono (Nat.lt_succ_self rank)
  simp only [lowerEnd, Nat.add_sub_cancel]
  omega

/-- The upper end is half a place above the double. -/
theorem lowerEnd_succ (rank : Nat) :
    lowerEnd (rank + 1) = (4 * significandAt rank + 2) * 2 ^ placeAt rank := by
  rw [lowerEnd, Nat.add_sub_cancel, valueAt_succ, valueAt]
  ring

/-- How far the numbers that round to a double reach below it, in quarters of
a place. -/
def gapBelow (significand : Nat) (exponent : Int) : Nat :=
  if significand = 2 ^ 52 && -1074 < exponent then 1 else 2

/-- The exponent of the double of a rank. -/
def exponentAt (rank : Nat) : Int :=
  placeAt rank - 1074

theorem lowerEnd_eq {rank : Nat} (positive : 0 < rank) :
    lowerEnd rank =
      (4 * significandAt rank -
        gapBelow (significandAt rank) (exponentAt rank)) *
      2 ^ placeAt rank := by
  obtain ⟨before, rfl⟩ : ∃ before, rank = before + 1 := ⟨rank - 1, by omega⟩
  have next := valueAt_succ before
  simp only [lowerEnd, Nat.add_sub_cancel]
  by_cases isPower : (before + 1) % 2 ^ 52 = 0 ∧ 2 ≤ (before + 1) / 2 ^ 52
  · -- The double is a power of two, and its lower neighbour is half as far
    -- as its upper one.
    have field : before / 2 ^ 52 + 1 = (before + 1) / 2 ^ 52 := by omega
    have place : placeAt (before + 1) = placeAt before + 1 := by
      simp only [placeAt]
      omega
    have significand : significandAt (before + 1) = 2 ^ 52 := by
      rw [significandAt, isPower.1, if_neg (by omega), Nat.add_zero]
    have gap :
        gapBelow (significandAt (before + 1)) (exponentAt (before + 1)) =
          1 := by
      simp [gapBelow, significand, exponentAt, place]
    have valueEq :
        valueAt (before + 1) = 2 ^ 52 * (2 ^ placeAt before * 2) := by
      rw [valueAt, significand, place, Nat.pow_succ 2 (placeAt before)]
    rw [gap, significand, place, Nat.pow_succ 2 (placeAt before)]
    omega
  · have place : placeAt (before + 1) = placeAt before := by
      simp only [placeAt]
      omega
    have gap :
        gapBelow (significandAt (before + 1)) (exponentAt (before + 1)) =
          2 := by
      have isNotPower : ¬ (significandAt (before + 1) = 2 ^ 52 ∧
          -1074 < exponentAt (before + 1)) := by
        simp only [exponentAt, significandAt, placeAt]
        split <;> omega
      simpa [gapBelow] using isNotPower
    have valueEq :
        valueAt (before + 1) = significandAt (before + 1) *
          2 ^ placeAt before := by
      rw [valueAt, place]
    rw [gap, place, Nat.sub_mul, Nat.mul_assoc, ← valueEq]
    omega

theorem significandAt_pos {rank : Nat} (positive : 0 < rank) :
    0 < significandAt rank := by
  rw [significandAt]
  split <;> omega

theorem significandAt_lt (rank : Nat) : significandAt rank < 2 ^ 53 := by
  rw [significandAt]
  split <;> omega

theorem significandAt_mod_two (rank : Nat) :
    significandAt rank % 2 = rank % 2 := by
  rw [significandAt]
  split <;> omega

/-- Below infinity the magnitude of a double is what its rank says. -/
theorem magnitude_of_lt_infinity {number : Binary64}
    (bound : number.bits.toNat < infinity.bits.toNat) :
    number.magnitude = .finite (significandAt number.bits.toNat)
      (exponentAt number.bits.toNat) := by
  have infinityBits : infinity.bits.toNat = 2047 * 2 ^ 52 := by decide
  have fieldEq : number.exponentField = number.bits.toNat / 2 ^ 52 := by
    rw [exponentField, Nat.pow_eq, Nat.pow_eq]
    omega
  have fieldLt : number.bits.toNat / 2 ^ 52 < 2047 := by omega
  rw [magnitude, fieldEq, if_neg (by omega), significandAt, exponentAt, placeAt,
    fraction, Nat.pow_eq]
  split
  · next isZero => rw [isZero]; rfl
  · congr 1
    omega

/-- The numbers that round to the double of a rank.  The ends belong to it if
it is even. -/
def RoundsTo (rank : Nat) (value : ℚ) : Prop :=
  if rank % 2 = 0 then
    lowerEnd rank * 2 ^ (-1076 : ℤ) ≤ value ∧
      value ≤ lowerEnd (rank + 1) * 2 ^ (-1076 : ℤ)
  else
    lowerEnd rank * 2 ^ (-1076 : ℤ) < value ∧
      value < lowerEnd (rank + 1) * 2 ^ (-1076 : ℤ)

namespace RoundsTo

variable {rank other : Nat} {value : ℚ}

theorem bounds (rounds : RoundsTo rank value) :
    lowerEnd rank * 2 ^ (-1076 : ℤ) ≤ value ∧
      value ≤ lowerEnd (rank + 1) * 2 ^ (-1076 : ℤ) := by
  rw [RoundsTo] at rounds
  split at rounds
  · exact rounds
  · exact ⟨rounds.1.le, rounds.2.le⟩

/-- A number between two ranks rounds to one of them only. -/
theorem not_lt (rounds : RoundsTo rank value)
    (otherRounds : RoundsTo other value) : ¬ rank < other := by
  intro isLess
  have unitPos : (0 : ℚ) < 2 ^ (-1076 : ℤ) := by positivity
  have endsLe : lowerEnd other ≤ lowerEnd (rank + 1) := by
    have := otherRounds.bounds.1.trans rounds.bounds.2
    exact_mod_cast le_of_mul_le_mul_right this unitPos
  have isNext : other = rank + 1 := by
    have := lowerEnd_strictMono.le_iff_le.mp endsLe
    omega
  subst isNext
  -- Of two neighbours one is odd, and its interval is open at the end they
  -- share.
  rw [RoundsTo] at rounds otherRounds
  rcases Nat.mod_two_eq_zero_or_one rank with isEven | isOdd
  · rw [if_pos isEven] at rounds
    rw [if_neg (by omega)] at otherRounds
    exact absurd rounds.2 (not_le_of_gt otherRounds.1)
  · rw [if_neg (by omega)] at rounds
    rw [if_pos (by omega)] at otherRounds
    exact absurd otherRounds.1 (not_le_of_gt rounds.2)

/-- A number rounds to one double only. -/
theorem unique (rounds : RoundsTo rank value)
    (otherRounds : RoundsTo other value) : rank = other :=
  Nat.le_antisymm (Nat.le_of_not_lt (otherRounds.not_lt rounds))
    (Nat.le_of_not_lt (rounds.not_lt otherRounds))

end RoundsTo

theorem roundsTo_zero : RoundsTo 0 0 := by
  rw [RoundsTo, if_pos rfl]
  constructor
  · simp [lowerEnd, valueAt, significandAt]
  · positivity

end PL0.Binary64
