import PL0.Proofs.Binary64.Rounding

/-!
# The shortest decimal rounds to its double

A grid of decimals is tested with natural numbers: values of doubles are
multiples of a scale, decimals are multiples of a step, and the two are the
powers of two and ten times one common factor.  A count of steps passes the
test if and only if the decimal rounds to the double.  Where the step is less
than the width of the interval one of the two neighbours of the double passes,
and with seventeen digits the step is always less than that.
-/

namespace PL0.Binary64

/-- A quarter of the last binary place, in the units of the comparison. -/
def gridScale (exponent grid : Int) : Nat :=
  2 ^ (exponent - 2).toNat * 10 ^ (-grid).toNat

/-- A step of the grid, in the units of the comparison. -/
def gridStep (exponent grid : Int) : Nat :=
  2 ^ (-(exponent - 2)).toNat * 10 ^ grid.toNat

/-- Whether a number of grid steps lies in the interval of a double. -/
def readsBack (significand : Nat) (exponent grid : Int) (count : Nat) : Bool :=
  let low :=
    (4 * significand - gapBelow significand exponent) * gridScale exponent grid
  let high := (4 * significand + 2) * gridScale exponent grid
  let size := count * gridStep exponent grid
  if significand % 2 = 0 then low ≤ size && size ≤ high
    else low < size && size < high

theorem nearestOnGrid_eq (significand : Nat) (exponent grid : Int) :
    nearestOnGrid significand exponent grid =
      let value := 4 * significand * gridScale exponent grid
      let step := gridStep exponent grid
      let below := value / step
      if readsBack significand exponent grid below &&
          (!readsBack significand exponent grid (below + 1) ||
            2 * (value % step) < step) then
        some below
      else if readsBack significand exponent grid (below + 1)
        then some (below + 1)
      else none :=
  rfl

theorem readsBack_of_nearestOnGrid {significand count : Nat}
    {exponent grid : Int}
    (found : nearestOnGrid significand exponent grid = some count) :
    readsBack significand exponent grid count = true := by
  rw [nearestOnGrid_eq] at found
  grind

theorem nearestOnGrid_isSome {significand : Nat} {exponent grid : Int}
    (reads : readsBack significand exponent grid
        (4 * significand * gridScale exponent grid /
          gridStep exponent grid) = true ∨
      readsBack significand exponent grid
        (4 * significand * gridScale exponent grid /
          gridStep exponent grid + 1) = true) :
    (nearestOnGrid significand exponent grid).isSome := by
  rw [nearestOnGrid_eq]
  grind

/-- An integer power is a quotient of two natural ones. -/
theorem zpow_eq_pow_div_pow (base : ℚ) (exponent : ℤ) :
    base ^ exponent = base ^ exponent.toNat / base ^ (-exponent).toNat := by
  obtain ⟨size, rfl | rfl⟩ := exponent.eq_nat_or_neg
  · simp
  · simp

/-- The units of the comparison are a factor common to both sides. -/
theorem exists_grid_factor (exponent grid : Int) :
    ∃ factor : ℚ, 0 < factor ∧ (gridScale exponent grid : ℚ) =
      2 ^ (exponent - 2) * factor ∧
      (gridStep exponent grid : ℚ) = 10 ^ grid * factor := by
  refine ⟨2 ^ (-(exponent - 2)).toNat * 10 ^ (-grid).toNat,
    by positivity, ?_, ?_⟩
  · rw [zpow_eq_pow_div_pow, gridScale]
    push_cast
    field_simp
  · rw [zpow_eq_pow_div_pow, gridStep]
    push_cast
    field_simp

/-- The test of a grid is that the decimal rounds to the double. -/
theorem readsBack_iff_roundsTo {rank : Nat} (positive : 0 < rank) (grid : Int)
    (count : Nat) :
    readsBack (significandAt rank) (exponentAt rank) grid count = true ↔
      RoundsTo rank (count * 10 ^ grid) := by
  obtain ⟨factor, factorPos, scaleEq, stepEq⟩ :=
    exists_grid_factor (exponentAt rank) grid
  have unitEq :
      (2 : ℚ) ^ (exponentAt rank - 2) = 2 ^ placeAt rank * 2 ^ (-1076 : ℤ) := by
    rw [← zpow_natCast, ← zpow_add₀ two_ne_zero, exponentAt]
    congr 1
    ring
  have lowEq :
      (((4 * significandAt rank -
        gapBelow (significandAt rank) (exponentAt rank)) *
      gridScale (exponentAt rank) grid : ℕ) : ℚ) =
      lowerEnd rank * 2 ^ (-1076 : ℤ) * factor := by
    rw [lowerEnd_eq positive, Nat.cast_mul, Nat.cast_mul, scaleEq, unitEq,
      Nat.cast_pow, Nat.cast_ofNat]
    ring
  have highEq :
      (((4 * significandAt rank + 2) * gridScale (exponentAt rank) grid : ℕ) :
        ℚ) =
      lowerEnd (rank + 1) * 2 ^ (-1076 : ℤ) * factor := by
    rw [lowerEnd_succ, Nat.cast_mul, Nat.cast_mul, scaleEq, unitEq,
      Nat.cast_pow, Nat.cast_ofNat]
    ring
  have sizeEq : ((count * gridStep (exponentAt rank) grid : ℕ) : ℚ) =
      count * 10 ^ grid * factor := by
    rw [Nat.cast_mul, stepEq]
    ring
  rw [readsBack, significandAt_mod_two, RoundsTo]
  split
  · simp only [Bool.and_eq_true, decide_eq_true_eq]
    rw [← Nat.cast_le (α := ℚ), ← Nat.cast_le (α := ℚ), lowEq, highEq, sizeEq,
      mul_le_mul_iff_left₀ factorPos, mul_le_mul_iff_left₀ factorPos]
  · simp only [Bool.and_eq_true, decide_eq_true_eq]
    rw [← Nat.cast_lt (α := ℚ), ← Nat.cast_lt (α := ℚ), lowEq, highEq, sizeEq,
      mul_lt_mul_iff_left₀ factorPos, mul_lt_mul_iff_left₀ factorPos]

/-- One of the neighbours of a double on a grid rounds to it if the step of
the grid is less than twice the gap below the double. -/
theorem readsBack_below_or_above {significand : Nat} {exponent grid : Int}
    (positive : 0 < significand)
    (fine : gridStep exponent grid <
      2 * gapBelow significand exponent * gridScale exponent grid) :
    readsBack significand exponent grid
        (4 * significand * gridScale exponent grid /
          gridStep exponent grid) = true ∨
      readsBack significand exponent grid
        (4 * significand * gridScale exponent grid /
          gridStep exponent grid + 1) = true := by
  have stepPos : 0 < gridStep exponent grid := by
    unfold gridStep
    positivity
  have scalePos : 0 < gridScale exponent grid := by
    unfold gridScale
    positivity
  have gapCases : gapBelow significand exponent = 1 ∨
      gapBelow significand exponent = 2 := by
    unfold gapBelow
    split <;> simp
  simp only [readsBack, Nat.add_mul, Nat.sub_mul, Nat.mul_assoc 4,
    Nat.mul_assoc 2, Nat.one_mul] at fine ⊢
  generalize gridScale exponent grid = scale at *
  generalize gridStep exponent grid = step at *
  -- The double itself lies between the two neighbours, at the distance of the
  -- remainder.
  have division := Nat.mod_add_div (4 * (significand * scale)) step
  have remainderLt := Nat.mod_lt (4 * (significand * scale)) stepPos
  have scaleLe : scale ≤ significand * scale :=
    Nat.le_mul_of_pos_left scale positive
  rw [Nat.mul_comm step] at division
  generalize 4 * (significand * scale) / step * step = below at *
  generalize 4 * (significand * scale) % step = remainder at *
  generalize significand * scale = value at *
  by_cases isNear : 2 * remainder ≤ step
  · left
    rcases gapCases with gap | gap <;> rw [gap] at fine ⊢ <;> split <;>
      simp <;> omega
  · right
    rcases gapCases with gap | gap <;> rw [gap] at fine ⊢ <;> split <;>
      simp <;> omega

theorem lt_ten_pow_digitCount (n : Nat) : n < 10 ^ digitCount n :=
  (Nat.length_toDigits_le_iff (by decide) Nat.length_toDigits_pos).mp
    (Nat.le_refl _)

theorem ten_pow_digitCount_le {n : Nat} (positive : 0 < n) :
    10 ^ (digitCount n - 1) ≤ n := by
  by_cases isOne : digitCount n = 1
  · rw [isOne]
    exact positive
  · have countPos : 0 < digitCount n := Nat.length_toDigits_pos
    apply Nat.le_of_not_lt
    intro isLess
    have := (Nat.length_toDigits_le_iff (by decide) (by omega)).mpr isLess
    rw [← digitCount] at this
    omega

/-- The decimal order of a quotient is no greater than its size. -/
theorem ten_pow_decimalOrder_le {numerator denominator : Nat}
    (numeratorPos : 0 < numerator) (denominatorPos : 0 < denominator) :
    (10 : ℚ) ^ (decimalOrder numerator denominator - 1) ≤
      numerator / denominator := by
  rw [le_div_iff₀ (by exact_mod_cast denominatorPos)]
  rw [decimalOrder]
  split
  · next isGreater =>
    have quotientPos : 0 < numerator / denominator :=
      Nat.div_pos isGreater denominatorPos
    have countPos : 0 < digitCount (numerator / denominator) :=
      Nat.length_toDigits_pos
    have countLe := ten_pow_digitCount_le quotientPos
    have productLe :
        10 ^ (digitCount (numerator / denominator) - 1) * denominator ≤
          numerator :=
      (Nat.mul_le_mul_right denominator countLe).trans (Nat.div_mul_le_self _ _)
    rw [show (digitCount (numerator / denominator) : ℤ) - 1 =
      ((digitCount (numerator / denominator) - 1 : ℕ) : ℤ) by
        omega, zpow_natCast]
    exact_mod_cast productLe
  · have isLess := lt_ten_pow_digitCount ((denominator - 1) / numerator)
    have productLe :
        denominator ≤ numerator *
          10 ^ digitCount ((denominator - 1) / numerator) := by
      have := (Nat.div_lt_iff_lt_mul numeratorPos).mp isLess
      rw [Nat.mul_comm]
      omega
    rw [sub_sub_cancel_left, zpow_neg, zpow_natCast,
      inv_mul_le_iff₀ (by positivity), mul_comm]
    exact_mod_cast productLe

/-- The decimal order of the double of a rank. -/
def orderAt (rank : Nat) : Int :=
  decimalOrder (significandAt rank * 2 ^ (exponentAt rank).toNat)
    (2 ^ (-exponentAt rank).toNat)

theorem ten_pow_orderAt_le {rank : Nat} (positive : 0 < rank) :
    (10 : ℚ) ^ (orderAt rank - 1) ≤ significandAt rank *
      2 ^ exponentAt rank := by
  have orderLe := ten_pow_decimalOrder_le
    (Nat.mul_pos (significandAt_pos positive)
      (Nat.two_pow_pos (exponentAt rank).toNat))
    (Nat.two_pow_pos (-exponentAt rank).toNat)
  rw [orderAt, zpow_eq_pow_div_pow 2 (exponentAt rank), ← mul_div_assoc]
  exact_mod_cast orderLe

/-- A grid of seventeen digits has a decimal that rounds to the double. -/
theorem nearestOnGrid_seventeen {rank : Nat} (positive : 0 < rank) :
    (nearestOnGrid (significandAt rank) (exponentAt rank)
      (orderAt rank - 1 - 16)).isSome := by
  apply nearestOnGrid_isSome
  apply readsBack_below_or_above (significandAt_pos positive)
  obtain ⟨factor, factorPos, scaleEq, stepEq⟩ :=
    exists_grid_factor (exponentAt rank) (orderAt rank - 1 - 16)
  have orderLe := ten_pow_orderAt_le positive
  have powerEq : (10 : ℚ) ^ (orderAt rank - 1 - 16) =
      10 ^ (orderAt rank - 1) / 10 ^ 16 := by
    rw [zpow_sub₀ (by norm_num)]
    norm_cast
  have unitEq : (2 : ℚ) ^ exponentAt rank = 4 * 2 ^ (exponentAt rank - 2) := by
    rw [zpow_sub₀ two_ne_zero]
    norm_num
    ring
  have unitPos : (0 : ℚ) < 2 ^ (exponentAt rank - 2) := by positivity
  rw [← Nat.cast_lt (α := ℚ), stepEq, Nat.cast_mul, scaleEq, ← mul_assoc]
  apply mul_lt_mul_of_pos_right _ factorPos
  rw [powerEq, div_lt_iff₀ (by norm_num)]
  apply lt_of_le_of_lt orderLe
  rw [unitEq, gapBelow]
  generalize (2 : ℚ) ^ (exponentAt rank - 2) = unit at *
  split
  · next isPower =>
    simp only [Bool.and_eq_true, decide_eq_true_eq] at isPower
    rw [isPower.1]
    norm_num
    linarith
  · have significandLt : (significandAt rank : ℚ) < 2 ^ 53 := by
      exact_mod_cast significandAt_lt rank
    calc (significandAt rank : ℚ) * (4 * unit) < 2 ^ 53 * (4 * unit) :=
          mul_lt_mul_of_pos_right significandLt (by positivity)
      _ ≤ ((2 * 2 : ℕ) : ℚ) * unit * 10 ^ 16 := by
          norm_num
          linarith

/-- The shortest decimal of a double is a count of steps of some grid, and
rounds to the double. -/
theorem exists_shortest_eq {rank : Nat} (positive : 0 < rank) :
    ∃ (count : Nat) (grid : Int), RoundsTo rank (count * 10 ^ grid) ∧
      shortest (significandAt rank) (exponentAt rank) =
        ⟨significantDigits count, digitCount count + grid⟩ := by
  rw [shortest, Nat.pow_eq, Nat.pow_eq, ← orderAt]
  generalize foundEq : List.findSome? _ _ = found
  cases found with
  | none =>
      rw [List.findSome?_eq_none_iff] at foundEq
      have missing : nearestOnGrid (significandAt rank) (exponentAt rank)
          (orderAt rank - 1 - 16) = none :=
        Option.map_eq_none_iff.mp (foundEq 16 (by decide))
      have isSome := nearestOnGrid_seventeen positive
      simp [missing] at isSome
  | some found =>
      obtain ⟨others, _, foundAt⟩ := List.exists_of_findSome?_eq_some foundEq
      obtain ⟨count, isNearest, rfl⟩ := Option.map_eq_some_iff.mp foundAt
      exact ⟨_, _, (readsBack_iff_roundsTo positive _ _).mp
        (readsBack_of_nearestOnGrid isNearest), rfl⟩

end PL0.Binary64
