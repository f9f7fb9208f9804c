import PL0.Proofs.Binary64.Text

/-!
# Decimals are rounded to the nearest double

A quotient is divided by a power of two so that its whole part has as many
binary digits as a significand, and is then rounded to a whole number, a half
to the even one.  The double that is put together from the power and the
significand is the one to which the quotient rounds.  From half way beyond the
greatest double on, that is infinity.
-/

namespace PL0.Binary64

/-- A double is the one nearest to a number that is not negative, and the even
one of two that are equally near.  Infinity stands for the next power of two
behind the greatest double. -/
def IsNearest (number : Binary64) (value : ℚ) : Prop :=
  number.bits.toNat < infinity.bits.toNat ∧ RoundsTo number.bits.toNat value ∨
    number = infinity ∧ lowerEnd infinity.bits.toNat * 2 ^ (-1076 : ℤ) ≤ value

/-- A quotient is rounded by at most a half, and by less to an odd number. -/
theorem roundHalfEven_bounds (numerator : Nat) {denominator : Nat}
    (positive : 0 < denominator) :
    (2 * (roundHalfEven numerator denominator * denominator) ≤
      2 * numerator + denominator ∧
      2 * numerator ≤ 2 * (roundHalfEven numerator denominator * denominator) +
        denominator) ∧
    (roundHalfEven numerator denominator % 2 = 1 →
      2 * (roundHalfEven numerator denominator * denominator) <
        2 * numerator + denominator ∧
        2 * numerator <
          2 * (roundHalfEven numerator denominator * denominator) +
            denominator) := by
  have parts := Nat.div_add_mod numerator denominator
  have small := Nat.mod_lt numerator positive
  have roundedEq : roundHalfEven numerator denominator =
      if 2 * (numerator % denominator) < denominator ∨
        2 * (numerator % denominator) = denominator ∧
        numerator / denominator % 2 = 0 then numerator / denominator
      else numerator / denominator + 1 := by
    simp [roundHalfEven]
  rw [Nat.mul_comm] at parts
  generalize roundHalfEven numerator denominator = rounded at roundedEq ⊢
  split at roundedEq <;> subst roundedEq
  · omega
  · rw [Nat.add_one_mul (numerator / denominator)]
    omega

theorem abs_roundHalfEven_sub_le (numerator : Nat) {denominator : Nat}
    (positive : 0 < denominator) :
    |(roundHalfEven numerator denominator - numerator / denominator : ℚ)| ≤
      1 / 2 ∧ (roundHalfEven numerator denominator % 2 = 1 →
        |(roundHalfEven numerator denominator - numerator / denominator : ℚ)| <
          1 / 2) := by
  obtain ⟨⟨low, high⟩, strict⟩ := roundHalfEven_bounds numerator positive
  have positive' : (0 : ℚ) < denominator := by exact_mod_cast positive
  generalize roundHalfEven numerator denominator = rounded at *
  have scaled : (rounded - numerator / denominator : ℚ) =
      (rounded * denominator - numerator) / denominator := by
    field_simp
  rw [scaled, abs_div, abs_of_pos positive', div_le_iff₀ positive',
    div_lt_iff₀ positive', abs_le, abs_lt]
  constructor
  · have low' :
        (2 * (rounded * denominator) : ℚ) ≤ 2 * numerator + denominator := by
      exact_mod_cast low
    have high' :
        (2 * numerator : ℚ) ≤ 2 * (rounded * denominator) + denominator := by
      exact_mod_cast high
    constructor <;> linarith
  · intro isOdd
    have low' :
        (2 * (rounded * denominator) : ℚ) < 2 * numerator + denominator := by
      exact_mod_cast (strict isOdd).1
    have high' :
        (2 * numerator : ℚ) < 2 * (rounded * denominator) + denominator := by
      exact_mod_cast (strict isOdd).2
    constructor <;> linarith

/-- The power of two below a quotient. -/
theorem two_zpow_binaryOrder {numerator denominator : Nat}
    (numeratorPos : 0 < numerator) (denominatorPos : 0 < denominator) :
    (2 : ℚ) ^ binaryOrder numerator denominator ≤ numerator / denominator ∧
      (numerator / denominator : ℚ) <
        2 ^ (binaryOrder numerator denominator + 1) := by
  have numeratorLow : (2 : ℚ) ^ (numerator.log2 : ℤ) ≤ numerator := by
    exact_mod_cast Nat.log2_self_le numeratorPos.ne'
  have numeratorHigh : (numerator : ℚ) < 2 ^ (numerator.log2 + 1 : ℤ) := by
    exact_mod_cast Nat.lt_log2_self
  have denominatorLow : (2 : ℚ) ^ (denominator.log2 : ℤ) ≤ denominator := by
    exact_mod_cast Nat.log2_self_le denominatorPos.ne'
  have denominatorHigh :
      (denominator : ℚ) < 2 ^ (denominator.log2 + 1 : ℤ) := by
    exact_mod_cast Nat.lt_log2_self
  have denominatorPos' : (0 : ℚ) < denominator := by
    exact_mod_cast denominatorPos
  have high : (numerator / denominator : ℚ) <
      2 ^ ((numerator.log2 : ℤ) - denominator.log2 + 1) := by
    rw [div_lt_iff₀ denominatorPos']
    calc (numerator : ℚ) < 2 ^ (numerator.log2 + 1 : ℤ) := numeratorHigh
      _ = 2 ^ ((numerator.log2 : ℤ) - denominator.log2 + 1) *
        2 ^ (denominator.log2 : ℤ) := by
          rw [← zpow_add₀ two_ne_zero]
          congr 1
          ring
      _ ≤ 2 ^ ((numerator.log2 : ℤ) - denominator.log2 + 1) * denominator := by
        gcongr
  have low : (2 : ℚ) ^ ((numerator.log2 : ℤ) - denominator.log2 - 1) ≤
      numerator / denominator := by
    rw [le_div_iff₀ denominatorPos']
    calc (2 : ℚ) ^ ((numerator.log2 : ℤ) - denominator.log2 - 1) * denominator
        ≤ 2 ^ ((numerator.log2 : ℤ) - denominator.log2 - 1) *
          2 ^ (denominator.log2 + 1 : ℤ) := by
          gcongr
      _ = 2 ^ (numerator.log2 : ℤ) := by
          rw [← zpow_add₀ two_ne_zero]
          congr 1
          ring
      _ ≤ numerator := numeratorLow
  -- Whether the quotient reaches the power of the two orders is what is
  -- compared.
  have compared :
      numerator * 2 ^ (-((numerator.log2 : ℤ) - denominator.log2)).toNat <
      denominator * 2 ^ ((numerator.log2 : ℤ) - denominator.log2).toNat ↔
      (numerator / denominator : ℚ) <
        2 ^ ((numerator.log2 : ℤ) - denominator.log2) := by
    rw [zpow_eq_pow_div_pow, div_lt_div_iff₀ denominatorPos' (by positivity)]
    rw [← Nat.cast_lt (α := ℚ)]
    push_cast
    rw [mul_comm (denominator : ℚ)]
  simp only [binaryOrder, Nat.pow_eq, compared]
  split
  · next below => exact ⟨low, by simpa using below⟩
  · next above => exact ⟨not_lt.mp above, high⟩

section Rank

variable {place significand : Nat}

/-- The value of the double that is put together from a place and a
significand.  A significand may have been rounded up to the next power of
two. -/
theorem valueAt_rank (bound : significand ≤ 2 ^ 53)
    (normal : place = 0 ∨ 2 ^ 52 ≤ significand) :
    valueAt (place * 2 ^ 52 + significand) = significand * 2 ^ place := by
  by_cases carries : significand = 2 ^ 53
  · have field : (place * 2 ^ 52 + significand) / 2 ^ 52 = place + 2 := by omega
    have fraction : (place * 2 ^ 52 + significand) % 2 ^ 52 = 0 := by omega
    rw [valueAt, significandAt, placeAt, field, fraction, carries,
      if_neg (by omega), Nat.add_sub_assoc (by decide), Nat.pow_succ]
    ring
  · rcases Nat.lt_or_ge significand (2 ^ 52) with subnormal | isNormal
    · obtain rfl : place = 0 := by omega
      have field : (0 * 2 ^ 52 + significand) / 2 ^ 52 = 0 := by omega
      have fraction : (0 * 2 ^ 52 + significand) % 2 ^ 52 = significand := by
        omega
      rw [valueAt, significandAt, placeAt, field, fraction, if_pos rfl]
    · have field : (place * 2 ^ 52 + significand) / 2 ^ 52 = place + 1 := by
        omega
      have fraction : (place * 2 ^ 52 + significand) % 2 ^ 52 =
          significand - 2 ^ 52 := by omega
      rw [valueAt, significandAt, placeAt, field, fraction, if_neg (by omega),
        Nat.add_sub_cancel, Nat.add_sub_cancel' isNormal]

theorem le_placeAt_rank (normal : place = 0 ∨ 2 ^ 52 ≤ significand) :
    place ≤ placeAt (place * 2 ^ 52 + significand) := by
  rw [placeAt]
  omega

theorem upperEnd_rank (bound : significand ≤ 2 ^ 53)
    (normal : place = 0 ∨ 2 ^ 52 ≤ significand) :
    (4 * significand + 2) * 2 ^ place ≤
      lowerEnd (place * 2 ^ 52 + significand + 1) := by
  have further : 2 ^ place ≤ 2 ^ placeAt (place * 2 ^ 52 + significand) :=
    Nat.pow_le_pow_right (by decide) (le_placeAt_rank normal)
  have valueEq := valueAt_rank bound normal
  rw [lowerEnd, Nat.add_sub_cancel, valueAt_succ, valueEq]
  calc (4 * significand + 2) * 2 ^ place
      = 4 * (significand * 2 ^ place) + 2 * 2 ^ place := by ring
    _ ≤ _ := by omega

/-- Below a power of two the doubles are closer. -/
theorem lowerEnd_rank (bound : significand ≤ 2 ^ 53)
    (normal : place = 0 ∨ 2 ^ 52 ≤ significand) :
    lowerEnd (place * 2 ^ 52 + significand) ≤ 4 * significand * 2 ^ place ∧
      (0 < significand → place = 0 ∨ 2 ^ 52 < significand →
        lowerEnd (place * 2 ^ 52 + significand) + 2 * 2 ^ place =
          4 * significand * 2 ^ place) := by
  have valueEq := valueAt_rank bound normal
  have shape : 4 * significand * 2 ^ place = 4 * (significand * 2 ^ place) := by
    ring
  have below : valueAt (place * 2 ^ 52 + significand - 1) ≤
      valueAt (place * 2 ^ 52 + significand) :=
    valueAt_strictMono.monotone (Nat.sub_le _ 1)
  rw [lowerEnd, shape]
  refine ⟨by omega, ?_⟩
  intro positive inside
  have rankEq :
      place * 2 ^ 52 + significand =
        place * 2 ^ 52 + (significand - 1) + 1 := by omega
  have placeEq : placeAt (place * 2 ^ 52 + (significand - 1)) = place := by
    rw [placeAt]
    omega
  have next := valueAt_succ (place * 2 ^ 52 + (significand - 1))
  rw [← rankEq, placeEq] at next
  have previous :
      place * 2 ^ 52 + significand - 1 =
        place * 2 ^ 52 + (significand - 1) := by omega
  rw [previous]
  omega

end Rank

/-- What is rounded to the significand of a double rounds to the double. -/
theorem roundsTo_rank {place significand : Nat} {scaled : ℚ}
    (nonneg : 0 ≤ scaled) (bound : significand ≤ 2 ^ 53)
    (normal : place = 0 ∨ 2 ^ 52 ≤ significand ∧ 2 ^ 52 ≤ scaled)
    (near : |(significand - scaled : ℚ)| ≤ 1 / 2)
    (nearer : significand % 2 = 1 → |(significand - scaled : ℚ)| < 1 / 2) :
    RoundsTo (place * 2 ^ 52 + significand)
      (scaled * 2 ^ (place - 1074 : ℤ)) := by
  have isNormal : place = 0 ∨ 2 ^ 52 ≤ significand := normal.imp_right And.left
  have unitPos : (0 : ℚ) < 2 ^ (-1076 : ℤ) := by positivity
  have placePos : (0 : ℚ) < 2 ^ place := by positivity
  have valueEq : scaled * 2 ^ (place - 1074 : ℤ) = 4 * scaled * 2 ^ place *
      2 ^ (-1076 : ℤ) := by
    have parts : (place - 1074 : ℤ) = 2 + place + -1076 := by ring
    rw [parts, zpow_add₀ two_ne_zero, zpow_add₀ two_ne_zero, zpow_natCast]
    ring
  have parity : (place * 2 ^ 52 + significand) % 2 = significand % 2 := by omega
  have upper : ((4 * significand + 2) * 2 ^ place : ℚ) ≤
      lowerEnd (place * 2 ^ 52 + significand + 1) := by
    exact_mod_cast upperEnd_rank bound isNormal
  obtain ⟨below, inside⟩ := lowerEnd_rank bound isNormal
  rw [RoundsTo, valueEq, parity, mul_le_mul_iff_left₀ unitPos,
    mul_le_mul_iff_left₀ unitPos, mul_lt_mul_iff_left₀ unitPos,
    mul_lt_mul_iff_left₀ unitPos]
  rw [abs_le] at near
  rw [abs_lt] at nearer
  split
  · constructor
    · by_cases isInside : 0 < significand ∧ (place = 0 ∨ 2 ^ 52 < significand)
      · have lower :
            (lowerEnd (place * 2 ^ 52 + significand) + 2 * 2 ^ place : ℚ) =
            4 * significand * 2 ^ place := by
          exact_mod_cast inside isInside.1 isInside.2
        nlinarith
      · -- The significand is none, or the power of two below which the
        -- doubles are closer.
        have reached : (significand : ℚ) ≤ scaled := by
          rcases Nat.eq_zero_or_pos significand with isZero | isPos
          · rw [isZero, Nat.cast_zero]
            exact nonneg
          · have isPower : significand = 2 ^ 52 := by omega
            have isLarge : (2 : ℚ) ^ 52 ≤ scaled :=
              (normal.resolve_left (by omega)).2
            rw [isPower]
            exact_mod_cast isLarge
        calc (lowerEnd (place * 2 ^ 52 + significand) : ℚ)
            ≤ 4 * significand * 2 ^ place := by exact_mod_cast below
          _ ≤ 4 * scaled * 2 ^ place := by gcongr
    · refine le_trans ?_ upper
      gcongr
      linarith
  · next isOdd =>
    have strict := nearer (by omega)
    have lower : (lowerEnd (place * 2 ^ 52 + significand) + 2 * 2 ^ place : ℚ) =
        4 * significand * 2 ^ place := by
      exact_mod_cast inside (by omega) (by omega)
    constructor
    · nlinarith
    · refine lt_of_lt_of_le ?_ upper
      gcongr
      linarith

/-- A quotient in units of the last place of the double to which it rounds. -/
theorem scaled_bounds {numerator denominator : Nat} {exponent : ℤ}
    (numeratorPos : 0 < numerator) (denominatorPos : 0 < denominator)
    (exponentEq : exponent =
      max (binaryOrder numerator denominator - 52) (-1074)) :
    (numerator / denominator : ℚ) / 2 ^ exponent < 2 ^ 53 ∧
      (exponent = -1074 ∨ 2 ^ 52 ≤ (numerator / denominator : ℚ) /
        2 ^ exponent) := by
  obtain ⟨low, high⟩ := two_zpow_binaryOrder numeratorPos denominatorPos
  have unitPos : (0 : ℚ) < 2 ^ exponent := by positivity
  constructor
  · rw [div_lt_iff₀ unitPos, ← zpow_natCast, ← zpow_add₀ two_ne_zero]
    exact high.trans_le (zpow_le_zpow_right₀ one_le_two (by norm_num; omega))
  · by_cases least : exponent = -1074
    · exact .inl least
    · refine .inr ?_
      rw [le_div_iff₀ unitPos, ← zpow_natCast, ← zpow_add₀ two_ne_zero]
      exact le_trans (zpow_le_zpow_right₀ one_le_two (by norm_num; omega)) low

/-- The bits of a rounded quotient are the rank to which it rounds, or those
of infinity. -/
theorem ofRatio_rank {numerator denominator : Nat}
    (numeratorPos : 0 < numerator) (denominatorPos : 0 < denominator) :
    ∃ rank, RoundsTo rank (numerator / denominator) ∧
      (ofRatio numerator denominator).bits.toNat =
        min rank infinity.bits.toNat := by
  obtain ⟨exponent, exponentEq⟩ :
      ∃ exponent, exponent = max (binaryOrder numerator denominator - 52)
        (-1074) := ⟨_, rfl⟩
  obtain ⟨below, above⟩ := scaled_bounds numeratorPos denominatorPos exponentEq
  obtain ⟨significand, significandEq⟩ : ∃ significand, significand =
    roundHalfEven (numerator * Nat.pow 2 (-exponent).toNat)
      (denominator * Nat.pow 2 exponent.toNat) := ⟨_, rfl⟩
  have scaledEq : ((numerator * Nat.pow 2 (-exponent).toNat : ℕ) /
      (denominator * Nat.pow 2 exponent.toNat : ℕ) : ℚ) =
      (numerator / denominator : ℚ) / 2 ^ exponent := by
    rw [zpow_eq_pow_div_pow, Nat.pow_eq, Nat.pow_eq]
    push_cast
    field_simp
  have scaledPos : 0 < denominator * Nat.pow 2 exponent.toNat :=
    Nat.mul_pos denominatorPos (Nat.pow_pos (by decide))
  obtain ⟨near, nearer⟩ :=
    abs_roundHalfEven_sub_le (numerator * Nat.pow 2 (-exponent).toNat) scaledPos
  rw [scaledEq, ← significandEq] at near nearer
  refine ⟨(exponent + 1074).toNat * 2 ^ 52 + significand, ?_, ?_⟩
  · have exponentEq' : ((exponent + 1074).toNat - 1074 : ℤ) = exponent := by
      omega
    have valueEq : (numerator / denominator : ℚ) =
        numerator / denominator / 2 ^ exponent *
          2 ^ ((exponent + 1074).toNat - 1074 : ℤ) := by
      rw [exponentEq', div_mul_cancel₀ _ (by positivity)]
    have range := abs_le.mp near
    rw [valueEq]
    refine roundsTo_rank (by positivity) ?_ ?_ near nearer
    · have small : (significand : ℚ) < (2 ^ 53 + 1 : ℕ) := by
        push_cast
        linarith
      exact Nat.lt_succ_iff.mp (Nat.cast_lt.mp small)
    · rcases above with least | large
      · exact .inl (by omega)
      · have atLeast : ((2 ^ 52 : ℕ) : ℚ) < (significand + 1 : ℕ) := by
          push_cast
          linarith
        exact .inr ⟨Nat.lt_succ_iff.mp (Nat.cast_lt.mp atLeast), large⟩
  · rw [ofRatio, if_neg numeratorPos.ne', ← exponentEq]
    dsimp only
    rw [← significandEq]
    refine UInt64.toNat_ofNat_of_lt (lt_of_le_of_lt (min_le_right _ _) ?_)
    decide

/-- A quotient is rounded to the nearest double. -/
theorem isNearest_ofRatio (numerator : Nat) {denominator : Nat}
    (positive : 0 < denominator) :
    (ofRatio numerator denominator).IsNearest (numerator / denominator) := by
  rcases Nat.eq_zero_or_pos numerator with rfl | numeratorPos
  · rw [ofRatio, if_pos rfl, Nat.cast_zero, zero_div]
    exact .inl ⟨by decide, roundsTo_zero⟩
  · obtain ⟨rank, rounds, bitsEq⟩ := ofRatio_rank numeratorPos positive
    rcases Nat.lt_or_ge rank infinity.bits.toNat with finite | infinite
    · rw [Nat.min_eq_left finite.le] at bitsEq
      exact .inl (bitsEq ▸ ⟨finite, rounds⟩)
    · rw [Nat.min_eq_right infinite] at bitsEq
      refine .inr ⟨eq_of_bits_toNat_eq bitsEq, le_trans ?_ rounds.bounds.1⟩
      gcongr
      exact_mod_cast lowerEnd_strictMono.monotone infinite

/-- A decimal is rounded to the nearest double. -/
theorem isNearest_ofDecimal (digits : Nat) (exponent : Int) :
    (ofDecimal digits exponent).IsNearest (digits * 10 ^ exponent) := by
  have scaled : (digits * 10 ^ exponent : ℚ) =
      (digits * Nat.pow 10 exponent.toNat : ℕ) /
        (Nat.pow 10 (-exponent).toNat : ℕ) := by
    rw [zpow_eq_pow_div_pow, Nat.pow_eq, Nat.pow_eq]
    push_cast
    ring
  rw [scaled]
  exact isNearest_ofRatio _ (Nat.pow_pos (by decide))

/-- What rounds to a finite double is less than half way beyond the greatest,
which is odd. -/
theorem RoundsTo.lt_infinity {rank : Nat} {value : ℚ}
    (rounds : RoundsTo rank value) (finite : rank < infinity.bits.toNat) :
    value < lowerEnd infinity.bits.toNat * 2 ^ (-1076 : ℤ) := by
  have greatest : infinity.bits.toNat % 2 = 0 := by decide
  rcases Nat.lt_or_ge (rank + 1) infinity.bits.toNat with below | last
  · refine lt_of_le_of_lt rounds.bounds.2 ?_
    gcongr
    exact_mod_cast lowerEnd_strictMono below
  · have rankEq : rank + 1 = infinity.bits.toNat := by omega
    rw [RoundsTo, if_neg (by omega), rankEq] at rounds
    exact rounds.2

/-- A number rounds to one double only. -/
theorem IsNearest.unique {number other : Binary64} {value : ℚ}
    (nearest : number.IsNearest value) (otherNearest : other.IsNearest value) :
    number = other := by
  rcases nearest with ⟨finite, rounds⟩ | ⟨rfl, beyond⟩
  · rcases otherNearest with ⟨-, otherRounds⟩ | ⟨-, otherBeyond⟩
    · exact eq_of_bits_toNat_eq (rounds.unique otherRounds)
    · exact absurd otherBeyond (rounds.lt_infinity finite).not_ge
  · rcases otherNearest with ⟨finite, rounds⟩ | ⟨rfl, -⟩
    · exact absurd beyond (rounds.lt_infinity finite).not_ge
    · rfl

end PL0.Binary64
