import Mathlib.Data.List.TakeWhile
import PL0.Binary64.Text
import PL0.Proofs.Binary64.Shortest
import PL0.Proofs.Text.Parts

/-!
# Different doubles have different texts

The text of a decimal, in either notation, determines the value of the
decimal: the point or the mark of the exponent stands in it once, and the
digits around it are the digits of the decimal.  The value of the shortest
decimal determines the double.  So the text of a non-negative double is the
text of no other.
-/

namespace PL0.Binary64

namespace Decimal

/-- The value of a decimal. -/
def value (decimal : Decimal) : ℚ :=
  Nat.ofDigitChars 10 decimal.digits 0 *
    10 ^ (decimal.point - decimal.digits.length)

/-- A decimal has at least one digit, and nothing else in its list of digits. -/
structure IsProper (decimal : Decimal) : Prop where
  nonempty : decimal.digits ≠ []
  isDigit : ∀ c ∈ decimal.digits, c.isDigit = true

theorem isDigit_of_mem_zeros {count : Nat} {c : Char}
    (member : c ∈ List.replicate count '0') : c.isDigit = true := by
  rw [List.eq_of_mem_replicate member]
  decide

/-- A point divides the positional text into digits, and the value is that of
all digits in a row with the point put back. -/
theorem positional_eq {decimal : Decimal} (proper : decimal.IsProper) :
    ∃ whole places, decimal.positional = whole ++ '.' :: places ∧ whole ≠ [] ∧
      (∀ c ∈ whole, c.isDigit = true) ∧ (∀ c ∈ places, c.isDigit = true) ∧
      decimal.value = Nat.ofDigitChars 10 (whole ++ places) 0 *
        10 ^ (-(places.length : ℤ)) := by
  rw [positional]
  split
  · next small =>
    refine ⟨['0'], List.replicate (-decimal.point).toNat '0' ++ decimal.digits,
      by simp, by simp, by simp, ?_, ?_⟩
    · rw [List.forall_mem_append]
      exact ⟨fun c => isDigit_of_mem_zeros, proper.isDigit⟩
    · have digitsEq : Nat.ofDigitChars 10
          (['0'] ++
            (List.replicate (-decimal.point).toNat '0' ++ decimal.digits)) 0 =
          Nat.ofDigitChars 10 decimal.digits 0 := by
        simp [Nat.ofDigitChars_append, Nat.ofDigitChars_cons,
          Nat.ofDigitChars_replicate_zero]
      rw [digitsEq, value]
      congr 2
      simp only [List.length_append, List.length_replicate]
      omega
  split
  · next notSmall short =>
    refine ⟨decimal.digits ++
      List.replicate (decimal.point.toNat - decimal.digits.length) '0', ['0'],
      by simp,
      by simp [proper.nonempty], ?_, by simp, ?_⟩
    · rw [List.forall_mem_append]
      exact ⟨proper.isDigit, fun c => isDigit_of_mem_zeros⟩
    · have exponentEq : decimal.point - decimal.digits.length =
          ((decimal.point.toNat - decimal.digits.length : ℕ) : ℤ) := by omega
      rw [value, exponentEq, zpow_natCast]
      simp [Nat.ofDigitChars_append, Nat.ofDigitChars_cons,
        Nat.ofDigitChars_replicate_zero]
      ring
  · next notSmall long =>
    refine ⟨decimal.digits.take decimal.point.toNat,
      decimal.digits.drop decimal.point.toNat, by simp, ?_, fun c member =>
        proper.isDigit c (List.mem_of_mem_take member),
      fun c member => proper.isDigit c (List.mem_of_mem_drop member), ?_⟩
    · have pointPos : decimal.point.toNat ≠ 0 := by omega
      simp [pointPos, proper.nonempty]
    · rw [List.take_append_drop, value, List.length_drop]
      congr 2
      omega

/-- The digits of a decimal in scientific notation, the point among them. -/
def mantissa (decimal : Decimal) : List Char :=
  decimal.digits.take 1 ++
    if (decimal.digits.drop 1).isEmpty then [] else '.' :: decimal.digits.drop 1

theorem scientific_eq (decimal : Decimal) :
    decimal.scientific = decimal.mantissa ++ 'e' ::
      (toString (decimal.point - 1)).toList := by
  simp [scientific, mantissa]

theorem filter_mantissa {decimal : Decimal} (proper : decimal.IsProper) :
    decimal.mantissa.filter Char.isDigit = decimal.digits := by
  have digitsEq : decimal.digits.filter Char.isDigit = decimal.digits :=
    List.filter_eq_self.mpr proper.isDigit
  have split : decimal.mantissa.filter Char.isDigit =
      (decimal.digits.take 1 ++ decimal.digits.drop 1).filter Char.isDigit := by
    rw [mantissa, List.filter_append, List.filter_append]
    congr 1
    split
    · next isEmpty => rw [List.isEmpty_iff.mp isEmpty]
    · rw [List.filter_cons_of_neg (by decide)]
  rw [split, List.take_append_drop, digitsEq]

theorem mem_mantissa {decimal : Decimal} {c : Char}
    (member : c ∈ decimal.mantissa) : c ∈ decimal.digits ∨ c = '.' := by
  rw [mantissa, List.mem_append] at member
  rcases member with inTake | inRest
  · exact .inl (List.mem_of_mem_take inTake)
  · split at inRest
    · simp at inRest
    · rcases List.mem_cons.mp inRest with isPoint | inDrop
      · exact .inr isPoint
      · exact .inl (List.mem_of_mem_drop inDrop)

theorem not_isDigit_e : ¬ 'e'.isDigit = true := by decide

theorem not_isDigit_point : ¬ '.'.isDigit = true := by decide

theorem e_notMem_mantissa {decimal : Decimal} (proper : decimal.IsProper) :
    'e' ∉ decimal.mantissa := by
  intro member
  rcases mem_mantissa member with inDigits | isPoint
  · exact not_isDigit_e (proper.isDigit _ inDigits)
  · exact absurd isPoint (by decide)

theorem e_notMem_positional {decimal : Decimal} (proper : decimal.IsProper) :
    'e' ∉ decimal.positional := by
  obtain ⟨whole, places, positionalEq, _, wholeDigits, placesDigits, _⟩ :=
    positional_eq proper
  rw [positionalEq, List.mem_append, List.mem_cons]
  rintro (inWhole | isPoint | inPlaces)
  · exact not_isDigit_e (wholeDigits _ inWhole)
  · exact absurd isPoint (by decide)
  · exact not_isDigit_e (placesDigits _ inPlaces)

variable {decimal other : Decimal}

theorem value_eq_of_positional_eq (proper : decimal.IsProper)
    (otherProper : other.IsProper)
    (same : decimal.positional = other.positional) :
    decimal.value = other.value := by
  obtain ⟨whole, places, positionalEq, _, wholeDigits, _, valueEq⟩ :=
    positional_eq proper
  obtain ⟨whole', places', positionalEq', _, wholeDigits', _, valueEq'⟩ :=
    positional_eq otherProper
  rw [positionalEq, positionalEq'] at same
  have parts :=
    Text.append_cons_inj (fun member =>
      not_isDigit_point (wholeDigits _ member))
    (fun member => not_isDigit_point (wholeDigits' _ member)) same
  rw [valueEq, valueEq', parts.1, parts.2]

theorem eq_of_scientific_eq (proper : decimal.IsProper)
    (otherProper : other.IsProper)
    (same : decimal.scientific = other.scientific) : decimal = other := by
  rw [scientific_eq, scientific_eq] at same
  have parts :=
    Text.append_cons_inj (e_notMem_mantissa proper)
      (e_notMem_mantissa otherProper) same
  have digitsEq : decimal.digits = other.digits := by
    rw [← filter_mantissa proper, ← filter_mantissa otherProper, parts.1]
  have pointEq : decimal.point - 1 = other.point - 1 :=
    Text.toString_int_injective (String.toList_injective parts.2)
  cases decimal
  cases other
  simp_all

/-- The text of a decimal determines its value. -/
theorem value_eq_of_text_eq (proper : decimal.IsProper)
    (otherProper : other.IsProper) (same : decimal.text = other.text) :
    decimal.value = other.value := by
  have e_mem_scientific (decimal : Decimal) : 'e' ∈ decimal.scientific := by
    simp [scientific_eq]
  rw [text, text] at same
  split at same <;> split at same
  · exact value_eq_of_positional_eq proper otherProper same
  · exact absurd (same ▸ e_mem_scientific other) (e_notMem_positional proper)
  · exact absurd (same.symm ▸ e_mem_scientific decimal)
      (e_notMem_positional otherProper)
  · rw [eq_of_scientific_eq proper otherProper same]

/-- A text starts with a digit and shows a point or the mark of an exponent,
as the texts of doubles do and neither names nor the texts of integers do. -/
structure IsNumeral (text : List Char) : Prop where
  head : ∃ first, text.head? = some first ∧ first.isDigit = true
  mark : '.' ∈ text ∨ 'e' ∈ text
  characters : ∀ c ∈ text, c.isDigit = true ∨ c ∈ ['.', 'e', '-']

theorem isNumeral_positional (proper : decimal.IsProper) :
    IsNumeral decimal.positional := by
  obtain ⟨whole, places, positionalEq, nonempty, wholeDigits,
    placesDigits, _⟩ :=
    positional_eq proper
  rw [positionalEq]
  refine ⟨?_, .inl (by simp), ?_⟩
  · cases whole with
    | nil => exact absurd rfl nonempty
    | cons first others => exact ⟨first, rfl,
        wholeDigits first List.mem_cons_self⟩
  · intro c member
    rcases List.mem_append.mp member with inWhole | inRest
    · exact .inl (wholeDigits c inWhole)
    · rcases List.mem_cons.mp inRest with isPoint | inPlaces
      · simp [isPoint]
      · exact .inl (placesDigits c inPlaces)

theorem isNumeral_scientific (proper : decimal.IsProper) :
    IsNumeral decimal.scientific := by
  rw [scientific_eq]
  refine ⟨?_, .inr (by simp), ?_⟩
  · rw [mantissa]
    cases digitsEq : decimal.digits with
    | nil => exact absurd digitsEq proper.nonempty
    | cons first others =>
        exact ⟨first, rfl, proper.isDigit first (digitsEq ▸ List.mem_cons_self)⟩
  · intro c member
    rcases List.mem_append.mp member with inMantissa | inRest
    · rcases mem_mantissa inMantissa with inDigits | isPoint
      · exact .inl (proper.isDigit c inDigits)
      · simp [isPoint]
    · rcases List.mem_cons.mp inRest with isMark | inExponent
      · simp [isMark]
      · rcases Text.mem_toString_int inExponent with isDigit | isMinus
        · exact .inl isDigit
        · simp [isMinus]

theorem isNumeral_text (proper : decimal.IsProper) :
    IsNumeral decimal.text := by
  rw [text]
  split
  · exact isNumeral_positional proper
  · exact isNumeral_scientific proper

end Decimal

theorem toDigits_eq_significantDigits_append (count : Nat) :
    ∃ zeros, Nat.toDigits 10 count = significantDigits count ++
      List.replicate zeros '0' := by
  have parts := List.takeWhile_append_dropWhile (p := (· = '0'))
    (l := (Nat.toDigits 10 count).reverse)
  have isZero (c : Char)
      (member : c ∈ (Nat.toDigits 10 count).reverse.takeWhile (· = '0')) :
        c = '0' := by
    simpa using List.mem_takeWhile_imp member
  refine ⟨((Nat.toDigits 10 count).reverse.takeWhile (· = '0')).length, ?_⟩
  rw [significantDigits, ← List.reverse_replicate,
    ← List.eq_replicate_of_mem isZero, ← List.reverse_append, parts,
      List.reverse_reverse]

theorem value_significantDigits (count : Nat) (grid : Int) :
    Decimal.value ⟨significantDigits count, digitCount count + grid⟩ =
      count * 10 ^ grid := by
  obtain ⟨zeros, digitsEq⟩ := toDigits_eq_significantDigits_append count
  have countEq :
      count = 10 ^ zeros * Nat.ofDigitChars 10 (significantDigits count) 0 := by
    rw [← Nat.ofDigitChars_replicate_zero, ← Nat.ofDigitChars_append,
      ← digitsEq, Nat.ofDigitChars_ten_toDigits]
  have exponentEq :
      (digitCount count : ℤ) + grid - (significantDigits count).length =
      zeros + grid := by
    rw [digitCount, digitsEq, List.length_append, List.length_replicate]
    push_cast
    ring
  rw [Decimal.value, exponentEq, zpow_add₀ (by norm_num), zpow_natCast]
  rw [show (count : ℚ) = 10 ^ zeros *
    Nat.ofDigitChars 10 (significantDigits count) 0 by
    exact_mod_cast countEq]
  ring

theorem isProper_significantDigits {count : Nat} (positive : 0 < count)
    (point : Int) : Decimal.IsProper ⟨significantDigits count, point⟩ := by
  obtain ⟨zeros, digitsEq⟩ := toDigits_eq_significantDigits_append count
  constructor
  · intro isEmpty
    have countEq : Nat.ofDigitChars 10 (Nat.toDigits 10 count) 0 = 0 := by
      rw [digitsEq]
      simp_all [Nat.ofDigitChars_replicate_zero]
    rw [Nat.ofDigitChars_ten_toDigits] at countEq
    omega
  · intro c member
    apply Nat.isDigit_of_mem_toDigits (b := 10) (n := count) (by decide)
      (by decide)
    rw [digitsEq]
    exact List.mem_append_left _ member

/-- A double that is neither negative nor the number that is none. -/
def IsNonNegative (number : Binary64) : Prop :=
  number.bits.toNat ≤ infinity.bits.toNat

theorem isNonNegative_ofRatio (numerator denominator : Nat) :
    (ofRatio numerator denominator).IsNonNegative := by
  rw [ofRatio, IsNonNegative]
  split
  · decide
  · rw [UInt64.toNat_ofNat']
    exact (Nat.mod_le _ _).trans (Nat.min_le_right _ _)

theorem isNonNegative_ofDecimal (digits : Nat) (exponent : Int) :
    (ofDecimal digits exponent).IsNonNegative :=
  isNonNegative_ofRatio _ _

variable {number other : Binary64}

theorem text_eq_of_isNonNegative (nonNegative : number.IsNonNegative) :
    number.text = String.ofList number.magnitude.text := by
  have infinityBits : infinity.bits.toNat = 2047 * 2 ^ 52 := by decide
  rw [IsNonNegative] at nonNegative
  have isPositive : number.isNegative = false := by
    rw [isNegative, Nat.pow_eq, decide_eq_false_iff_not]
    omega
  rw [text, isPositive]
  rfl

/-- Below infinity the text is that of a decimal that rounds to the double. -/
theorem exists_decimal_text (bound : number.bits.toNat < infinity.bits.toNat) :
    ∃ decimal : Decimal, decimal.IsProper ∧
      RoundsTo number.bits.toNat decimal.value ∧
      number.text = String.ofList decimal.text := by
  rw [text_eq_of_isNonNegative bound.le, magnitude_of_lt_infinity bound,
    Magnitude.text]
  rcases Nat.eq_zero_or_pos number.bits.toNat with isZero | positive
  · refine ⟨⟨['0'], 1⟩, ⟨by simp, by simp⟩, ?_, ?_⟩
    · rw [isZero]
      simpa [Decimal.value, Nat.ofDigitChars_cons] using roundsTo_zero
    · rw [isZero]
      rfl
  · obtain ⟨count, grid, rounds, shortestEq⟩ := exists_shortest_eq positive
    have countPos : 0 < count := by
      apply Nat.pos_of_ne_zero
      intro isZero
      rw [isZero, Nat.cast_zero, zero_mul] at rounds
      exact absurd (rounds.unique roundsTo_zero) (by omega)
    rw [if_neg (significandAt_pos positive).ne', shortestEq]
    refine ⟨_, isProper_significantDigits countPos _, ?_, rfl⟩
    rw [value_significantDigits]
    exact rounds

/-- Below infinity a double is written as a numeral. -/
theorem isNumeral_text (bound : number.bits.toNat < infinity.bits.toNat) :
    Decimal.IsNumeral number.text.toList := by
  obtain ⟨decimal, proper, _, textEq⟩ := exists_decimal_text bound
  rw [textEq, String.toList_ofList]
  exact Decimal.isNumeral_text proper

theorem text_infinity : infinity.text = "inf" := by
  decide +kernel

theorem not_isNumeral_inf : ¬ Decimal.IsNumeral "inf".toList := by
  intro numeral
  obtain ⟨first, headEq, isDigit⟩ := numeral.head
  cases headEq
  exact absurd isDigit (by decide)

theorem eq_of_bits_toNat_eq (same : number.bits.toNat = other.bits.toNat) :
    number = other := by
  cases number
  exact congrArg mk (UInt64.toNat_inj.mp same)

theorem IsNonNegative.lt_or_eq (nonNegative : number.IsNonNegative) :
    number.bits.toNat < infinity.bits.toNat ∨ number = infinity :=
  (Nat.lt_or_eq_of_le nonNegative).imp_right eq_of_bits_toNat_eq

/-- Different doubles have different texts. -/
theorem text_injective (nonNegative : number.IsNonNegative)
    (otherNonNegative : other.IsNonNegative) (same : number.text = other.text) :
    number = other := by
  rcases nonNegative.lt_or_eq with bound | isInfinite <;>
    rcases otherNonNegative.lt_or_eq with otherBound | otherIsInfinite
  · obtain ⟨decimal, proper, rounds, textEq⟩ := exists_decimal_text bound
    obtain ⟨decimal', proper', rounds', textEq'⟩ :=
      exists_decimal_text otherBound
    rw [textEq, textEq'] at same
    have valueEq :=
      Decimal.value_eq_of_text_eq proper proper' (String.ofList_injective same)
    exact eq_of_bits_toNat_eq (rounds.unique (valueEq ▸ rounds'))
  · rw [otherIsInfinite, text_infinity] at same
    exact absurd (same ▸ isNumeral_text bound) not_isNumeral_inf
  · rw [isInfinite, text_infinity] at same
    exact absurd (same ▸ isNumeral_text otherBound) not_isNumeral_inf
  · rw [isInfinite, otherIsInfinite]

end PL0.Binary64
