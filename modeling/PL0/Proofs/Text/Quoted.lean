import PL0.Proofs.Text.Parts
import PL0.Text.Quoted

/-!
# Quoted texts can be read back

The escapes of the characters are a code in which no word begins another, and
none begins with the closing quote.  So different texts are quoted
differently.  A quoted text stands on one line.
-/

namespace PL0.Text

/-- The characters of a hexadecimal numeral are digits of the base. -/
theorem mem_toDigits_sixteen {n : Nat} {c : Char}
    (member : c ∈ Nat.toDigits 16 n) :
    ∃ digit < 16, c = Nat.digitChar digit := by
  induction n using Nat.strongRecOn with
  | ind n ih =>
      by_cases isSmall : n < 16
      · rw [Nat.toDigits_of_lt_base isSmall, List.mem_singleton] at member
        exact ⟨n, isSmall, member⟩
      · rw [Nat.toDigits_of_base_le (by decide) (by omega), List.mem_append,
          List.mem_singleton] at member
        rcases member with inFront | isLast
        · exact ih (n / 16) (by omega) inFront
        · exact ⟨n % 16, by omega, isLast⟩

theorem digitChar_injective : ∀ digit < 16, ∀ other < 16,
    Nat.digitChar digit = Nat.digitChar other → digit = other := by
  decide

theorem toDigits_sixteen_injective {n m : Nat}
    (same : Nat.toDigits 16 n = Nat.toDigits 16 m) : n = m := by
  have lengthEq {n : Nat} (isLarge : 16 ≤ n) :
      1 < (Nat.toDigits 16 n).length := by
    have := Nat.length_toDigits_pos (b := 16) (n := n / 16)
    rw [Nat.toDigits_of_base_le (by decide) isLarge, List.length_append,
      List.length_singleton]
    omega
  have lengthOne {n : Nat} (isSmall : n < 16) :
      (Nat.toDigits 16 n).length = 1 := by
    rw [Nat.toDigits_of_lt_base isSmall, List.length_singleton]
  induction n using Nat.strongRecOn generalizing m with
  | ind n ih =>
      by_cases isSmall : n < 16 <;> by_cases otherIsSmall : m < 16
      · rw [Nat.toDigits_of_lt_base isSmall,
          Nat.toDigits_of_lt_base otherIsSmall, List.singleton_inj] at same
        exact digitChar_injective n isSmall m otherIsSmall same
      · have := lengthEq (Nat.le_of_not_lt otherIsSmall)
        rw [← same, lengthOne isSmall] at this
        omega
      · have := lengthEq (Nat.le_of_not_lt isSmall)
        rw [same, lengthOne otherIsSmall] at this
        omega
      · rw [Nat.toDigits_of_base_le (by decide) (by omega),
          Nat.toDigits_of_base_le (n := m) (by decide) (by omega)] at same
        have parts := List.append_inj' same rfl
        have frontEq := ih (n / 16) (by omega) parts.1
        have lastEq := digitChar_injective _ (Nat.mod_lt n (by decide)) _
          (Nat.mod_lt m (by decide)) (List.singleton_inj.mp parts.2)
        omega

/-- The escapes of two characters, the second of them with the character it
stands for. -/
def shortEscapes : List (Char × Char) :=
  [('0', '\x00'), ('t', '\t'), ('r', '\r'), ('n', '\n'), ('"', '"'),
    ('\\', '\\')]

/-- The three forms of an escape. -/
theorem escape_cases (c : Char) :
    (∃ letter, (letter, c) ∈ shortEscapes ∧ escape c = ['\\', letter]) ∨
      (c ∉ ['\n', '"', '\\'] ∧ escape c = [c]) ∨
        escape c = codePointEscape c := by
  unfold escape shortEscapes
  split_ifs <;> simp_all

theorem eq_of_mem_shortEscapes {letter c d : Char}
    (inTable : (letter, c) ∈ shortEscapes)
    (otherInTable : (letter, d) ∈ shortEscapes) : c = d := by
  simp only [shortEscapes, List.mem_cons, Prod.mk.injEq, List.not_mem_nil,
    or_false] at *
  rcases inTable with
    ⟨rfl, rfl⟩ | ⟨rfl, rfl⟩ | ⟨rfl, rfl⟩ | ⟨rfl, rfl⟩ | ⟨rfl, rfl⟩ |
      ⟨rfl, rfl⟩ <;>
    simpa [eq_comm] using otherInTable

theorem u_notMem_shortEscapes (c : Char) : ('u', c) ∉ shortEscapes := by
  simp [shortEscapes]

theorem notMem_toDigits_sixteen {c : Char} (n : Nat)
    (isNone : ∀ digit < 16, c ≠ Nat.digitChar digit) :
    c ∉ Nat.toDigits 16 n := by
  intro member
  obtain ⟨digit, small, isDigit⟩ := mem_toDigits_sixteen member
  exact isNone digit small isDigit

theorem codePointEscape_append_inj {c d : Char} {rest rest' : List Char}
    (same : codePointEscape c ++ rest = codePointEscape d ++ rest') :
    c = d ∧ rest = rest' := by
  simp only [codePointEscape, List.cons_append, List.nil_append,
    List.append_assoc, List.cons.injEq, true_and] at same
  have closing (c : Char) : '\x7d' ∉ Nat.toDigits 16 c.toNat :=
    notMem_toDigits_sixteen _ (by decide)
  have parts := append_cons_inj (closing c) (closing d) same
  exact ⟨Char.toNat_inj.mp (toDigits_sixteen_injective parts.1), parts.2⟩

/-- No escape begins another. -/
theorem escape_append_inj {c d : Char} {rest rest' : List Char}
    (same : escape c ++ rest = escape d ++ rest') : c = d ∧ rest = rest' := by
  rcases escape_cases c with ⟨letter, inTable, escapeEq⟩ | ⟨isPlain, escapeEq⟩ |
    escapeEq <;> rcases escape_cases d with
      ⟨letter', inTable', escapeEq'⟩ | ⟨isPlain', escapeEq'⟩ | escapeEq' <;>
    rw [escapeEq, escapeEq'] at same
  · simp only [List.cons_append, List.nil_append, List.cons.injEq,
      true_and] at same
    exact ⟨eq_of_mem_shortEscapes inTable (same.1 ▸ inTable'), same.2⟩
  · simp only [List.cons_append, List.nil_append, List.cons.injEq] at same
    simp [← same.1] at isPlain'
  · simp only [codePointEscape, List.cons_append, List.cons.injEq,
      true_and] at same
    exact absurd (same.1 ▸ inTable) (u_notMem_shortEscapes c)
  · simp only [List.cons_append, List.nil_append, List.cons.injEq] at same
    simp [same.1] at isPlain
  · simpa using same
  · simp only [codePointEscape, List.cons_append, List.nil_append,
      List.cons.injEq] at same
    simp [same.1] at isPlain
  · simp only [codePointEscape, List.cons_append, List.cons.injEq,
      true_and] at same
    exact absurd (same.1 ▸ inTable') (u_notMem_shortEscapes d)
  · simp only [codePointEscape, List.cons_append, List.nil_append,
      List.cons.injEq] at same
    simp [← same.1] at isPlain'
  · exact codePointEscape_append_inj same

/-- An escape is not empty and does not begin with the closing quote. -/
theorem escape_append_ne (c : Char) (rest others : List Char) :
    escape c ++ rest ≠ '"' :: others := by
  intro same
  rcases escape_cases c with ⟨letter, inTable, escapeEq⟩ | ⟨isPlain, escapeEq⟩ |
    escapeEq <;> rw [escapeEq] at same
  · simp at same
  · simp only [List.cons_append, List.nil_append, List.cons.injEq] at same
    simp [same.1] at isPlain
  · simp [codePointEscape] at same

theorem newline_notMem_escape (c : Char) : '\n' ∉ escape c := by
  rcases escape_cases c with ⟨letter, inTable, escapeEq⟩ | ⟨isPlain, escapeEq⟩ |
    escapeEq <;> rw [escapeEq]
  · intro member
    simp only [List.mem_cons, List.not_mem_nil, or_false] at member
    rcases member with isBackslash | isLetter
    · exact absurd isBackslash (by decide)
    · simp [shortEscapes, ← isLetter] at inTable
  · intro member
    rw [List.mem_singleton] at member
    simp [← member] at isPlain
  · simpa [codePointEscape]
      using notMem_toDigits_sixteen c.toNat (c := '\n') (by decide)

theorem flatMap_escape_inj {text other : List Char}
    (same : text.flatMap escape ++ ['"'] = other.flatMap escape ++ ['"']) :
    text = other := by
  induction text generalizing other with
  | nil =>
      cases other with
      | nil => rfl
      | cons first others =>
          rw [List.flatMap_cons, List.append_assoc] at same
          exact absurd same.symm (escape_append_ne _ _ _)
  | cons first others ih =>
      rw [List.flatMap_cons, List.append_assoc] at same
      cases other with
      | nil => exact absurd same (escape_append_ne _ _ _)
      | cons first' others' =>
          rw [List.flatMap_cons, List.append_assoc] at same
          have parts := escape_append_inj same
          rw [parts.1, ih parts.2]

/-- Different texts are quoted differently. -/
theorem quoted_injective {text other : String}
    (same : quoted text = quoted other) : text = other := by
  have sameList := String.ofList_injective same
  exact String.toList_injective
    (flatMap_escape_inj (List.tail_eq_of_cons_eq sameList))

theorem newline_notMem_quoted (text : String) :
    '\n' ∉ (quoted text).toList := by
  simp [quoted, newline_notMem_escape]

end PL0.Text
