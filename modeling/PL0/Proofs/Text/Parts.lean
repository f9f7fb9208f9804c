import Mathlib.Data.List.TakeWhile

/-!
# Texts that fall into parts in one way

A text that is put together from a part with characters of one kind and a part
that starts with a character of another kind can be taken apart again.
Numerals are made of digits alone, and different numbers have different
numerals.
-/

namespace PL0.Text

section Parts

variable {α : Type} {kind : α → Bool} {left right left' right' : List α}

/-- The part of a kind ends where the other part begins. -/
theorem takeWhile_append_of_stop (inLeft : ∀ c ∈ left, kind c = true)
    (stop : ∀ c ∈ right.head?, kind c = false) :
    (left ++ right).takeWhile kind = left := by
  rw [List.takeWhile_append_of_pos inLeft]
  cases right with
  | nil => simp
  | cons first others => simp [stop first rfl]

theorem append_inj_of_stop (kind : α → Bool)
    (inLeft : ∀ c ∈ left, kind c = true) (inLeft' : ∀ c ∈ left', kind c = true)
    (stop : ∀ c ∈ right.head?, kind c = false)
    (stop' : ∀ c ∈ right'.head?, kind c = false)
    (same : left ++ right = left' ++ right') :
    left = left' ∧ right = right' := by
  have leftEq : left = left' := by
    rw [← takeWhile_append_of_stop inLeft stop, same,
      takeWhile_append_of_stop inLeft' stop']
  subst leftEq
  exact ⟨rfl, List.append_cancel_left same⟩

/-- Every text starts with a part of a kind that cannot go on. -/
theorem exists_parts (kind : α → Bool) (text : List α) :
    ∃ left right, text = left ++ right ∧ (∀ c ∈ left, kind c = true) ∧
      ∀ c ∈ right.head?, kind c = false := by
  refine ⟨text.takeWhile kind, text.dropWhile kind,
    List.takeWhile_append_dropWhile.symm, ?_, ?_⟩
  · intro c member
    exact List.mem_takeWhile_imp member
  · intro c isHead
    have stops := List.head?_dropWhile_not kind text
    rw [isHead] at stops
    simpa using stops

/-- Characters of a kind reach no further than the part of the kind. -/
theorem length_le_of_stop {others : List α} (within : others <+: left ++ right)
    (inOthers : ∀ c ∈ others, kind c = true)
    (stop : ∀ c ∈ right.head?, kind c = false) :
    others.length ≤ left.length := by
  obtain ⟨tail, same⟩ := within
  rcases List.append_eq_append_iff.mp same with
    ⟨more, rfl, -⟩ | ⟨more, rfl, rightEq⟩
  · simp
  · cases more with
    | nil => simp
    | cons c more =>
        have outside := stop c (by rw [rightEq]; rfl)
        rw [inOthers c (by simp)] at outside
        exact absurd outside (by decide)

/-- Two lists that are divided by one separator have equal parts if they are
equal. -/
theorem append_cons_inj [DecidableEq α] {separator : α}
    (notInLeft : separator ∉ left) (notInLeft' : separator ∉ left')
    (same : left ++ separator :: right = left' ++ separator :: right') :
    left = left' ∧ right = right' := by
  have inKind {part : List α} (notInPart : separator ∉ part) :
      ∀ c ∈ part, decide (c ≠ separator) = true := by
    intro c member
    rw [decide_eq_true_eq]
    intro isSeparator
    exact notInPart (isSeparator ▸ member)
  have parts :=
    append_inj_of_stop (· ≠ separator) (inKind notInLeft) (inKind notInLeft')
    (by simp) (by simp) same
  exact ⟨parts.1, List.tail_eq_of_cons_eq parts.2⟩

end Parts

theorem toList_toString_nat (n : Nat) :
    (toString n).toList = Nat.toDigits 10 n := by
  simp

theorem isDigit_of_mem_toDigits {n : Nat} {c : Char}
    (member : c ∈ Nat.toDigits 10 n) : c.isDigit = true :=
  Nat.isDigit_of_mem_toDigits (by decide) (by decide) member

theorem isAlpha_of_isDigit {c : Char} (isDigit : c.isDigit = true) :
    c.isAlpha = false := by
  delta Char.isAlpha Char.isUpper Char.isLower
  simp only [Char.isDigit, Bool.and_eq_true, decide_eq_true_eq,
    Bool.or_eq_false_iff, Bool.and_eq_false_iff, decide_eq_false_iff_not,
    ge_iff_le, UInt32.le_iff_toNat_le] at *
  grind

theorem toDigits_injective {n m : Nat}
    (same : Nat.toDigits 10 n = Nat.toDigits 10 m) : n = m := by
  rw [← Nat.ofDigitChars_ten_toDigits (n := n), same,
    Nat.ofDigitChars_ten_toDigits]

theorem toList_toString_int (n : Int) :
    (toString n).toList =
      if 0 ≤ n then Nat.toDigits 10 n.toNat
        else '-' :: Nat.toDigits 10 (-n).toNat := by
  rw [Int.toString_eq_repr, Int.repr_eq_if]
  split <;> simp [Nat.repr_eq_ofList_toDigits]

theorem mem_toString_int {n : Int} {c : Char}
    (member : c ∈ (toString n).toList) : c.isDigit = true ∨ c = '-' := by
  rw [toList_toString_int] at member
  split at member
  · exact .inl (isDigit_of_mem_toDigits member)
  · rcases List.mem_cons.mp member with isMinus | inDigits
    · exact .inr isMinus
    · exact .inl (isDigit_of_mem_toDigits inDigits)

theorem minus_notMem_toDigits (n : Nat) : '-' ∉ Nat.toDigits 10 n := by
  intro member
  exact absurd (isDigit_of_mem_toDigits member) (by decide)

theorem toString_int_injective {n m : Int} (same : toString n = toString m) :
    n = m := by
  have sameList := congrArg String.toList same
  rw [toList_toString_int, toList_toString_int] at sameList
  split at sameList <;> split at sameList
  · have := toDigits_injective sameList
    omega
  · exact absurd (sameList ▸ List.mem_cons_self) (minus_notMem_toDigits n.toNat)
  · exact absurd (sameList.symm ▸ List.mem_cons_self)
      (minus_notMem_toDigits m.toNat)
  · have := toDigits_injective (List.tail_eq_of_cons_eq sameList)
    omega

end PL0.Text
