import PL0.Code.Listing
import PL0.Proofs.Text.Quoted
import PL0.Proofs.Token.Names

/-!
# The texts of operands

Operands of four kinds are written without a mark that would tell them apart.
Integers are made of digits and a sign, other numbers start with a digit and
show a point or an exponent, and variables and registers are names.  So an
operand can be told from its text unless a variable is named like a register
or like infinity.  Targets and labels can be told from their texts too.
Fields that are set in a row can be told from the text of the row, because
none of them holds a separator.
-/

namespace PL0

/-- The characters of which the texts of operands and targets are made.  None
of them separates operands. -/
def isFieldChar (c : Char) : Bool :=
  Scan.isWordChar c || c ∈ ['.', '-', '[', ']']

theorem isFieldChar_of_isWordChar {c : Char}
    (isWordChar : Scan.isWordChar c = true) : isFieldChar c = true := by
  simp [isFieldChar, isWordChar]

theorem isFieldChar_of_isDigit {c : Char} (isDigit : c.isDigit = true) :
    isFieldChar c = true := by
  simp [isFieldChar, Scan.isWordChar, Char.isAlphanum, isDigit]

theorem not_isDigit_of_isAlpha {c : Char} (isAlpha : c.isAlpha = true) :
    ¬ c.isDigit = true := by
  intro isDigit
  simp [Text.isAlpha_of_isDigit isDigit] at isAlpha

/-- A text that holds no character that separates operands. -/
def IsField (text : String) : Prop :=
  ∀ c ∈ text.toList, isFieldChar c = true

instance (text : String) : Decidable (IsField text) :=
  List.decidableBAll (fun c => isFieldChar c = true) text.toList

theorem IsField.notMem {text : String} (isField : IsField text) {c : Char}
    (separates : isFieldChar c = false) : c ∉ text.toList := by
  intro member
  rw [isField c member] at separates
  exact absurd separates (by decide)

theorem IsName.isField {name : String} (isName : IsName name) : IsField name :=
  fun c member => isFieldChar_of_isWordChar (isName.characters c member)

theorem IsName.notMem {name : String} (isName : IsName name) {c : Char}
    (notWordChar : Scan.isWordChar c = false) : c ∉ name.toList := by
  intro member
  rw [isName.characters c member] at notWordChar
  exact absurd notWordChar (by decide)

theorem Register.toList_text (register : Register) :
    register.text.toList = 'R' :: Nat.toDigits 10 register.index := by
  simp [Register.text]

theorem Register.isName_text (register : Register) : IsName register.text := by
  constructor
  · exact ⟨'R', by simp [Register.toList_text], by decide⟩
  · rw [Register.toList_text, List.forall_mem_cons]
    refine ⟨by decide, ?_⟩
    intro c member
    simp [Scan.isWordChar, Char.isAlphanum, Text.isDigit_of_mem_toDigits member]

theorem Register.text_injective {register other : Register}
    (same : register.text = other.text) : register = other := by
  have sameList := congrArg String.toList same
  rw [Register.toList_text, Register.toList_text] at sameList
  cases register
  cases other
  exact congrArg mk (Text.toDigits_injective (List.tail_eq_of_cons_eq sameList))

theorem Register.text_ne_inf (register : Register) : register.text ≠ "inf" := by
  intro same
  have sameList := congrArg String.toList same
  rw [Register.toList_text] at sameList
  exact absurd (List.head_eq_of_cons_eq sameList) (by decide)

/-- The register with a given text, if there is one. -/
def Register.ofText? (text : String) : Option Register :=
  let register : Register := ⟨Nat.ofDigitChars 10 (text.toList.drop 1) 0⟩
  if register.text = text then some register else none

theorem Register.ofText?_text (register : Register) :
    Register.ofText? register.text = some register := by
  simp [Register.ofText?, Register.toList_text]

theorem Register.text_of_ofText? {text : String} {register : Register}
    (found : Register.ofText? text = some register) : register.text = text := by
  simp only [Register.ofText?, Option.ite_none_right_eq_some,
    Option.some.injEq] at found
  exact found.2 ▸ found.1

/-- A name that neither a register nor infinity is written like. -/
structure IsUnmistakable (name : String) : Prop where
  notInfinity : name ≠ "inf"
  notRegister : ∀ register : Register, name ≠ register.text

theorem isUnmistakable_iff {name : String} :
    IsUnmistakable name ↔ name ≠ "inf" ∧ Register.ofText? name = none := by
  constructor
  · intro unmistakable
    refine ⟨unmistakable.notInfinity, ?_⟩
    rw [Option.eq_none_iff_forall_ne_some]
    intro register found
    exact unmistakable.notRegister register
      (Register.text_of_ofText? found).symm
  · intro ⟨notInfinity, notFound⟩
    refine ⟨notInfinity, ?_⟩
    intro register same
    rw [same, Register.ofText?_text] at notFound
    cases notFound

instance (name : String) : Decidable (IsUnmistakable name) :=
  decidable_of_iff _ isUnmistakable_iff.symm

/-- An operand without a negative double, with an allowed name if it is a
variable.  If only unmistakable names are allowed it can be told from its
text. -/
def Operand.IsLegible (allowed : String → Prop) : Operand → Prop
  | .int _ => True
  | .float value => value.IsNonNegative
  | .var name => IsName name ∧ allowed name
  | .reg _ => True

/-- A text is that of an integer. -/
def IsInteger (text : String) : Prop :=
  ∀ c ∈ text.toList, c.isDigit = true ∨ c = '-'

theorem isInteger_toString (value : Int) : IsInteger (toString value) :=
  fun _ member => Text.mem_toString_int member

theorem IsInteger.not_isNumeral {text : String} (isInteger : IsInteger text) :
    ¬ Binary64.Decimal.IsNumeral text.toList := by
  intro isNumeral
  rcases isNumeral.mark with member | member
  · exact absurd (isInteger _ member) (by decide)
  · exact absurd (isInteger _ member) (by decide)

theorem IsName.not_isInteger {text : String} (isName : IsName text) :
    ¬ IsInteger text := by
  intro isInteger
  obtain ⟨first, headEq, isAlpha⟩ := isName.head
  rcases isInteger first (List.mem_of_head? headEq) with isDigit | isMinus
  · exact not_isDigit_of_isAlpha isAlpha isDigit
  · rw [isMinus] at isAlpha
    exact absurd isAlpha (by decide)

theorem IsName.not_isNumeral {text : String} (isName : IsName text) :
    ¬ Binary64.Decimal.IsNumeral text.toList := by
  intro isNumeral
  obtain ⟨first, headEq, isAlpha⟩ := isName.head
  obtain ⟨other, otherEq, isDigit⟩ := isNumeral.head
  rw [headEq, Option.some.injEq] at otherEq
  exact not_isDigit_of_isAlpha isAlpha (otherEq ▸ isDigit)

theorem isName_inf : IsName "inf" := by
  constructor
  · exact ⟨'i', rfl, by decide⟩
  · exact List.all_eq_true.mp (by decide)

namespace Operand

/-- The text of a number that is not negative is a numeral or the name of
infinity. -/
theorem float_text_cases {value : Binary64}
    (nonNegative : value.IsNonNegative) :
    Binary64.Decimal.IsNumeral value.text.toList ∨ value.text = "inf" := by
  rcases nonNegative.lt_or_eq with bound | isInfinite
  · exact .inl (Binary64.isNumeral_text bound)
  · exact .inr (isInfinite ▸ Binary64.text_infinity)

theorem int_text_ne_float_text {value : Int64} {number : Binary64}
    (nonNegative : number.IsNonNegative) :
    toString value.toInt ≠ number.text := by
  intro same
  rcases float_text_cases nonNegative with isNumeral | isInfinity
  · exact (isInteger_toString value.toInt).not_isNumeral (same ▸ isNumeral)
  · exact isName_inf.not_isInteger (isInfinity ▸ same ▸
      isInteger_toString value.toInt)

theorem int_text_ne_name {value : Int64} {name : String}
    (isName : IsName name) : toString value.toInt ≠ name := by
  intro same
  exact isName.not_isInteger (same ▸ isInteger_toString value.toInt)

theorem float_text_ne_name {value : Binary64} {name : String}
    (nonNegative : value.IsNonNegative) (isName : IsName name)
    (notInfinity : name ≠ "inf") :
    value.text ≠ name := by
  intro same
  rcases float_text_cases nonNegative with isNumeral | isInfinity
  · exact isName.not_isNumeral (same ▸ isNumeral)
  · exact notInfinity (same ▸ isInfinity)

/-- An operand can be told from its text. -/
theorem text_injective {operand other : Operand}
    (legible : operand.IsLegible IsUnmistakable)
    (otherLegible : other.IsLegible IsUnmistakable)
    (same : operand.text = other.text) :
    operand = other := by
  cases operand with
  | int value =>
      cases other with
      | int number =>
          have valueEq := Int64.toInt_inj.mp (Text.toString_int_injective same)
          rw [valueEq]
      | float number => exact absurd same (int_text_ne_float_text otherLegible)
      | var name => exact absurd same (int_text_ne_name otherLegible.1)
      | reg register =>
          exact absurd same (int_text_ne_name register.isName_text)
  | float value =>
      cases other with
      | int number => exact absurd same.symm (int_text_ne_float_text legible)
      | float number => rw [Binary64.text_injective legible otherLegible same]
      | var name =>
          exact absurd same
            (float_text_ne_name legible otherLegible.1
              otherLegible.2.notInfinity)
      | reg register =>
          exact absurd same
            (float_text_ne_name legible register.isName_text
              register.text_ne_inf)
  | var name =>
      cases other with
      | int number => exact absurd same.symm (int_text_ne_name legible.1)
      | float number =>
          exact absurd same.symm
            (float_text_ne_name otherLegible legible.1 legible.2.notInfinity)
      | var name' => exact congrArg Operand.var same
      | reg register => exact absurd same (legible.2.notRegister register)
  | reg register =>
      cases other with
      | int number =>
          exact absurd same.symm (int_text_ne_name register.isName_text)
      | float number =>
          exact absurd same.symm
            (float_text_ne_name otherLegible register.isName_text
              register.text_ne_inf)
      | var name => exact absurd same.symm (otherLegible.2.notRegister register)
      | reg other => exact congrArg Operand.reg (Register.text_injective same)

theorem isField_text {operand : Operand} {allowed : String → Prop}
    (legible : operand.IsLegible allowed) : IsField operand.text := by
  cases operand with
  | int value =>
      intro c member
      rcases isInteger_toString value.toInt c member with isDigit | isMinus
      · exact isFieldChar_of_isDigit isDigit
      · rw [isMinus]
        decide
  | float value =>
      rcases float_text_cases legible with isNumeral | isInfinity
      · intro c member
        rcases isNumeral.characters c member with isDigit | isMark
        · exact isFieldChar_of_isDigit isDigit
        · simp only [List.mem_cons, List.not_mem_nil, or_false] at isMark
          rcases isMark with rfl | rfl | rfl <;> decide
      · rw [Operand.text, isInfinity]
        exact isName_inf.isField
  | var name => exact legible.1.isField
  | reg register => exact register.isName_text.isField

end Operand

/-- A target with a name, and with a legible index if it has one. -/
def Target.IsLegible (allowed : String → Prop) : Target → Prop
  | .var name => IsName name
  | .element array index => IsName array ∧ index.IsLegible allowed

namespace Target

theorem toList_text_element (array : String) (index : Operand) :
    (Target.element array index).text.toList =
      array.toList ++ '[' :: (index.text.toList ++ [']']) := by
  simp [Target.text]

theorem var_text_ne_element_text {name array : String} {index : Operand}
    (isName : IsName name) :
    (Target.var name).text ≠ (Target.element array index).text := by
  intro same
  have member : '[' ∈ (Target.element array index).text.toList := by
    rw [toList_text_element]
    simp
  exact isName.notMem (by decide) (same ▸ member)

/-- A target can be told from its text. -/
theorem text_injective {target other : Target}
    (legible : target.IsLegible IsUnmistakable)
    (otherLegible : other.IsLegible IsUnmistakable)
    (same : target.text = other.text) :
    target = other := by
  cases target with
  | var name =>
      cases other with
      | var name' => exact congrArg Target.var same
      | element array index =>
          exact absurd same (var_text_ne_element_text legible)
  | element array index =>
      cases other with
      | var name =>
          exact absurd same.symm (var_text_ne_element_text otherLegible)
      | element array' index' =>
          have sameList := congrArg String.toList same
          rw [toList_text_element, toList_text_element] at sameList
          have parts := Text.append_cons_inj (legible.1.notMem (by decide))
            (otherLegible.1.notMem (by decide)) sameList
          have indexEq := Operand.text_injective legible.2 otherLegible.2
            (String.toList_injective (List.append_cancel_right parts.2))
          rw [String.toList_injective parts.1, indexEq]

theorem isField_text {target : Target} {allowed : String → Prop}
    (legible : target.IsLegible allowed) : IsField target.text := by
  cases target with
  | var name => exact legible.isField
  | element array index =>
      intro c member
      rw [toList_text_element, List.mem_append, List.mem_cons, List.mem_append,
        List.mem_singleton] at member
      rcases member with inArray | rfl | inIndex | rfl
      · exact legible.1.isField c inArray
      · decide
      · exact Operand.isField_text legible.2 c inIndex
      · decide

end Target

/-- A label of a branch or a loop. -/
def Label.IsNumbered : Label → Prop
  | .named _ => False
  | _ => True

theorem BranchPart.text_injective {part other : BranchPart}
    (same : part.text = other.text) : part = other := by
  cases part <;> cases other <;> first | rfl | exact absurd same (by decide)

theorem LoopPart.text_injective {part other : LoopPart}
    (same : part.text = other.text) : part = other := by
  cases part <;> cases other <;> first | rfl | exact absurd same (by decide)

namespace Label

theorem underscore_notMem_toDigits (n : Nat) : '_' ∉ Nat.toDigits 10 n := by
  intro member
  exact absurd (Text.isDigit_of_mem_toDigits member) (by decide)

/-- A stem, a number and a part can be told from the text that they make. -/
theorem numbered_inj {stem part other : String} {n m : Nat}
    (same : stem ++ toString n ++ "_" ++ part = stem ++ toString m ++
      "_" ++ other) :
    n = m ∧ part = other := by
  have sameList := congrArg String.toList same
  simp only [String.toList_append, Text.toList_toString_nat,
    List.append_assoc] at sameList
  have parts := Text.append_cons_inj (underscore_notMem_toDigits n)
    (underscore_notMem_toDigits m) (List.append_cancel_left sameList)
  exact ⟨Text.toDigits_injective parts.1, String.toList_injective parts.2⟩

theorem branch_text_ne_loop_text {n m : Nat} {part : BranchPart}
    {other : LoopPart} :
    (Label.branch n part).text ≠ (Label.loop m other).text := by
  intro same
  have sameList := congrArg String.toList same
  simp only [Label.text, String.toList_append, List.append_assoc] at sameList
  exact absurd (List.head_eq_of_cons_eq sameList) (by decide)

/-- A numbered label can be told from its text. -/
theorem text_injective {label other : Label} (numbered : label.IsNumbered)
    (otherNumbered : other.IsNumbered) (same : label.text = other.text) :
    label = other := by
  cases label with
  | named name => exact numbered.elim
  | branch id part =>
      cases other with
      | named name => exact otherNumbered.elim
      | loop id' part' => exact absurd same branch_text_ne_loop_text
      | branch id' part' =>
          have parts := numbered_inj same
          rw [parts.1, BranchPart.text_injective parts.2]
  | loop id part =>
      cases other with
      | named name => exact otherNumbered.elim
      | branch id' part' => exact absurd same.symm branch_text_ne_loop_text
      | loop id' part' =>
          have parts := numbered_inj same
          rw [parts.1, LoopPart.text_injective parts.2]

theorem isField_numbered {stem part : String} (stemIsField : IsField stem)
    (partIsField : IsField part) (n : Nat) :
    IsField (stem ++ toString n ++ "_" ++ part) := by
  intro c member
  simp only [String.toList_append, Text.toList_toString_nat,
    List.mem_append] at member
  rcases member with ((inStem | inNumber) | inLine) | inPart
  · exact stemIsField c inStem
  · exact isFieldChar_of_isDigit (Text.isDigit_of_mem_toDigits inNumber)
  · rw [List.mem_singleton.mp inLine]
    decide
  · exact partIsField c inPart

theorem isField_text {label : Label} (numbered : label.IsNumbered) :
    IsField label.text := by
  cases label with
  | named name => exact numbered.elim
  | branch id part =>
      apply isField_numbered (by decide)
      cases part <;> decide
  | loop id part =>
      apply isField_numbered (by decide)
      cases part <;> decide

end Label

/-- Two texts that are divided after a field by the same separator have equal
parts if they are equal. -/
theorem IsField.append_inj {front front' back back' separator : String}
    {c : Char} (isField : IsField front) (isField' : IsField front')
    (starts : separator.toList.head? = some c)
    (separates : isFieldChar c = false)
    (same : front ++ separator ++ back = front' ++ separator ++ back') :
    front = front' ∧ back = back' := by
  have sameList := congrArg String.toList same
  simp only [String.toList_append, List.append_assoc] at sameList
  have stop (back : String) :
      ∀ d ∈ (separator.toList ++ back.toList).head?, isFieldChar d = false := by
    rw [List.head?_append, starts]
    simpa using separates
  have parts :=
    Text.append_inj_of_stop isFieldChar isField isField' (stop back)
      (stop back')
    sameList
  exact ⟨String.toList_injective parts.1,
    String.toList_injective (List.append_cancel_left parts.2)⟩

theorem IsField.comma_inj {front front' back back' : String}
    (isField : IsField front) (isField' : IsField front')
    (same : front ++ ", " ++ back = front' ++ ", " ++ back') :
    front = front' ∧ back = back' :=
  isField.append_inj isField' (by decide : _ = some ',') (by decide) same

theorem IsField.arrow_inj {front front' back back' : String}
    (isField : IsField front) (isField' : IsField front')
    (same : front ++ " -> " ++ back = front' ++ " -> " ++ back') :
    front = front' ∧ back = back' :=
  isField.append_inj isField' (by decide : _ = some ' ') (by decide) same

/-- What follows the first field of a line: the other fields, and the result
if there is one. -/
def furtherFields (others : List String) (result? : Option String) : String :=
  String.join (others.map (", " ++ ·)) ++ result?.elim "" (" -> " ++ ·)

theorem toList_furtherFields_cons (first : String) (others : List String)
    (result? : Option String) :
    (furtherFields (first :: others) result?).toList =
      ',' :: ' ' ::
        (first.toList ++ (furtherFields others result?).toList) := by
  simp [furtherFields]

theorem toList_furtherFields_nil (result? : Option String) :
    (furtherFields [] result?).toList =
      result?.elim [] fun result =>
        ' ' :: '-' :: '>' :: ' ' :: result.toList := by
  cases result? <;> simp [furtherFields]

theorem furtherFields_stop (others : List String) (result? : Option String) :
    ∀ c ∈ (furtherFields others result?).toList.head?,
      isFieldChar c = false := by
  cases others with
  | nil =>
      rw [toList_furtherFields_nil]
      cases result? with
      | none => simp
      | some result => simpa using (by decide : isFieldChar ' ' = false)
  | cons first others =>
      rw [toList_furtherFields_cons]
      simpa using (by decide : isFieldChar ',' = false)

theorem furtherFields_inj {others others' : List String}
    {result? result?' : Option String}
    (areFields : ∀ other ∈ others, IsField other)
    (areFields' : ∀ other ∈ others', IsField other)
    (same : (furtherFields others result?).toList =
      (furtherFields others' result?').toList) :
    others = others' ∧ result? = result?' := by
  induction others generalizing others' with
  | nil =>
      cases others' with
      | nil =>
          rw [toList_furtherFields_nil, toList_furtherFields_nil] at same
          cases result? <;> cases result?' <;> simp_all [String.toList_inj]
      | cons first' others' =>
          rw [toList_furtherFields_nil, toList_furtherFields_cons] at same
          cases result? <;> simp at same
  | cons first others ih =>
      cases others' with
      | nil =>
          rw [toList_furtherFields_nil, toList_furtherFields_cons] at same
          cases result?' <;> simp at same
      | cons first' others' =>
          rw [toList_furtherFields_cons, toList_furtherFields_cons] at same
          simp only [List.cons.injEq, true_and] at same
          rw [List.forall_mem_cons] at areFields areFields'
          have parts :=
            Text.append_inj_of_stop isFieldChar areFields.1 areFields'.1
            (furtherFields_stop others result?)
              (furtherFields_stop others' result?') same
          obtain ⟨othersEq, resultEq⟩ := ih areFields.2 areFields'.2 parts.2
          exact ⟨by rw [String.toList_injective parts.1, othersEq], resultEq⟩

/-- A row of fields can be told from its text. -/
theorem IsField.row_inj {first first' : String} {others others' : List String}
    {result? result?' : Option String} (isField : IsField first)
    (isField' : IsField first')
    (areFields : ∀ other ∈ others, IsField other)
    (areFields' : ∀ other ∈ others', IsField other)
    (same : first ++ furtherFields others result? =
      first' ++ furtherFields others' result?') :
    first = first' ∧ others = others' ∧ result? = result?' := by
  have sameList := congrArg String.toList same
  rw [String.toList_append, String.toList_append] at sameList
  have parts := Text.append_inj_of_stop isFieldChar isField isField'
    (furtherFields_stop others result?)
      (furtherFields_stop others' result?') sameList
  exact ⟨String.toList_injective parts.1,
    furtherFields_inj areFields areFields' parts.2⟩

theorem intercalate_cons_eq (first : String) (others : List String) :
    ", ".intercalate (first :: others) =
      first ++ furtherFields others none := by
  induction others generalizing first with
  | nil => simp [furtherFields]
  | cons second others ih =>
      rw [String.intercalate_cons_cons, ih]
      simp [furtherFields, String.append_assoc]

theorem notMem_intercalate {c : Char} {fields : List String}
    (separates : c ∉ [',', ' ']) (inNone : ∀ field ∈ fields, c ∉ field.toList) :
    c ∉ (", ".intercalate fields).toList := by
  induction fields with
  | nil => simp
  | cons first others ih =>
      rw [List.forall_mem_cons] at inNone
      cases others with
      | nil => simpa using inNone.1
      | cons second others =>
          have notSeparator : c ∉ ", ".toList := separates
          rw [String.intercalate_cons_cons, String.toList_append,
            String.toList_append, List.mem_append, List.mem_append,
            not_or, not_or]
          exact ⟨⟨inNone.1, notSeparator⟩, ih inNone.2⟩

theorem IsName.ne_empty {name : String} (isName : IsName name) : name ≠ "" := by
  rintro rfl
  obtain ⟨first, headEq, _⟩ := isName.head
  cases headEq

/-- Fields with commas between them can be told from the text, if none of them
is empty. -/
theorem intercalate_inj {fields others : List String}
    (areFields : ∀ field ∈ fields, IsField field ∧ field ≠ "")
    (areFields' : ∀ field ∈ others, IsField field ∧ field ≠ "")
    (same : ", ".intercalate fields = ", ".intercalate others) :
    fields = others := by
  have append_ne_empty {first : String} (notEmpty : first ≠ "")
      (rest : String) : first ++ rest ≠ "" :=
    fun isEmpty => notEmpty (String.append_eq_empty_iff.mp isEmpty).1
  cases fields with
  | nil =>
      cases others with
      | nil => rfl
      | cons first' others' =>
          rw [intercalate_cons_eq] at same
          exact absurd same.symm
            (append_ne_empty (areFields' first' List.mem_cons_self).2 _)
  | cons first fields =>
      rw [List.forall_mem_cons] at areFields
      rw [intercalate_cons_eq] at same
      cases others with
      | nil => exact absurd same (append_ne_empty areFields.1.2 _)
      | cons first' others' =>
          rw [List.forall_mem_cons] at areFields'
          rw [intercalate_cons_eq] at same
          obtain ⟨firstEq, othersEq, _⟩ := areFields.1.1.row_inj areFields'.1.1
            (fun field member => (areFields.2 field member).1)
            (fun field member => (areFields'.2 field member).1) same
          rw [firstEq, othersEq]

theorem intercalate_inj_of_isName {names others : List String}
    (areNames : ∀ name ∈ names, IsName name)
    (areNames' : ∀ name ∈ others, IsName name)
    (same : ", ".intercalate names = ", ".intercalate others) :
    names = others :=
  intercalate_inj
    (fun name member => ⟨(areNames name member).isField,
      (areNames name member).ne_empty⟩)
    (fun name member => ⟨(areNames' name member).isField,
      (areNames' name member).ne_empty⟩)
    same

end PL0
