import PL0.Proofs.Code.Fields
import PL0.Proofs.Text.Lines

/-!
# Code can be told from its listing

A line starts with a word for the operation, or is a label.  The words of
different operations differ, and what follows the word is a row of operands.
So an instruction can be told from its line, and a listing has one line for
each instruction.
-/

namespace PL0

/-- What an instruction does, apart from its operands.  A label does nothing. -/
inductive Operation where
  | enter | leave | not | jump | jumpIf | call | returnValue | read | write
  | print
  | alloc (type : BaseType)
  | negate (type : BaseType)
  | convert (target : BaseType)
  | load (type : BaseType)
  | move (type : BaseType)
  | binary (op : ArithOp) (type : BaseType)
  | compare (op : RelOp) (type : BaseType)
  | logic (op : LogicOp)
deriving DecidableEq

namespace Operation

/-- The word for an operation. -/
def word : Operation → String
  | .enter => "FUNC"
  | .leave => "ENDFUNC"
  | .not => "NOT"
  | .jump => "GOTO"
  | .jumpIf => "IF"
  | .call => "CALL"
  | .returnValue => "RETURN"
  | .read => "READ"
  | .write => "WRITE"
  | .print => "PRINT"
  | .alloc type => "ALLOC" ++ type.letter
  | .negate type => "NEG" ++ type.letter
  | .convert target => target.conversion
  | .load type => "LOAD" ++ type.letter
  | .move type => "MOV" ++ type.letter
  | .binary op type => op.mnemonic ++ type.letter
  | .compare op type => op.mnemonic ++ type.letter
  | .logic op => op.mnemonic

/-- The operations on a base type. -/
def ofType (type : BaseType) : List Operation :=
  [.alloc type, .negate type, .convert type, .load type, .move type,
    .binary .add type, .binary .sub type, .binary .mul type, .binary .div type,
    .compare .lt type, .compare .le type, .compare .gt type, .compare .ge type,
    .compare .eq type, .compare .ne type]

/-- All operations. -/
def all : List Operation :=
  [.enter, .leave, .not, .jump, .jumpIf, .call, .returnValue, .read,
    .write, .print, .logic .and, .logic .or] ++ ofType .int ++ ofType .float

theorem mem_all (operation : Operation) : operation ∈ all := by
  cases operation with
  | binary op type => cases op <;> cases type <;> simp [all, ofType]
  | compare op type => cases op <;> cases type <;> simp [all, ofType]
  | logic op => cases op <;> simp [all, ofType]
  | alloc type | negate type | convert type | load type | move type =>
      cases type <;> simp [all, ofType]
  | _ => simp [all, ofType]

/-- Different operations have different words. -/
theorem word_injective {operation other : Operation}
    (same : operation.word = other.word) : operation = other := by
  have distinct : ∀ operation ∈ all, ∀ other ∈ all,
      operation.word = other.word → operation = other := by
    decide +kernel
  exact distinct operation (mem_all operation) other (mem_all other) same

theorem isField_word (operation : Operation) : IsField operation.word := by
  have areFields : ∀ operation ∈ all, IsField operation.word := by
    decide +kernel
  exact areFields operation (mem_all operation)

theorem exists_head_word (operation : Operation) :
    ∃ first, operation.word.toList.head? = some first ∧ first ≠ ' ' := by
  have starts :
      ∀ operation ∈ all, operation.word.toList.head?.any (· ≠ ' ') = true := by
    decide +kernel
  simpa [Option.any_eq_true] using starts operation (mem_all operation)

end Operation

theorem Operand.map_text_injective {operands others : List Operand}
    (legible : ∀ operand ∈ operands, operand.IsLegible IsUnmistakable)
    (othersLegible : ∀ operand ∈ others, operand.IsLegible IsUnmistakable)
    (same : operands.map Operand.text = others.map Operand.text) :
    operands = others := by
  induction operands generalizing others with
  | nil => exact (List.map_eq_nil_iff.mp same.symm).symm
  | cons first operands ih =>
      cases others with
      | nil => cases same
      | cons first' others =>
          rw [List.forall_mem_cons] at legible othersLegible
          rw [List.map_cons, List.map_cons, List.cons.injEq] at same
          rw [Operand.text_injective legible.1 othersLegible.1 same.1,
            ih legible.2 othersLegible.2 same.2]

theorem Operand.arrow_inj {source other : Operand}
    (legible : source.IsLegible IsUnmistakable)
    (otherLegible : other.IsLegible IsUnmistakable) {dest dest' : Register}
    (same : source.text ++ " -> " ++ dest.text = other.text ++ " -> " ++
      dest'.text) :
    source = other ∧ dest = dest' := by
  have parts :=
    (isField_text legible).arrow_inj (isField_text otherLegible) same
  exact ⟨text_injective legible otherLegible parts.1,
    Register.text_injective parts.2⟩

theorem Operand.comma_arrow_inj {left right left' right' : Operand}
    (legible : left.IsLegible IsUnmistakable)
    (legible' : left'.IsLegible IsUnmistakable)
    (rightLegible : right.IsLegible IsUnmistakable)
    (rightLegible' : right'.IsLegible IsUnmistakable) {dest dest' : Register}
    (same : left.text ++ ", " ++ (right.text ++ " -> " ++ dest.text) =
      left'.text ++ ", " ++ (right'.text ++ " -> " ++ dest'.text)) :
    left = left' ∧ right = right' ∧ dest = dest' := by
  have parts := (isField_text legible).comma_inj (isField_text legible') same
  exact ⟨text_injective legible legible' parts.1,
    arrow_inj rightLegible rightLegible' parts.2⟩

namespace Instr

/-- What an instruction does.  A label does nothing. -/
def operation? : Instr → Option Operation
  | .enter .. => some .enter
  | .leave _ => some .leave
  | .alloc type .. => some (.alloc type)
  | .binary op type .. => some (.binary op type)
  | .negate type .. => some (.negate type)
  | .convert target .. => some (.convert target)
  | .load type .. => some (.load type)
  | .compare op type .. => some (.compare op type)
  | .logic op .. => some (.logic op)
  | .not .. => some .not
  | .move type .. => some (.move type)
  | .label _ => none
  | .jump _ => some .jump
  | .jumpIf .. => some .jumpIf
  | .call .. => some .call
  | .returnValue _ => some .returnValue
  | .read _ => some .read
  | .write _ => some .write
  | .print _ => some .print

/-- The text of an instruction after the word for its operation. -/
def arguments : Instr → String
  | .enter function params =>
      function ++ "(" ++ (", ".intercalate params ++ ")")
  | .leave function => function
  | .alloc _ array size => array ++ ", " ++ size.text
  | .binary _ _ left right dest =>
      left.text ++ ", " ++ (right.text ++ " -> " ++ dest.text)
  | .negate _ source dest => source.text ++ " -> " ++ dest.text
  | .convert _ source dest => source.text ++ " -> " ++ dest.text
  | .load _ array index dest =>
      array ++ ", " ++ (index.text ++ " -> " ++ dest.text)
  | .compare _ _ left right dest =>
      left.text ++ ", " ++ (right.text ++ " -> " ++ dest.text)
  | .logic _ left right dest =>
      left.text ++ ", " ++ (right.text ++ " -> " ++ dest.text)
  | .not source dest => source.text ++ " -> " ++ dest.text
  | .move _ source dest => source.text ++ " -> " ++ dest.text
  | .label _ => ""
  | .jump target => target.text
  | .jumpIf condition target => condition.text ++ " GOTO " ++ target.text
  | .call callee args dest? =>
    callee ++ furtherFields (args.map Operand.text) (dest?.map Register.text)
  | .returnValue value => value.text
  | .read dest => dest.text
  | .write value => value.text
  | .print output => Text.quoted output

/-- The text of an instruction is the word for its operation and the rest. -/
theorem toList_text {instr : Instr} {operation : Operation}
    (isOperation : instr.operation? = some operation) :
    instr.text.toList = operation.word.toList ++ ' ' ::
      instr.arguments.toList := by
  cases instr with
  | label point => cases isOperation
  | call callee args dest? =>
      cases isOperation
      cases dest? <;> simp [text, arguments, Operation.word, furtherFields,
        Function.comp_def]
  | _ =>
      cases isOperation
      simp [text, arguments, Operation.word]

/-- An instruction with names and legible operands, and without a label that
has a name. -/
def IsLegible (allowed : String → Prop) : Instr → Prop
  | .enter function params => IsName function ∧ ∀ param ∈ params, IsName param
  | .leave function => IsName function
  | .alloc _ array size => IsName array ∧ size.IsLegible allowed
  | .binary _ _ left right _ => left.IsLegible allowed ∧ right.IsLegible allowed
  | .negate _ source _ => source.IsLegible allowed
  | .convert _ source _ => source.IsLegible allowed
  | .load _ array index _ => IsName array ∧ index.IsLegible allowed
  | .compare _ _ left right _ =>
      left.IsLegible allowed ∧ right.IsLegible allowed
  | .move _ source dest => source.IsLegible allowed ∧ dest.IsLegible allowed
  | .label point => point.IsNumbered
  | .jump target => target.IsNumbered
  | .jumpIf _ target => target.IsNumbered
  | .call callee args _ => IsName callee ∧ ∀ arg ∈ args, arg.IsLegible allowed
  | .returnValue value => value.IsLegible allowed
  | .read dest => dest.IsLegible allowed
  | .write value => value.IsLegible allowed
  | .logic .. | .not .. | .print _ => True

variable {instr other : Instr}

/-- An instruction can be told from its operation and the rest of its text. -/
theorem eq_of_arguments_eq (legible : instr.IsLegible IsUnmistakable)
    (otherLegible : other.IsLegible IsUnmistakable)
    {operation : Operation} (isOperation : instr.operation? = some operation)
    (otherIsOperation : other.operation? = some operation)
    (same : instr.arguments = other.arguments) : instr = other := by
  cases instr <;> cases isOperation <;> cases other <;> cases otherIsOperation
  case enter function params function' params' =>
    have parts := legible.1.isField.append_inj otherLegible.1.isField
      (by decide : "(".toList.head? = some '(') (by decide) same
    have paramsEq := intercalate_inj_of_isName legible.2 otherLegible.2
      (String.toList_injective (by simpa using congrArg String.toList parts.2))
    rw [parts.1, paramsEq]
  case leave function function' => exact congrArg Instr.leave same
  case alloc array size array' size' =>
    have parts := legible.1.isField.comma_inj otherLegible.1.isField same
    rw [parts.1, Operand.text_injective legible.2 otherLegible.2 parts.2]
  case binary left right dest left' right' dest' =>
    obtain ⟨rfl, rfl, rfl⟩ :=
      Operand.comma_arrow_inj legible.1 otherLegible.1 legible.2
        otherLegible.2 same
    rfl
  case negate source dest source' dest' =>
    obtain ⟨rfl, rfl⟩ := Operand.arrow_inj legible otherLegible same
    rfl
  case convert source dest source' dest' =>
    obtain ⟨rfl, rfl⟩ := Operand.arrow_inj legible otherLegible same
    rfl
  case load array index dest array' index' dest' =>
    have parts := legible.1.isField.comma_inj otherLegible.1.isField same
    obtain ⟨rfl, rfl⟩ := Operand.arrow_inj legible.2 otherLegible.2 parts.2
    rw [parts.1]
  case compare left right dest left' right' dest' =>
    obtain ⟨rfl, rfl, rfl⟩ :=
      Operand.comma_arrow_inj legible.1 otherLegible.1 legible.2
        otherLegible.2 same
    rfl
  case logic left right dest left' right' dest' =>
    have parts :=
      left.isName_text.isField.comma_inj left'.isName_text.isField same
    have more :=
      right.isName_text.isField.arrow_inj right'.isName_text.isField parts.2
    rw [Register.text_injective parts.1, Register.text_injective more.1,
      Register.text_injective more.2]
  case not source dest source' dest' =>
    have parts :=
      source.isName_text.isField.arrow_inj source'.isName_text.isField same
    rw [Register.text_injective parts.1, Register.text_injective parts.2]
  case move source dest source' dest' =>
    have parts := (Operand.isField_text legible.1).arrow_inj
      (Operand.isField_text otherLegible.1) same
    rw [Operand.text_injective legible.1 otherLegible.1 parts.1,
      Target.text_injective legible.2 otherLegible.2 parts.2]
  case jump target target' =>
    rw [Label.text_injective legible otherLegible same]
  case jumpIf condition target condition' target' =>
    have parts :=
      condition.isName_text.isField.append_inj condition'.isName_text.isField
      (by decide : " GOTO ".toList.head? = some ' ') (by decide) same
    rw [Register.text_injective parts.1,
      Label.text_injective legible otherLegible parts.2]
  case call callee args dest? callee' args' dest?' =>
    obtain ⟨rfl, argsEq, destEq⟩ :=
      legible.1.isField.row_inj otherLegible.1.isField
      (List.forall_mem_map.mpr fun arg member =>
        Operand.isField_text (legible.2 arg member))
      (List.forall_mem_map.mpr fun arg member =>
        Operand.isField_text (otherLegible.2 arg member))
      same
    rw [Operand.map_text_injective legible.2 otherLegible.2 argsEq,
      Option.map_injective (fun _ _ => Register.text_injective) destEq]
  case returnValue value value' =>
    rw [Operand.text_injective legible otherLegible same]
  case read dest dest' => rw [Target.text_injective legible otherLegible same]
  case write value value' =>
    rw [Operand.text_injective legible otherLegible same]
  case print output output' => rw [Text.quoted_injective same]

theorem eq_label_of_operation?_eq_none (isLabel : instr.operation? = none) :
    ∃ point, instr = .label point := by
  cases instr with
  | label point => exact ⟨point, rfl⟩
  | _ => cases isLabel

theorem label_text_ne {point : Label} (numbered : point.IsNumbered)
    {operation : Operation} (isOperation : instr.operation? = some operation) :
    (label point).text ≠ instr.text := by
  intro same
  have member : ' ' ∈ instr.text.toList := by
    rw [toList_text isOperation]
    simp
  rw [← same, text, String.toList_append, List.mem_append] at member
  rcases member with inLabel | inEnd
  · exact (Label.isField_text numbered).notMem (by decide) inLabel
  · exact absurd inEnd (by decide)

/-- An instruction can be told from its text. -/
theorem text_injective (legible : instr.IsLegible IsUnmistakable)
    (otherLegible : other.IsLegible IsUnmistakable)
    (same : instr.text = other.text) : instr = other := by
  cases isOperation : instr.operation? with
  | none =>
      obtain ⟨point, rfl⟩ := eq_label_of_operation?_eq_none isOperation
      cases otherIsOperation : other.operation? with
      | none =>
          obtain ⟨point', rfl⟩ :=
            eq_label_of_operation?_eq_none otherIsOperation
          have sameText : point.text = point'.text :=
            String.toList_injective
              (by simpa [text] using congrArg String.toList same)
          rw [Label.text_injective legible otherLegible sameText]
      | some operation' =>
          exact absurd same (label_text_ne legible otherIsOperation)
  | some operation =>
      cases otherIsOperation : other.operation? with
      | none =>
          obtain ⟨point, rfl⟩ := eq_label_of_operation?_eq_none otherIsOperation
          exact absurd same.symm (label_text_ne otherLegible isOperation)
      | some operation' =>
          have sameList := congrArg String.toList same
          rw [toList_text isOperation, toList_text otherIsOperation] at sameList
          have parts :=
            Text.append_cons_inj (operation.isField_word.notMem (by decide))
            (operation'.isField_word.notMem (by decide)) sameList
          have operationEq :=
            Operation.word_injective (String.toList_injective parts.1)
          exact eq_of_arguments_eq legible otherLegible isOperation
            (operationEq ▸ otherIsOperation) (String.toList_injective parts.2)

end Instr

theorem IsField.isLine {text : String} (isField : IsField text) : IsLine text :=
  isField.notMem (by decide)

theorem IsLine.comma {front back : String} (isLine : IsLine front)
    (backIsLine : IsLine back) : IsLine (front ++ ", " ++ back) :=
  (isLine.append (by decide)).append backIsLine

theorem IsLine.arrow {front back : String} (isLine : IsLine front)
    (backIsLine : IsLine back) : IsLine (front ++ " -> " ++ back) :=
  (isLine.append (by decide)).append backIsLine

theorem isLine_furtherFields {others : List String} {result? : Option String}
    (areLines : ∀ other ∈ others, IsLine other)
    (resultIsLine : ∀ result ∈ result?, IsLine result) :
    IsLine (furtherFields others result?) := by
  induction others with
  | nil =>
      rw [IsLine, toList_furtherFields_nil]
      cases result? with
      | none => simp
      | some result => simpa [IsLine] using resultIsLine result rfl
  | cons first others ih =>
      rw [List.forall_mem_cons] at areLines
      have othersAreLine := ih areLines.2
      rw [IsLine] at othersAreLine ⊢
      rw [toList_furtherFields_cons]
      simpa using ⟨areLines.1, othersAreLine⟩

theorem isLine_intercalate {names : List String}
    (areLines : ∀ name ∈ names, IsLine name) :
    IsLine (", ".intercalate names) :=
  notMem_intercalate (by decide) areLines

theorem Register.isLine_text (register : Register) : IsLine register.text :=
  register.isName_text.isField.isLine

theorem Operand.isLine_text {operand : Operand} {allowed : String → Prop}
    (legible : operand.IsLegible allowed) : IsLine operand.text :=
  (isField_text legible).isLine

theorem Target.isLine_text {target : Target} {allowed : String → Prop}
    (legible : target.IsLegible allowed) : IsLine target.text :=
  (isField_text legible).isLine

theorem Label.isLine_text {label : Label} (numbered : label.IsNumbered) :
    IsLine label.text :=
  (isField_text numbered).isLine

/-- The four blanks at the start of a line that is set in. -/
def Text.margin : List Char :=
  [' ', ' ', ' ', ' ']

namespace Instr

variable {instr other : Instr} {allowed : String → Prop}

theorem isLine_arguments (legible : instr.IsLegible allowed) :
    IsLine instr.arguments := by
  cases instr with
  | enter function params =>
      exact (legible.1.isField.isLine.append (by decide)).append
        ((isLine_intercalate fun name member =>
          (legible.2 name member).isField.isLine).append
          (by decide))
  | leave function => exact legible.isField.isLine
  | alloc type array size =>
      exact legible.1.isField.isLine.comma (Operand.isLine_text legible.2)
  | binary op type left right dest =>
      exact (Operand.isLine_text legible.1).comma
        ((Operand.isLine_text legible.2).arrow dest.isLine_text)
  | negate type source dest =>
      exact (Operand.isLine_text legible).arrow dest.isLine_text
  | convert target source dest =>
      exact (Operand.isLine_text legible).arrow dest.isLine_text
  | load type array index dest =>
      exact legible.1.isField.isLine.comma
        ((Operand.isLine_text legible.2).arrow dest.isLine_text)
  | compare op type left right dest =>
      exact (Operand.isLine_text legible.1).comma
        ((Operand.isLine_text legible.2).arrow dest.isLine_text)
  | logic op left right dest =>
      exact left.isLine_text.comma (right.isLine_text.arrow dest.isLine_text)
  | not source dest => exact source.isLine_text.arrow dest.isLine_text
  | move type source dest =>
      exact (Operand.isLine_text legible.1).arrow (Target.isLine_text legible.2)
  | label point => exact (by decide : IsLine "")
  | jump target => exact Label.isLine_text legible
  | jumpIf condition target =>
      exact (condition.isLine_text.append (by decide)).append
        (Label.isLine_text legible)
  | call callee args dest? =>
      apply legible.1.isField.isLine.append
      apply isLine_furtherFields
      · exact List.forall_mem_map.mpr fun arg member =>
          Operand.isLine_text (legible.2 arg member)
      · cases dest? with
        | none => simp
        | some dest => simpa using dest.isLine_text
  | returnValue value => exact Operand.isLine_text legible
  | read dest => exact Target.isLine_text legible
  | write value => exact Operand.isLine_text legible
  | print output => exact Text.newline_notMem_quoted output

/-- The text of an instruction stands on one line and does not start with a
blank. -/
theorem isLine_text (legible : instr.IsLegible allowed) :
    IsLine instr.text ∧ instr.text.toList.head? ≠ some ' ' := by
  cases isOperation : instr.operation? with
  | none =>
      obtain ⟨point, rfl⟩ := eq_label_of_operation?_eq_none isOperation
      refine ⟨(Label.isLine_text legible).append (by decide), ?_⟩
      cases point with
      | named name => exact legible.elim
      | branch id part => simp [text, Label.text]
      | loop id part => simp [text, Label.text]
  | some operation =>
      have textEq := toList_text isOperation
      constructor
      · rw [IsLine, textEq, List.mem_append, List.mem_cons]
        rintro (inWord | isBlank | inArguments)
        · exact operation.isField_word.isLine inWord
        · exact absurd isBlank (by decide)
        · exact isLine_arguments legible inArguments
      · obtain ⟨first, headEq, notBlank⟩ := operation.exists_head_word
        rw [textEq, List.head?_append, headEq]
        simpa using notBlank

/-- The line of an instruction without its end. -/
def lineBody (instr : Instr) : List Char :=
  (if instr.isFlushLeft then [] else Text.margin) ++ instr.text.toList

theorem toList_line (instr : Instr) :
    instr.line.toList = instr.lineBody ++ ['\n'] := by
  rw [line, lineBody]
  split <;> simp [Text.margin]

theorem newline_notMem_lineBody (legible : instr.IsLegible allowed) :
    '\n' ∉ instr.lineBody := by
  rw [lineBody, List.mem_append]
  rintro (inMargin | inText)
  · split at inMargin
    · cases inMargin
    · exact absurd inMargin (by decide)
  · exact (isLine_text legible).1 inText

/-- An instruction can be told from its line. -/
theorem lineBody_injective (legible : instr.IsLegible IsUnmistakable)
    (otherLegible : other.IsLegible IsUnmistakable)
    (same : instr.lineBody = other.lineBody) : instr = other := by
  have notBlank := (isLine_text legible).2
  have otherNotBlank := (isLine_text otherLegible).2
  apply text_injective legible otherLegible
  apply String.toList_injective
  rw [lineBody, lineBody] at same
  split at same <;> split at same
  · exact same
  · rw [List.nil_append] at same
    simp [same, Text.margin] at notBlank
  · rw [List.nil_append] at same
    simp [← same, Text.margin] at otherNotBlank
  · exact List.append_cancel_left same

theorem toList_listing_cons (first : Instr) (others : List Instr) :
    (listing (first :: others)).toList =
      first.lineBody ++ '\n' :: (listing others).toList := by
  simp [listing, toList_line]

/-- Code can be told from its listing. -/
theorem listing_injective {code others : List Instr}
    (legible : ∀ instr ∈ code, instr.IsLegible IsUnmistakable)
    (othersLegible : ∀ instr ∈ others, instr.IsLegible IsUnmistakable)
    (same : (listing code).toList = (listing others).toList) :
    code = others := by
  induction code generalizing others with
  | nil =>
      cases others with
      | nil => rfl
      | cons first' others =>
          rw [toList_listing_cons] at same
          simp [listing] at same
  | cons first code ih =>
      rw [toList_listing_cons] at same
      cases others with
      | nil => simp [listing] at same
      | cons first' others =>
          rw [toList_listing_cons] at same
          rw [List.forall_mem_cons] at legible othersLegible
          have parts := Text.append_cons_inj (newline_notMem_lineBody legible.1)
            (newline_notMem_lineBody othersLegible.1) same
          rw [lineBody_injective legible.1 othersLegible.1 parts.1,
            ih legible.2 othersLegible.2 parts.2]

end Instr

end PL0
