import PL0.Proofs.Code.Shape
import PL0.Proofs.Typing.Judgement

/-!
# Well-typed code

Code has types as programs have them.  A variable has the type of its
declaration.  A register has the type of the one instruction that defines it:
a value of a base type, or the truth of a condition.  Truth is only used by
connectives and jumps, and values by all else.

An instruction may only use registers that were defined before it.
-/

namespace PL0

/-- What a register holds. -/
inductive RegisterType where
  | value (base : BaseType)
  | truth
deriving DecidableEq

/-- The register that an instruction defines, with its type. -/
def Instr.definition? : Instr → Option (Register × RegisterType)
  | .binary _ type _ _ dest => some (dest, .value type)
  | .negate type _ dest => some (dest, .value type)
  | .convert target _ dest => some (dest, .value target)
  | .load type _ _ dest => some (dest, .value type)
  | .compare _ _ _ _ dest => some (dest, .truth)
  | .logic _ _ _ dest => some (dest, .truth)
  | .not _ dest => some (dest, .truth)
  | .call _ _ dest? => dest?.map fun dest => (dest, .value .int)
  | _ => none

/-- The registers that code defines, with their types. -/
def registersOf (code : List Instr) : List (Register × RegisterType) :=
  code.filterMap Instr.definition?

section Judgement

variable (environment : Environment)
  (registers : List (Register × RegisterType))

/-- An operand is a value of a base type. -/
inductive Operand.HasType : Operand → BaseType → Prop where
  | int {value : Int64} : Operand.HasType (.int value) .int
  | float {value : Binary64} : Operand.HasType (.float value) .float
  | var {name : String} {base : BaseType}
      (declared : (name, .scalar base) ∈ environment.vars) :
      Operand.HasType (.var name) base
  | reg {register : Register} {base : BaseType}
      (defined : (register, .value base) ∈ registers) :
      Operand.HasType (.reg register) base

/-- An operand can be passed for a parameter of a type. -/
inductive Operand.PassesAs : Operand → ValueType → Prop where
  | scalar {operand : Operand} {base : BaseType}
      (typed : operand.HasType environment registers base) :
      Operand.PassesAs operand (.scalar base)
  | array {name : String} {base : BaseType}
      (declared : (name, .array base) ∈ environment.vars) :
      Operand.PassesAs (.var name) (.array base)

/-- A target takes values of a base type. -/
inductive Target.HasType : Target → BaseType → Prop where
  | var {name : String} {base : BaseType}
      (declared : (name, .scalar base) ∈ environment.vars) :
      Target.HasType (.var name) base
  | element {array : String} {index : Operand} {base : BaseType}
      (declared : (array, .array base) ∈ environment.vars)
      (indexTyped : index.HasType environment registers .int) :
      Target.HasType (.element array index) base

/-- An instruction inside a function keeps to the rules. -/
inductive Instr.WellTyped : Instr → Prop where
  | alloc {type : BaseType} {array : String} {size : Operand}
      (declared : (array, .array type) ∈ environment.vars)
      (sizeTyped : size.HasType environment registers .int) :
      Instr.WellTyped (.alloc type array size)
  | binary {op : ArithOp} {type : BaseType} {left right : Operand}
      {dest : Register} (leftTyped : left.HasType environment registers type)
      (rightTyped : right.HasType environment registers type) :
      Instr.WellTyped (.binary op type left right dest)
  | negate {type : BaseType} {source : Operand} {dest : Register}
      (sourceTyped : source.HasType environment registers type) :
      Instr.WellTyped (.negate type source dest)
  | convert {target base : BaseType} {source : Operand} {dest : Register}
      (sourceTyped : source.HasType environment registers base)
      (changes : base ≠ target) :
      Instr.WellTyped (.convert target source dest)
  | load {type : BaseType} {array : String} {index : Operand} {dest : Register}
      (declared : (array, .array type) ∈ environment.vars)
      (indexTyped : index.HasType environment registers .int) :
      Instr.WellTyped (.load type array index dest)
  | compare {op : RelOp} {type : BaseType} {left right : Operand}
      {dest : Register} (leftTyped : left.HasType environment registers type)
      (rightTyped : right.HasType environment registers type) :
      Instr.WellTyped (.compare op type left right dest)
  | logic {op : LogicOp} {left right dest : Register}
      (leftTruth : (left, .truth) ∈ registers)
        (rightTruth : (right, .truth) ∈ registers) :
      Instr.WellTyped (.logic op left right dest)
  | not {source dest : Register} (sourceTruth : (source, .truth) ∈ registers) :
      Instr.WellTyped (.not source dest)
  | move {type : BaseType} {source : Operand} {dest : Target}
      (sourceTyped : source.HasType environment registers type)
      (destTyped : dest.HasType environment registers type) :
      Instr.WellTyped (.move type source dest)
  | label {point : Label} : Instr.WellTyped (.label point)
  | jump {target : Label} : Instr.WellTyped (.jump target)
  | jumpIf {condition : Register} {target : Label}
      (conditionTruth : (condition, .truth) ∈ registers) :
      Instr.WellTyped (.jumpIf condition target)
  | call {callee : String} {args : List Operand} {dest? : Option Register}
      {params : List ValueType}
        (defined : (callee, params) ∈ environment.functions)
      (argsTyped : List.Forall₂ (Operand.PassesAs environment registers) args
        params) :
      Instr.WellTyped (.call callee args dest?)
  | returnValue {value : Operand}
      (valueTyped : value.HasType environment registers .int) :
      Instr.WellTyped (.returnValue value)
  | read {dest : Target} {base : BaseType}
      (destTyped : dest.HasType environment registers base) :
      Instr.WellTyped (.read dest)
  | write {value : Operand} {base : BaseType}
      (valueTyped : value.HasType environment registers base) :
      Instr.WellTyped (.write value)
  | print {text : String} : Instr.WellTyped (.print text)

end Judgement

/-- The code inside a function keeps to the rules among the given functions:
the names that are declared and the registers that are defined are distinct,
and each instruction keeps to the rules with the registers defined before
it. -/
structure Function.TypedCode (functions : List (String × List ValueType))
    (function : Function) (body : List Instr) : Prop where
  names : (function.declarations.map Declaration.name).Nodup
  registers : ((registersOf body).map Prod.fst).Nodup
  instructions : ∀ before instr after, body = before ++ instr :: after →
    instr.WellTyped (function.environment functions) (registersOf before)

/-- The code of a function around its inside. -/
def Function.block (function : Function) (body : List Instr) : List Instr :=
  .enter function.name (function.params.map Declaration.name) ::
    (body ++ [.leave function.name])

section Monotone

variable {environment : Environment}
  {registers more : List (Register × RegisterType)}

theorem Operand.HasType.mono {operand : Operand} {base : BaseType}
    (typed : operand.HasType environment registers base)
    (subset : registers ⊆ more) :
    operand.HasType environment more base := by
  cases typed with
  | int => exact .int
  | float => exact .float
  | var declared => exact .var declared
  | reg defined => exact .reg (subset defined)

theorem Operand.PassesAs.mono {operand : Operand} {type : ValueType}
    (passes : operand.PassesAs environment registers type)
    (subset : registers ⊆ more) :
    operand.PassesAs environment more type := by
  cases passes with
  | scalar typed => exact .scalar (typed.mono subset)
  | array declared => exact .array declared

theorem Target.HasType.mono {target : Target} {base : BaseType}
    (typed : target.HasType environment registers base)
    (subset : registers ⊆ more) :
    target.HasType environment more base := by
  cases typed with
  | var declared => exact .var declared
  | element declared indexTyped =>
      exact .element declared (indexTyped.mono subset)

theorem Instr.WellTyped.mono {instr : Instr}
    (typed : instr.WellTyped environment registers)
    (subset : registers ⊆ more) : instr.WellTyped environment more := by
  cases typed with
  | alloc declared sizeTyped => exact .alloc declared (sizeTyped.mono subset)
  | binary leftTyped rightTyped =>
      exact .binary (leftTyped.mono subset) (rightTyped.mono subset)
  | negate sourceTyped => exact .negate (sourceTyped.mono subset)
  | convert sourceTyped changes =>
      exact .convert (sourceTyped.mono subset) changes
  | load declared indexTyped => exact .load declared (indexTyped.mono subset)
  | compare leftTyped rightTyped =>
      exact .compare (leftTyped.mono subset) (rightTyped.mono subset)
  | logic leftTruth rightTruth =>
      exact .logic (subset leftTruth) (subset rightTruth)
  | not sourceTruth => exact .not (subset sourceTruth)
  | move sourceTyped destTyped =>
      exact .move (sourceTyped.mono subset) (destTyped.mono subset)
  | label => exact .label
  | jump => exact .jump
  | jumpIf conditionTruth => exact .jumpIf (subset conditionTruth)
  | call defined argsTyped =>
      exact .call defined (argsTyped.imp fun _ _ passes => passes.mono subset)
  | returnValue valueTyped => exact .returnValue (valueTyped.mono subset)
  | read destTyped => exact .read (destTyped.mono subset)
  | write valueTyped => exact .write (valueTyped.mono subset)
  | print => exact .print

end Monotone

@[simp]
theorem registersOf_append (first second : List Instr) :
    registersOf (first ++ second) = registersOf first ++ registersOf second :=
  List.filterMap_append

theorem registersOf_subset_left (first second : List Instr) :
    registersOf first ⊆ registersOf (first ++ second) := by
  rw [registersOf_append]
  exact List.subset_append_left _ _

theorem registersOf_subset_right (first second : List Instr) :
    registersOf second ⊆ registersOf (first ++ second) := by
  rw [registersOf_append]
  exact List.subset_append_right _ _

theorem registersOf_singleton_of_none {instr : Instr}
    (defines : instr.definition? = none) : registersOf [instr] = [] := by
  simp [registersOf, defines]

theorem registersOf_singleton_of_some {instr : Instr}
    {definition : Register × RegisterType}
    (defines : instr.definition? = some definition) :
    registersOf [instr] = [definition] := by
  simp [registersOf, defines]

theorem mem_registersOf_snoc {instr : Instr}
    {definition : Register × RegisterType}
    (defines : instr.definition? = some definition) (code : List Instr) :
    definition ∈ registersOf (code ++ [instr]) := by
  rw [registersOf_append, registersOf_singleton_of_some defines]
  exact List.mem_append_right _ List.mem_cons_self

/-- A piece of code that is made from one supply to another takes the
registers in between, in order, and keeps to the rules wherever it stands. -/
structure TypedPiece (environment : Environment) (before : Supply)
    (code : List Instr) (after : Supply) : Prop where
  le : before.register ≤ after.register
  registers : (registersOf code).map (fun definition => definition.1.index) =
    List.range' before.register (after.register - before.register)
  instructions : ∀ first instr rest, code = first ++ instr :: rest →
    instr.WellTyped environment (registersOf first)

namespace TypedPiece

variable {environment : Environment} {before between after : Supply}
  {first second code : List Instr} {instr : Instr}

theorem nil (sameRegister : before.register = after.register) :
    TypedPiece environment before [] after := by
  refine ⟨Nat.le_of_eq sameRegister, ?_, ?_⟩
  · rw [sameRegister, Nat.sub_self]
    rfl
  · intro first instr rest split
    simp at split

/-- Pieces of which the second uses registers of the first as well. -/
theorem append_of_known
    (firstTyped : TypedPiece environment before first between)
    (le : between.register ≤ after.register)
    (registers : (registersOf second).map (fun definition =>
      definition.1.index) =
      List.range' between.register (after.register - between.register))
    (instructions : ∀ earlier instr rest, second = earlier ++ instr :: rest →
      instr.WellTyped environment (registersOf first ++ registersOf earlier)) :
    TypedPiece environment before (first ++ second) after := by
  have firstLe := firstTyped.le
  refine ⟨Nat.le_trans firstLe le, ?_, ?_⟩
  · have lengthEq : after.register - before.register =
        (between.register - before.register) +
          (after.register - between.register) := by omega
    have startEq :
        between.register = before.register +
          (between.register - before.register) := by
      omega
    rw [registersOf_append, List.map_append, firstTyped.registers, registers,
      lengthEq, ← List.range'_append_1, ← startEq]
  · intro earlier instr rest split
    rcases List.append_eq_append_iff.mp split with
      ⟨middle, earlierEq, secondEq⟩ |
      ⟨middle, firstEq, restEq⟩
    · rw [earlierEq, registersOf_append]
      exact instructions middle instr rest secondEq
    · cases middle with
      | nil =>
          have whole := instructions [] instr rest (by simpa using restEq.symm)
          rw [List.append_nil] at firstEq
          simpa [registersOf, firstEq] using whole
      | cons head tail =>
          rw [List.cons_append, List.cons.injEq] at restEq
          exact firstTyped.instructions earlier instr tail
            (by rw [firstEq, restEq.1])

theorem append (firstTyped : TypedPiece environment before first between)
    (secondTyped : TypedPiece environment between second after) :
    TypedPiece environment before (first ++ second) after :=
  firstTyped.append_of_known secondTyped.le secondTyped.registers
    fun earlier instr rest split =>
      (secondTyped.instructions earlier instr rest split).mono
        (List.subset_append_right _ _)

theorem append_instr (typed : TypedPiece environment before code between)
    (le : between.register ≤ after.register)
    (registers : (registersOf [instr]).map (fun definition =>
      definition.1.index) =
      List.range' between.register (after.register - between.register))
    (instrTyped : instr.WellTyped environment (registersOf code)) :
    TypedPiece environment before (code ++ [instr]) after := by
  refine typed.append_of_known le registers ?_
  intro earlier other rest split
  obtain ⟨rfl, rfl, rfl⟩ : earlier = [] ∧ other = instr ∧ rest = [] := by
    simpa [List.singleton_eq_append_iff] using split
  simpa [registersOf] using instrTyped

/-- An instruction that leaves its result in the next register. -/
theorem into (typed : TypedPiece environment before code between)
    {type : RegisterType}
    (defines : instr.definition? = some (⟨between.register⟩, type))
    (instrTyped : instr.WellTyped environment (registersOf code)) :
    TypedPiece environment before (code ++ [instr]) between.nextRegister := by
  refine typed.append_instr (Nat.le_succ _) ?_ instrTyped
  have one : between.nextRegister.register - between.register = 1 :=
    Nat.add_sub_cancel_left ..
  rw [registersOf_singleton_of_some defines, one]
  rfl

/-- An instruction that defines no register. -/
theorem snoc (typed : TypedPiece environment before code after)
    (plain : instr.definition? = none)
    (instrTyped : instr.WellTyped environment (registersOf code)) :
    TypedPiece environment before (code ++ [instr]) after := by
  refine typed.append_instr (Nat.le_refl _) ?_ instrTyped
  rw [registersOf_singleton_of_none plain, Nat.sub_self]
  rfl

theorem append_cons (typed : TypedPiece environment before first between)
    (plain : instr.definition? = none)
    (instrTyped : instr.WellTyped environment (registersOf first))
    (rest : TypedPiece environment between second after) :
    TypedPiece environment before (first ++ instr :: second) after := by
  have joined := (typed.snoc plain instrTyped).append rest
  rwa [List.append_assoc] at joined

theorem cons (plain : instr.definition? = none)
    (instrTyped : instr.WellTyped environment [])
    (rest : TypedPiece environment before second after) :
    TypedPiece environment before (instr :: second) after :=
  (nil rfl : TypedPiece environment before [] before).append_cons plain
    instrTyped rest

/-- A piece takes no notice of the labels that were used before. -/
theorem of_nextLabel
    (typed : TypedPiece environment before.nextLabel code after) :
    TypedPiece environment before code after :=
  ⟨typed.le, typed.registers, typed.instructions⟩

theorem registers_nodup (typed : TypedPiece environment before code after) :
    ((registersOf code).map Prod.fst).Nodup := by
  have indices :
      ((registersOf code).map fun definition => definition.1.index).Nodup := by
    rw [typed.registers]
    exact List.nodup_range'
  have viaIndices :
      (((registersOf code).map Prod.fst).map Register.index).Nodup := by
    simpa [Function.comp_def] using indices
  exact List.Pairwise.of_map Register.index (fun _ _ differ same =>
    differ (congrArg _ same))
    viaIndices

end TypedPiece

end PL0
