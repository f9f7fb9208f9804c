import PL0.Proofs.Code.Constants
import PL0.Proofs.Grammar.Contents

/-!
# Unambiguous listings

Compiled code is made of names, constants and labels that can be told from
their texts, as long as no variable is named like a register or like infinity.
So the listing of a program without such variables determines its code.  A
variable that is named like a register makes a listing ambiguous: nothing in
the listing says that it is a variable.
-/

namespace PL0

section Legibility

variable {environment : Environment}
  {registers : List (Register × RegisterType)}
  {allowed : String → Prop}

theorem Operand.HasType.isLegible {operand : Operand} {base : BaseType}
    (typed : operand.HasType environment registers base)
    (plain : operand.IsPlain)
    (vars : ∀ entry ∈ environment.vars, IsName entry.1 ∧ allowed entry.1) :
    operand.IsLegible allowed := by
  cases typed with
  | int => trivial
  | float => exact plain
  | var declared => exact vars _ declared
  | reg defined => trivial

theorem Operand.PassesAs.isLegible {operand : Operand} {type : ValueType}
    (passes : operand.PassesAs environment registers type)
    (plain : operand.IsPlain)
    (vars : ∀ entry ∈ environment.vars, IsName entry.1 ∧ allowed entry.1) :
    operand.IsLegible allowed := by
  cases passes with
  | scalar typed => exact typed.isLegible plain vars
  | array declared => exact vars _ declared

theorem Target.HasType.isLegible {target : Target} {base : BaseType}
    (typed : target.HasType environment registers base) (plain : target.IsPlain)
    (vars : ∀ entry ∈ environment.vars, IsName entry.1 ∧ allowed entry.1) :
    target.IsLegible allowed := by
  cases typed with
  | var declared => exact (vars _ declared).1
  | element declared indexTyped =>
      exact ⟨(vars _ declared).1, indexTyped.isLegible plain vars⟩

theorem passes_isLegible {args : List Operand} {params : List ValueType}
    (passes : List.Forall₂ (Operand.PassesAs environment registers) args params)
    (plain : ∀ arg ∈ args, arg.IsPlain)
    (vars : ∀ entry ∈ environment.vars, IsName entry.1 ∧ allowed entry.1) :
    ∀ arg ∈ args, arg.IsLegible allowed := by
  induction passes with
  | nil => simp
  | cons head _ ih =>
      rw [List.forall_mem_cons] at plain ⊢
      exact ⟨head.isLegible plain.1 vars, ih plain.2⟩

/-- A well-typed instruction can be told from its text if the names of the
variables and functions allow it. -/
theorem Instr.WellTyped.isLegible {instr : Instr}
    (typed : instr.WellTyped environment registers) (plain : instr.IsPlain)
    (vars : ∀ entry ∈ environment.vars, IsName entry.1 ∧ allowed entry.1)
    (functions : ∀ entry ∈ environment.functions, IsName entry.1) :
    instr.IsLegible allowed := by
  cases typed with
  | alloc declared sizeTyped =>
      exact ⟨(vars _ declared).1, sizeTyped.isLegible plain vars⟩
  | binary leftTyped rightTyped =>
      exact ⟨leftTyped.isLegible plain.1 vars,
        rightTyped.isLegible plain.2 vars⟩
  | negate sourceTyped => exact sourceTyped.isLegible plain vars
  | convert sourceTyped _ => exact sourceTyped.isLegible plain vars
  | load declared indexTyped =>
      exact ⟨(vars _ declared).1, indexTyped.isLegible plain vars⟩
  | compare leftTyped rightTyped =>
      exact ⟨leftTyped.isLegible plain.1 vars,
        rightTyped.isLegible plain.2 vars⟩
  | logic _ _ => trivial
  | not _ => trivial
  | move sourceTyped destTyped =>
      exact ⟨sourceTyped.isLegible plain.1 vars,
        destTyped.isLegible plain.2 vars⟩
  | label => exact plain
  | jump => exact plain
  | jumpIf _ => exact plain
  | call defined argsTyped =>
      exact ⟨functions _ defined, passes_isLegible argsTyped plain vars⟩
  | returnValue valueTyped => exact valueTyped.isLegible plain vars
  | read destTyped => exact destTyped.isLegible plain vars
  | write valueTyped => exact valueTyped.isLegible plain vars
  | print => trivial

end Legibility

/-- A function and its variables have names, and those of the variables are
allowed. -/
structure Function.HasLegibleNames (allowed : String → Prop)
    (definition : Function) : Prop where
  own : IsName definition.name
  declared : ∀ declaration ∈ definition.declarations,
    IsName declaration.name ∧ allowed declaration.name

theorem Function.TypedCode.isLegible {allowed : String → Prop}
    {functions : List (String × List ValueType)}
    {definition : Function} {body : List Instr}
    (typed : definition.TypedCode functions body)
    (plain : PlainCode body) (legible : definition.HasLegibleNames allowed)
    (callable : ∀ entry ∈ functions, IsName entry.1) :
    ∀ instr ∈ definition.block body, instr.IsLegible allowed := by
  have inside : ∀ instr ∈ body, instr.IsLegible allowed := by
    intro instr member
    obtain ⟨before, after, split⟩ := List.append_of_mem member
    apply (typed.instructions before instr after split).isLegible
      (plain instr member)
    · intro entry isEntry
      obtain ⟨declaration, isDeclared, rfl⟩ := List.mem_map.mp isEntry
      exact legible.declared declaration isDeclared
    · exact callable
  rw [Function.block, List.forall_mem_cons, List.forall_mem_append,
    List.forall_mem_singleton]
  refine ⟨⟨legible.own, ?_⟩, inside, legible.own⟩
  rw [List.forall_mem_map]
  intro param isParam
  exact (legible.declared param (List.mem_append_left _ isParam)).1

theorem blocks_isLegible {allowed : String → Prop}
    {functions : List (String × List ValueType)} {definitions : List Function}
    {bodies : List (List Instr)}
    (typed : List.Forall₂ (Function.TypedCode functions) definitions bodies)
    (plain : PlainCode (List.zipWith Function.block definitions bodies).flatten)
    (legible : ∀ definition ∈ definitions, definition.HasLegibleNames allowed)
    (callable : ∀ entry ∈ functions, IsName entry.1) :
    ∀ instr ∈ (List.zipWith Function.block definitions bodies).flatten,
      instr.IsLegible allowed := by
  induction typed with
  | nil => simp
  | @cons definition body definitions bodies typed _ ih =>
      rw [List.zipWith_cons_cons, List.flatten_cons] at plain ⊢
      rw [List.forall_mem_cons] at legible
      obtain ⟨blockPlain, othersPlain⟩ := List.forall_mem_append.mp plain
      have bodyPlain : PlainCode body := fun instr member =>
        blockPlain instr
          (List.mem_cons_of_mem _ (List.mem_append_left _ member))
      rw [List.forall_mem_append]
      exact ⟨typed.isLegible bodyPlain legible.1 callable,
        ih othersPlain legible.2⟩

/-- The names of the variables that a source text declares, parameters
included. -/
def variablesOf (source : String) : List String :=
  match treeOf source with
  | .ok tree => tree.definitions.flatMap fun definition =>
      definition.declarations.map Declaration.name
  | .error _ => []

/-- Compiled code is legible.  It can be told from its text if no variable is
named like a register or like infinity. -/
theorem compile_isLegible {allowed : String → Prop} {source : String}
    {code : List Instr} (compiled : compile source = .ok code)
    (areAllowed : ∀ name ∈ variablesOf source, allowed name) :
    ∀ instr ∈ code, instr.IsLegible allowed := by
  obtain ⟨tree, isTree, accepted, lowered⟩ := compile_eq_ok_iff.mp compiled
  have scanned := Program.areScanned_definitions (treeOf_areScanned isTree)
  have names (definition : Function) (member : definition ∈ tree.definitions) :=
    Function.isName_of_areScanned fun kind isLeaf =>
      scanned kind (List.mem_flatMap.mpr ⟨definition, member, isLeaf⟩)
  obtain ⟨bodies, codeEq, typed⟩ :=
    lower_typed accepted (ids_nodup_of_treeOf isTree) lowered
  obtain ⟨emitted, emits, emittedEq⟩ := lower_eq_ok_iff.mp lowered
  have plain : PlainCode code :=
    emittedEq ▸ Emission.functions_plain scanned emits
  subst codeEq
  apply blocks_isLegible typed plain
  · intro definition member
    refine ⟨(names definition member).1, ?_⟩
    intro declaration declared
    refine ⟨(names definition member).2 declaration declared, areAllowed _ ?_⟩
    rw [variablesOf, isTree]
    exact List.mem_flatMap.mpr ⟨definition, member,
      List.mem_map_of_mem declared⟩
  · intro entry isEntry
    obtain ⟨definition, member, rfl⟩ := List.mem_map.mp isEntry
    exact (names definition member).1

/-- The listing of compiled code determines the code if no variable is named
like a register or like infinity. -/
theorem compile_listing_injective {source other : String}
    {code otherCode : List Instr} (compiled : compile source = .ok code)
    (otherCompiled : compile other = .ok otherCode)
    (unmistakable : ∀ name ∈ variablesOf source, IsUnmistakable name)
    (otherUnmistakable : ∀ name ∈ variablesOf other, IsUnmistakable name)
    (same : Instr.listing code = Instr.listing otherCode) : code = otherCode :=
  Instr.listing_injective (compile_isLegible compiled unmistakable)
    (compile_isLegible otherCompiled otherUnmistakable)
      (congrArg String.toList same)

/-- A function that is named like a register, and variables that are named
nearly like a register and like infinity. -/
def nearlyMistakable : String :=
  "fun R0(inf0: float) begin skip end " ++
  "fun main() R00: int; begin R0(2.5); write((1 + 2) + R00) end"

/-- The same program with another spelling of a number and a sign that changes
nothing. -/
def nearlyMistakableSigned : String :=
  "fun R0(inf0: float) begin skip end " ++
  "fun main() R00: int; begin R0(2.50); write(+(1 + 2) + R00) end"

theorem compile_listing_injective_nearlyMistakable :
    ∃ code otherCode, compile nearlyMistakable = .ok code ∧
      compile nearlyMistakableSigned = .ok otherCode ∧
      (∀ name ∈ variablesOf nearlyMistakable, IsUnmistakable name) ∧
      (∀ name ∈ variablesOf nearlyMistakableSigned, IsUnmistakable name) ∧
      Instr.listing code = Instr.listing otherCode ∧ code = otherCode := by
  obtain ⟨code, compiled, otherCompiled⟩ : ∃ code,
      compile nearlyMistakable = .ok code ∧ compile nearlyMistakableSigned =
        .ok code :=
    ⟨[.enter "R0" ["inf0"],
      .leave "R0",
      .enter "main" [],
      .call "R0" [.float (.ofDecimal 25 (-1))] none,
      .binary .add .int (.int 1) (.int 2) ⟨0⟩,
      .binary .add .int (.reg ⟨0⟩) (.var "R00") ⟨1⟩,
      .write (.reg ⟨1⟩),
      .leave "main"], by decide +kernel, by decide +kernel⟩
  have unmistakable : ∀ name ∈ variablesOf nearlyMistakable,
      IsUnmistakable name := by
    decide +kernel
  have otherUnmistakable :
      ∀ name ∈ variablesOf nearlyMistakableSigned, IsUnmistakable name := by
    decide +kernel
  exact ⟨code, code, compiled, otherCompiled, unmistakable,
    otherUnmistakable, rfl,
    compile_listing_injective compiled otherCompiled unmistakable
      otherUnmistakable rfl⟩

/-- The sum of a variable that is named like a register and of the sum in that
register. -/
def registerVariableOnLeft : String :=
  "fun main() R0: int; begin write(R0 + (1 + 2)) end"

/-- The same sum the other way round. -/
def registerVariableOnRight : String :=
  "fun main() R0: int; begin write((1 + 2) + R0) end"

/-- Both sums are listed as `ADDI R0, R0 -> R1`, though each adds the variable
and the register in its own order. -/
theorem compile_listing_ambiguous :
    ∃ code otherCode, compile registerVariableOnLeft = .ok code ∧
      compile registerVariableOnRight = .ok otherCode ∧
      Instr.listing code = Instr.listing otherCode ∧ code ≠ otherCode := by
  refine ⟨
    [.enter "main" [],
      .binary .add .int (.int 1) (.int 2) ⟨0⟩,
      .binary .add .int (.var "R0") (.reg ⟨0⟩) ⟨1⟩,
      .write (.reg ⟨1⟩),
      .leave "main"],
    [.enter "main" [],
      .binary .add .int (.int 1) (.int 2) ⟨0⟩,
      .binary .add .int (.reg ⟨0⟩) (.var "R0") ⟨1⟩,
      .write (.reg ⟨1⟩),
      .leave "main"], ?_, ?_, ?_, ?_⟩
  · decide +kernel
  · decide +kernel
  · decide +kernel
  · decide

end PL0
