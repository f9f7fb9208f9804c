import PL0.Proofs.Code.Jumps

/-!
# Every register is used once

The registers of a program are defined in order, each by one instruction, and
each of them is used exactly once, further down in the same straight piece of
code.

The value of an expression is used by whatever the expression is a part of, so
while code is being made some registers are still waiting for their use.  Code
is balanced if its uses together with the waiting registers are its
definitions.  A piece that leaves no register waiting can be followed by
anything; one that does only by straight code.
-/

namespace PL0

/-- The register that an operand needs, if it is one. -/
def Operand.registers : Operand → List Register
  | .reg register => [register]
  | _ => []

/-- The register that a target needs for its index. -/
def Target.registers : Target → List Register
  | .var _ => []
  | .element _ index => index.registers

namespace Instr

/-- The registers that an instruction uses, each as often as it is used. -/
def used : Instr → List Register
  | .alloc _ _ size => size.registers
  | .binary _ _ left right _ => left.registers ++ right.registers
  | .negate _ source _ => source.registers
  | .convert _ source _ => source.registers
  | .load _ _ index _ => index.registers
  | .compare _ _ left right _ => left.registers ++ right.registers
  | .logic _ left right _ => [left, right]
  | .not source _ => [source]
  | .move _ source dest => dest.registers ++ source.registers
  | .jumpIf condition _ => [condition]
  | .call _ args _ => args.flatMap Operand.registers
  | .returnValue value => value.registers
  | .read dest => dest.registers
  | .write value => value.registers
  | .enter .. | .leave _ | .label _ | .jump _ | .print _ => []

/-- The register that an instruction defines. -/
def result? (instr : Instr) : Option Register :=
  instr.definition?.map Prod.fst

end Instr

/-- The registers that code uses, each as often as it is used. -/
def usedRegisters (code : List Instr) : List Register :=
  code.flatMap Instr.used

/-- The registers that code defines, in order. -/
def resultRegisters (code : List Instr) : List Register :=
  code.filterMap Instr.result?

@[simp]
theorem usedRegisters_append (first second : List Instr) :
    usedRegisters (first ++ second) = usedRegisters first ++
      usedRegisters second :=
  List.flatMap_append

@[simp]
theorem usedRegisters_singleton (instr : Instr) :
    usedRegisters [instr] = instr.used :=
  List.flatMap_singleton ..

@[simp]
theorem resultRegisters_append (first second : List Instr) :
    resultRegisters (first ++ second) = resultRegisters first ++
      resultRegisters second :=
  List.filterMap_append

theorem resultRegisters_singleton (instr : Instr) :
    resultRegisters [instr] = instr.result?.toList := by
  cases resultEq : instr.result? <;> simp [resultRegisters, resultEq]

/-- An instruction of two pieces of code stands in the first or in the
second. -/
theorem split_append {first second earlier rest : List Instr} {instr : Instr}
    (split : first ++ second = earlier ++ instr :: rest) :
    (∃ tail, first = earlier ++ instr :: tail ∧ rest = tail ++ second) ∨
      ∃ middle, second = middle ++ instr :: rest := by
  rcases List.append_eq_append_iff.mp split with
    ⟨middle, _, secondEq⟩ | ⟨middle, firstEq, restEq⟩
  · exact .inr ⟨middle, secondEq⟩
  · rcases List.cons_eq_append_iff.mp restEq with
      ⟨rfl, secondEq⟩ | ⟨tail, rfl, tailEq⟩
    · exact .inr ⟨[], secondEq⟩
    · exact .inl ⟨tail, firstEq, tailEq⟩

/-- Some instruction uses the register, and the code before it is straight. -/
def UsedAhead (register : Register) (code : List Instr) : Prop :=
  ∃ between user rest, code = between ++ user :: rest ∧ register ∈ user.used ∧
    ∀ instr ∈ between, instr.isControl = false

theorem UsedAhead.append_right {register : Register} {first : List Instr}
    (ahead : UsedAhead register first) (second : List Instr) :
    UsedAhead register (first ++ second) := by
  obtain ⟨between, user, rest, rfl, uses, straight⟩ := ahead
  exact ⟨between, user, rest ++ second, by simp, uses, straight⟩

/-- Code that is made from one supply to another defines the registers in
between, in order.  Its uses together with the pending registers are its
definitions.  Each register it defines is used further down, or is pending and
only straight code follows. -/
structure Balanced (before : Supply) (code : List Instr)
    (pending : List Register) (after : Supply) : Prop where
  le : before.register ≤ after.register
  results : (resultRegisters code).map Register.index =
    List.range' before.register (after.register - before.register)
  balance : (usedRegisters code ++ pending).Perm (resultRegisters code)
  ahead : ∀ first instr rest, code = first ++ instr :: rest →
    ∀ register, instr.result? = some register →
      UsedAhead register rest ∨ register ∈ pending ∧ ∀ other ∈ rest,
        other.isControl = false

namespace Balanced

variable {before between after : Supply} {first second code : List Instr}
  {waiting pending : List Register} {instr : Instr}

theorem nil (supply : Supply) : Balanced supply [] [] supply := by
  refine ⟨Nat.le_refl _, ?_, ?_, ?_⟩
  · rw [Nat.sub_self]
    rfl
  · exact .refl _
  · intro first instr rest split
    simp at split

theorem results_append (firstBalanced : Balanced before first waiting between)
    (le : between.register ≤ after.register)
    (results : (resultRegisters second).map Register.index =
      List.range' between.register (after.register - between.register)) :
    (resultRegisters (first ++ second)).map Register.index =
      List.range' before.register (after.register - before.register) := by
  have firstLe := firstBalanced.le
  have lengthEq : after.register - before.register =
      (between.register - before.register) +
        (after.register - between.register) := by omega
  have startEq :
      between.register = before.register +
        (between.register - before.register) := by
    omega
  rw [resultRegisters_append, List.map_append, firstBalanced.results, results,
    lengthEq, ← List.range'_append_1, ← startEq]

/-- Where registers are waiting, only straight code can follow. -/
theorem append (firstBalanced : Balanced before first waiting between)
    (secondBalanced : Balanced between second pending after)
    (straight : waiting = [] ∨ ∀ instr ∈ second, instr.isControl = false) :
    Balanced before (first ++ second) (waiting ++ pending) after := by
  refine ⟨Nat.le_trans firstBalanced.le secondBalanced.le,
    firstBalanced.results_append secondBalanced.le secondBalanced.results,
    ?_, ?_⟩
  · rw [usedRegisters_append, resultRegisters_append]
    have swapped :
        (usedRegisters first ++ usedRegisters second ++
          (waiting ++ pending)).Perm
          ((usedRegisters first ++ waiting) ++
            (usedRegisters second ++ pending)) := by
      simp only [List.append_assoc]
      exact List.Perm.append_left _ (List.perm_append_comm_assoc ..)
    exact swapped.trans (firstBalanced.balance.append secondBalanced.balance)
  · intro earlier instr rest split register defines
    rcases split_append split with ⟨tail, firstEq, rfl⟩ | ⟨middle, secondEq⟩
    · rcases firstBalanced.ahead earlier instr tail firstEq register
        defines with
        ahead | ⟨isWaiting, tailStraight⟩
      · exact .inl (ahead.append_right second)
      · have secondStraight :=
          straight.resolve_left (List.ne_nil_of_mem isWaiting)
        exact .inr ⟨List.mem_append_left _ isWaiting,
          List.forall_mem_append.mpr ⟨tailStraight, secondStraight⟩⟩
    · rcases secondBalanced.ahead middle instr rest secondEq register
        defines with
        ahead | ⟨isPending, restStraight⟩
      · exact .inl ahead
      · exact .inr ⟨List.mem_append_right _ isPending, restStraight⟩

/-- An instruction uses all that is waiting, and what it defines waits after
it. -/
theorem snoc (balanced : Balanced before code waiting between)
    (uses : instr.used.Perm waiting) (le : between.register ≤ after.register)
    (results : (resultRegisters [instr]).map Register.index =
      List.range' between.register (after.register - between.register)) :
    Balanced before (code ++ [instr]) (resultRegisters [instr]) after := by
  refine ⟨Nat.le_trans balanced.le le, balanced.results_append le results,
    ?_, ?_⟩
  · rw [usedRegisters_append, usedRegisters_singleton, resultRegisters_append]
    exact ((uses.append_left _).trans balanced.balance).append_right _
  · intro earlier other rest split register defines
    rcases split_append split with ⟨tail, codeEq, rfl⟩ | ⟨middle, lastEq⟩
    · rcases balanced.ahead earlier other tail codeEq register defines with
        ahead | ⟨isWaiting, tailStraight⟩
      · exact .inl (ahead.append_right [instr])
      · exact .inl ⟨tail, instr, [], rfl, uses.mem_iff.mpr isWaiting,
          tailStraight⟩
    · obtain ⟨rfl, rfl, rfl⟩ : middle = [] ∧ other = instr ∧ rest = [] := by
        simpa [List.singleton_eq_append_iff] using lastEq
      exact .inr ⟨by simp [resultRegisters_singleton, defines], by simp⟩

/-- An instruction that leaves its result in the next register. -/
theorem into (balanced : Balanced before code waiting between)
    (defines : instr.result? = some ⟨between.register⟩)
    (uses : instr.used.Perm waiting) :
    Balanced before (code ++ [instr]) [⟨between.register⟩]
      between.nextRegister := by
  have one : between.nextRegister.register - between.register = 1 :=
    Nat.add_sub_cancel_left ..
  have resultsEq : resultRegisters [instr] = [⟨between.register⟩] := by
    rw [resultRegisters_singleton, defines, Option.toList_some]
  have balancedSnoc :
      Balanced before (code ++ [instr]) _ between.nextRegister :=
    balanced.snoc uses (Nat.le_succ _) (by rw [resultsEq, one]; rfl)
  rwa [resultsEq] at balancedSnoc

/-- An instruction that leaves nothing waiting. -/
theorem spend (balanced : Balanced before code waiting after)
    (plain : instr.result? = none) (uses : instr.used.Perm waiting) :
    Balanced before (code ++ [instr]) [] after := by
  have resultsEq : resultRegisters [instr] = [] := by
    rw [resultRegisters_singleton, plain, Option.toList_none]
  have balancedSnoc := balanced.snoc uses (Nat.le_refl _)
    (by rw [resultsEq, Nat.sub_self]; rfl)
  rwa [resultsEq] at balancedSnoc

/-- Pieces that leave nothing waiting. -/
theorem append_spent (firstBalanced : Balanced before first [] between)
    (secondBalanced : Balanced between second [] after) :
    Balanced before (first ++ second) [] after :=
  firstBalanced.append secondBalanced (.inl rfl)

/-- An instruction that leaves nothing waiting can be followed by anything. -/
theorem spend_append (firstBalanced : Balanced before first waiting between)
    (plain : instr.result? = none) (uses : instr.used.Perm waiting)
    (secondBalanced : Balanced between second [] after) :
    Balanced before (first ++ instr :: second) [] after := by
  have joined := (firstBalanced.spend plain uses).append_spent secondBalanced
  rwa [List.append_assoc] at joined

theorem cons_spent (plain : instr.result? = none) (uses : instr.used = [])
    (balanced : Balanced before code [] after) : Balanced before (instr :: code)
    [] after :=
  (nil before).spend_append plain (by rw [uses]) balanced

/-- A piece takes no notice of the labels that were used before. -/
theorem of_nextLabel (balanced : Balanced before.nextLabel code waiting after) :
    Balanced before code waiting after :=
  ⟨balanced.le, balanced.results, balanced.balance, balanced.ahead⟩

end Balanced

namespace Emission

variable {types : TypeTable}

mutual

/-- The value of an expression waits for its use, if it is in a register. -/
theorem expr_balanced :
    ∀ (e : Expr) {supply : Supply} {emitted : Emitted Operand},
    expr types e supply = .ok emitted →
      Balanced supply emitted.code emitted.value.registers emitted.supply
  | .int node value, supply, emitted => by
      intro emits
      rw [expr_int_eq_ok emits]
      exact .nil supply
  | .float node value, supply, emitted => by
      intro emits
      rw [expr_float_eq_ok emits]
      exact .nil supply
  | .valueOf node (.var placeNode name), supply, emitted => by
      intro emits
      rw [expr_var_eq_ok emits]
      exact .nil supply
  | .valueOf node (.element placeNode name index), supply, emitted => by
      intro emits
      obtain ⟨type, inner, _, innerEmits, rfl⟩ := expr_element_eq_ok emits
      exact (expr_balanced index innerEmits).into rfl (.refl _)
  | .binary node op left right, supply, emitted => by
      intro emits
      obtain ⟨type, first, second, _, firstEmits, secondEmits, rfl⟩ :=
        expr_binary_eq_ok emits
      have operands :=
        (expr_balanced left firstEmits).append (expr_balanced right secondEmits)
        (.inr (expr_straight right secondEmits).1.plain)
      rw [← List.append_assoc]
      exact operands.into rfl (.refl _)
  | .signed node .plus operand, supply, emitted => by
      intro emits
      exact expr_balanced operand (expr_plus_eq_ok emits)
  | .signed node .neg operand, supply, emitted => by
      intro emits
      obtain ⟨type, inner, _, innerEmits, rfl⟩ := expr_neg_eq_ok emits
      exact (expr_balanced operand innerEmits).into rfl (.refl _)
  | .call node callee args, supply, emitted => by
      intro emits
      obtain ⟨inner, innerEmits, rfl⟩ := expr_call_eq_ok emits
      exact (exprs_balanced args innerEmits).into rfl (.refl _)
  | .cast node target operand, supply, emitted => by
      intro emits
      obtain ⟨type, inner, _, innerEmits, rfl⟩ := expr_cast_eq_ok emits
      split
      · exact expr_balanced operand innerEmits
      · exact (expr_balanced operand innerEmits).into rfl (.refl _)

theorem exprs_balanced : ∀ (args : List Expr) {supply : Supply}
    {emitted : Emitted (List Operand)}, exprs types args supply = .ok emitted →
      Balanced supply emitted.code (emitted.value.flatMap Operand.registers)
        emitted.supply
  | [], supply, emitted => by
      intro emits
      rw [exprs, pure_eq_ok_iff] at emits
      subst emits
      exact .nil supply
  | first :: others, supply, emitted => by
      intro emits
      obtain ⟨head, tail, headEmits, tailEmits, rfl⟩ := exprs_cons_eq_ok emits
      exact (expr_balanced first headEmits).append
        (exprs_balanced others tailEmits)
        (.inr (exprs_straight others tailEmits).1.plain)

end

theorem target_balanced {held : Place} {supply : Supply}
    {emitted : Emitted (Target × BaseType)}
    (emits : target types held supply = .ok emitted) :
    Balanced supply emitted.code emitted.value.1.registers emitted.supply := by
  cases held with
  | var node name =>
      obtain ⟨type, _, rfl⟩ := target_var_eq_ok emits
      exact .nil supply
  | element node name index =>
      obtain ⟨type, inner, _, innerEmits, rfl⟩ := target_element_eq_ok emits
      exact expr_balanced index innerEmits

/-- The truth of a condition waits for its use. -/
theorem condition_balanced {test : Condition} {supply : Supply}
    {emitted : Emitted Register}
    (emits : condition types test supply = .ok emitted) :
    Balanced supply emitted.code [emitted.value] emitted.supply := by
  induction test generalizing supply emitted with
  | rel position op left right =>
      obtain ⟨type, first, second, _, firstEmits, secondEmits, rfl⟩ :=
        condition_rel_eq_ok emits
      have operands :=
        (expr_balanced left firstEmits).append (expr_balanced right secondEmits)
        (.inr (expr_straight right secondEmits).1.plain)
      rw [← List.append_assoc]
      exact operands.into rfl (.refl _)
  | logic position op left right leftIH rightIH =>
      obtain ⟨first, second, firstEmits, secondEmits, rfl⟩ :=
        condition_logic_eq_ok emits
      have operands := (leftIH firstEmits).append (rightIH secondEmits)
        (.inr (condition_straight secondEmits).1.plain)
      rw [← List.append_assoc]
      exact operands.into rfl (.refl _)
  | not position operand ih =>
      obtain ⟨inner, innerEmits, rfl⟩ := condition_not_eq_ok emits
      exact (ih innerEmits).into rfl (.refl _)

mutual

/-- A statement leaves nothing waiting. -/
theorem stmt_balanced : ∀ (s : Stmt) {exit? : Option Label} {supply : Supply}
    {emitted : Emitted Unit}, stmt types exit? s supply = .ok emitted →
      Balanced supply emitted.code [] emitted.supply
  | .assign position held value, exit?, supply, emitted => by
      intro emits
      obtain ⟨dest, source, destEmits, sourceEmits, rfl⟩ :=
        stmt_assign_eq_ok emits
      have operands :=
        (target_balanced destEmits).append (expr_balanced value sourceEmits)
        (.inr (expr_straight value sourceEmits).1.plain)
      rw [← List.append_assoc]
      exact operands.spend rfl (.refl _)
  | .ifThen position test thenBranch, exit?, supply, emitted => by
      intro emits
      obtain ⟨tested, inner, testedEmits, innerEmits, rfl⟩ :=
        stmt_ifThen_eq_ok emits
      have branchBalanced := stmt_balanced thenBranch innerEmits
      exact (condition_balanced testedEmits).of_nextLabel.spend_append rfl
        (.refl _)
        (.cons_spent rfl rfl
          (.cons_spent rfl rfl (branchBalanced.spend rfl (.refl _))))
  | .ifElse position test thenBranch elseBranch, exit?, supply, emitted => by
      intro emits
      obtain ⟨tested, first, second, testedEmits, firstEmits,
        secondEmits, rfl⟩ :=
        stmt_ifElse_eq_ok emits
      have thenBalanced := stmt_balanced thenBranch firstEmits
      have elseBalanced := stmt_balanced elseBranch secondEmits
      exact (condition_balanced testedEmits).of_nextLabel.spend_append rfl
        (.refl _)
        (.cons_spent rfl rfl
          (.cons_spent rfl rfl (thenBalanced.spend_append rfl (.refl _)
          (.cons_spent rfl rfl (elseBalanced.spend rfl (.refl _))))))
  | .whileDo position test body, exit?, supply, emitted => by
      intro emits
      obtain ⟨tested, inner, testedEmits, innerEmits, rfl⟩ :=
        stmt_whileDo_eq_ok emits
      have bodyBalanced := stmt_balanced body innerEmits
      exact .cons_spent rfl rfl
        ((condition_balanced testedEmits).of_nextLabel.spend_append rfl
        (.refl _)
          (.cons_spent rfl rfl
            (.cons_spent rfl rfl (bodyBalanced.spend_append rfl
          (.refl _) (.cons_spent rfl rfl (.nil inner.supply))))))
  | .block position statements, exit?, supply, emitted => by
      intro emits
      rw [stmt] at emits
      exact stmts_balanced statements emits
  | .breakLoop position, exit?, supply, emitted => by
      intro emits
      obtain ⟨exit, _, rfl⟩ := stmt_breakLoop_eq_ok emits
      exact .cons_spent rfl rfl (.nil supply)
  | .skip position, exit?, supply, emitted => by
      intro emits
      rw [stmt_skip_eq_ok emits]
      exact .nil supply
  | .returnValue position value, exit?, supply, emitted => by
      intro emits
      obtain ⟨source, sourceEmits, rfl⟩ := stmt_returnValue_eq_ok emits
      exact (expr_balanced value sourceEmits).spend rfl (.refl _)
  | .read position held, exit?, supply, emitted => by
      intro emits
      obtain ⟨dest, destEmits, rfl⟩ := stmt_read_eq_ok emits
      exact (target_balanced destEmits).spend rfl (.refl _)
  | .write position value, exit?, supply, emitted => by
      intro emits
      obtain ⟨source, sourceEmits, rfl⟩ := stmt_write_eq_ok emits
      exact (expr_balanced value sourceEmits).spend rfl (.refl _)
  | .print position text, exit?, supply, emitted => by
      intro emits
      rw [stmt_print_eq_ok emits]
      exact .cons_spent rfl rfl (.nil supply)
  | .call position callee args, exit?, supply, emitted => by
      intro emits
      obtain ⟨inner, innerEmits, rfl⟩ := stmt_call_eq_ok emits
      exact (exprs_balanced args innerEmits).spend rfl (.refl _)

theorem stmts_balanced :
    ∀ (statements : List Stmt) {exit? : Option Label} {supply : Supply}
    {emitted : Emitted Unit},
    stmts types exit? statements supply = .ok emitted →
      Balanced supply emitted.code [] emitted.supply
  | [], exit?, supply, emitted => by
      intro emits
      rw [stmts, pure_eq_ok_iff] at emits
      subst emits
      exact .nil supply
  | first :: others, exit?, supply, emitted => by
      intro emits
      obtain ⟨head, tail, headEmits, tailEmits, rfl⟩ := stmts_cons_eq_ok emits
      exact (stmt_balanced first headEmits).append_spent
        (stmts_balanced others tailEmits)

end

theorem locals_balanced {declared : List Declaration} {supply : Supply}
    {emitted : Emitted Unit}
    (emits : locals types declared supply = .ok emitted) :
    Balanced supply emitted.code [] emitted.supply := by
  induction declared generalizing supply emitted with
  | nil =>
      rw [locals, pure_eq_ok_iff] at emits
      subst emits
      exact .nil supply
  | cons first others ih =>
      cases sizeEq : first.type.size? with
      | none => exact ih (locals_scalar_eq_ok sizeEq emits)
      | some size =>
          obtain ⟨count, tail, countEmits, tailEmits, rfl⟩ :=
            locals_array_eq_ok sizeEq emits
          have counted :
              Balanced supply count.code count.value.registers
                count.supply := by
            cases size with
            | fixed number =>
                rw [arraySize, pure_eq_ok_iff] at countEmits
                subst countEmits
                exact .nil supply
            | dynamic number => exact expr_balanced number countEmits
          exact counted.spend_append rfl (.refl _) (ih tailEmits)

end Emission

/-- The registers of a whole program are numbered from zero. -/
theorem Balanced.results_eq {code : List Instr} {after : Supply}
    (balanced : Balanced .initial code [] after) :
    resultRegisters code = (List.range after.register).map Register.mk := by
  have indices := balanced.results
  rw [show Supply.initial.register = 0 from rfl, Nat.sub_zero,
    ← List.range_eq_range'] at indices
  rw [← indices, List.map_map]
  simp [Function.comp_def]

theorem Balanced.count_used {code : List Instr} {after : Supply}
    {register : Register} (balanced : Balanced .initial code [] after)
    (defined : register ∈ resultRegisters code) :
    (usedRegisters code).count register = 1 := by
  have distinct : (resultRegisters code).Nodup := by
    rw [balanced.results_eq]
    exact List.nodup_range.map fun _ _ same => congrArg Register.index same
  have balance := balanced.balance
  rw [List.append_nil] at balance
  rw [balance.count_eq, distinct.count, if_pos defined]

/-- Registers are defined in order and used once.  Over the whole code of a
program the registers that are defined are the first ones in order, each once.
The code is a row of blocks, one for each function in order; each register
defined in a block is used once in the whole code, by an instruction further
down in the same block, and up to that instruction the code is straight. -/
theorem lower_registers_linear {program : Program} {types : TypeTable}
    {code : List Instr} (lowered : lower program types = .ok code) :
    (∃ count, resultRegisters code = (List.range count).map Register.mk) ∧
      ∃ bodies : List (List Instr), bodies.length = program.definitions.length ∧
        code = (List.zipWith Function.block program.definitions
          bodies).flatten ∧
        ∀ body ∈ bodies, ∀ first instr rest register, body =
          first ++ instr :: rest → instr.result? = some register →
            (usedRegisters code).count register = 1 ∧
              UsedAhead register rest := by
  obtain ⟨emitted, emits, rfl⟩ := lower_eq_ok_iff.mp lowered
  obtain ⟨bodies, lengthEq, codeEq, all, each⟩ :=
    @Emission.functions_bodies types (Balanced · · [] ·) .nil .append_spent
      (fun roomEmits bodyEmits =>
        (Emission.locals_balanced roomEmits).append_spent
        (Emission.stmts_balanced _ bodyEmits)) _ _ _ emits
  have sameResults :
      resultRegisters emitted.code = resultRegisters bodies.flatten := by
    rw [codeEq]
    apply filterMap_blocks _ lengthEq
    intro instr isEdge
    cases instr <;> simp_all [Instr.isEdge, Instr.result?, Instr.definition?]
  have sameUses :
      usedRegisters emitted.code = usedRegisters bodies.flatten := by
    rw [codeEq]
    apply flatMap_blocks _ lengthEq
    intro instr isEdge
    cases instr <;> simp_all [Instr.isEdge, Instr.used]
  rw [sameResults, sameUses]
  refine ⟨⟨_, all.results_eq⟩, bodies, lengthEq, codeEq, ?_⟩
  rintro _ member first instr rest register rfl defines
  obtain ⟨_, _, balanced⟩ := each _ member
  have defined : register ∈ resultRegisters bodies.flatten :=
    List.mem_filterMap.mpr ⟨instr,
      List.mem_flatten.mpr ⟨_, member, by simp⟩, defines⟩
  refine ⟨all.count_used defined, ?_⟩
  exact (balanced.ahead first instr rest rfl register defines).resolve_right
    (by simp)

/-- Two functions, the second with an index that is computed before the value
it is for: `fun f(a: int) begin return a * a end  fun main() b: int[f(2)]
begin b[f(1)] := f(3) + 1 end`. -/
def computedIndex : Program :=
  let position : Position := ⟨1, 1⟩
  let node (id : NodeId) : Node := ⟨id, position⟩
  let factor (id : NodeId) : Expr :=
    .valueOf (node (id + 1)) (.var (node id) "a")
  let square (id : NodeId) (number : Int64) : Expr :=
    .call (node (id + 1)) "f" [.int (node id) number]
  .functions [
    ⟨"f", [⟨"a", ⟨.int, none⟩, position⟩], [],
      [.returnValue position (.binary (node 4) .mul (factor 0) (factor 2))],
      position⟩,
    ⟨"main", [], [⟨"b", ⟨.int, some (.dynamic (square 5 2))⟩, position⟩],
      [.assign position (.element (node 9) "b" (square 7 1))
        (.binary (node 13) .add (square 10 3) (.int (node 12) 1))], position⟩]

/-- The code of the two functions.  Register 2 waits while registers 3 and 4
are made. -/
def computedIndexCode : List Instr :=
  [.enter "f" ["a"], .binary .mul .int (.var "a") (.var "a") ⟨0⟩,
    .returnValue (.reg ⟨0⟩), .leave "f", .enter "main" [],
    .call "f" [.int 2] (some ⟨1⟩), .alloc .int "b" (.reg ⟨1⟩),
    .call "f" [.int 1] (some ⟨2⟩), .call "f" [.int 3] (some ⟨3⟩),
    .binary .add .int (.reg ⟨3⟩) (.int 1) ⟨4⟩,
    .move .int (.reg ⟨4⟩) (.element "b" (.reg ⟨2⟩)),
    .leave "main"]

theorem lower_registers_linear_computedIndex :
    lower computedIndex (.ofList [(4, ValueType.int), (9, ValueType.int),
      (13, ValueType.int)]) = .ok computedIndexCode ∧
      (∃ count, resultRegisters computedIndexCode =
        (List.range count).map Register.mk) ∧
      ∃ bodies : List (List Instr), bodies.length = 2 ∧
        computedIndexCode =
          (List.zipWith Function.block computedIndex.definitions
            bodies).flatten ∧
        ∀ body ∈ bodies, ∀ first instr rest register, body =
          first ++ instr :: rest → instr.result? = some register →
            (usedRegisters computedIndexCode).count register = 1 ∧
              UsedAhead register rest := by
  have lowered : lower computedIndex
      (.ofList [(4, ValueType.int), (9, ValueType.int), (13, ValueType.int)]) =
        .ok computedIndexCode := by decide +kernel
  exact ⟨lowered, lower_registers_linear lowered⟩

end PL0
