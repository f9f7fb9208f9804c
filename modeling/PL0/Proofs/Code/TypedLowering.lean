import PL0.Proofs.Code.Typing
import PL0.Proofs.Compile
import PL0.Proofs.Meaning.Preservation
import PL0.Proofs.Reading.DistinctNumbers

/-!
# Compiled code is well typed

Which of the two forms of an instruction is emitted is looked up by the number
of a node.  In a tree that was read no two nodes have the same number, so what
is found there is the type that the declarations give the node, and the
instruction has the type of its operands.

The size of an array is checked before all names of its function are declared.
What it uses is declared in the whole function as well, and with the same
types.
-/

namespace PL0

/-- The base types that an environment gives. -/
def Environment.typing (environment : Environment) : Typing :=
  fun occurrence => (occurrence.annotation environment).2.base

/-- What is declared in the first environment is declared in the second, which
declares each name once. -/
structure Environment.Within (inner environment : Environment) : Prop where
  functions : inner.functions ⊆ environment.functions
  vars : inner.vars ⊆ environment.vars
  distinct : (environment.vars.map Prod.fst).Nodup

theorem Environment.Within.agrees {inner environment : Environment}
    (within : inner.Within environment) : inner.Agrees environment :=
  Environment.agrees_of_subset within.distinct within.vars

namespace Emission

variable {types : TypeTable} {inner environment : Environment}

section Lookup

variable {base : BaseType} {type : ValueType}

theorem expr_base_eq (within : inner.Within environment) {e : Expr}
    (agrees : types.Agrees environment.typing e.occurrences)
    (typed : e.HasType inner base)
    (known : types[e.node.id]? = some type) : type.base = base := by
  rw [agrees.base_eq e.mem_occurrences known, Environment.typing,
    Occurrence.annotation]
  simp [typed.typeIn_eq within.agrees, ValueType.base]

theorem place_base_eq (within : inner.Within environment) {held : Place}
    (agrees : types.Agrees environment.typing held.occurrences)
    (typed : held.HasType inner base)
    (known : types[held.node.id]? = some type) :
    type.base = base := by
  rw [agrees.base_eq held.mem_occurrences known, Environment.typing,
    Occurrence.annotation]
  simp [typed.typeIn_eq within.agrees, ValueType.base]

end Lookup

mutual

/-- Code for an expression is well typed, and its result has the type of the
expression. -/
theorem expr_typed (within : inner.Within environment) :
    ∀ (e : Expr) {supply : Supply} {emitted : Emitted Operand} {base : BaseType},
      e.HasType inner base → types.Agrees environment.typing e.occurrences →
      expr types e supply = .ok emitted →
      TypedPiece environment supply emitted.code emitted.supply ∧
        emitted.value.HasType environment (registersOf emitted.code) base
  | .int node value, supply, emitted, base => by
      intro typed _ emits
      cases typed
      rw [expr_int_eq_ok emits]
      exact ⟨.nil rfl, .int⟩
  | .float node value, supply, emitted, base => by
      intro typed _ emits
      cases typed
      rw [expr_float_eq_ok emits]
      exact ⟨.nil rfl, .float⟩
  | .valueOf node (.var placeNode name), supply, emitted, base => by
      intro typed _ emits
      cases typed with
      | valueOf placeTyped =>
          cases placeTyped with
          | var declared =>
              rw [expr_var_eq_ok emits]
              exact ⟨.nil rfl, .var (within.vars declared)⟩
  | .valueOf node (.element placeNode name index), supply, emitted, base => by
      intro typed agrees emits
      obtain ⟨type, inside, known, insideEmits, rfl⟩ := expr_element_eq_ok emits
      obtain rfl := expr_base_eq within agrees typed known
      cases typed with
      | valueOf placeTyped =>
          cases placeTyped with
          | element declared indexTyped =>
              rw [Expr.occurrences, Place.occurrences] at agrees
              obtain ⟨piece, valueTyped⟩ :=
                expr_typed within index indexTyped agrees.left.left insideEmits
              exact ⟨piece.into rfl (.load (within.vars declared) valueTyped),
                .reg (mem_registersOf_snoc rfl _)⟩
  | .binary node op left right, supply, emitted, base => by
      intro typed agrees emits
      obtain ⟨type, first, second, known, firstEmits, secondEmits, rfl⟩ :=
        expr_binary_eq_ok emits
      obtain rfl := expr_base_eq within agrees typed known
      cases typed with
      | binary leftTyped rightTyped =>
          rw [Expr.occurrences] at agrees
          obtain ⟨firstPiece, firstTyped⟩ :=
            expr_typed within left leftTyped agrees.left.left firstEmits
          obtain ⟨secondPiece, secondTyped⟩ :=
            expr_typed within right rightTyped agrees.left.right secondEmits
          have leftKnown :=
            firstTyped.mono (registersOf_subset_left first.code second.code)
          have rightKnown :=
            secondTyped.mono (registersOf_subset_right first.code second.code)
          rw [← List.append_assoc]
          exact ⟨(firstPiece.append secondPiece).into rfl
            (.binary leftKnown rightKnown), .reg (mem_registersOf_snoc rfl _)⟩
  | .signed node .plus operand, supply, emitted, base => by
      intro typed agrees emits
      cases typed with
      | signed operandTyped =>
          rw [Expr.occurrences] at agrees
          exact expr_typed within operand operandTyped agrees.left
            (expr_plus_eq_ok emits)
  | .signed node .neg operand, supply, emitted, base => by
      intro typed agrees emits
      obtain ⟨type, inside, known, insideEmits, rfl⟩ := expr_neg_eq_ok emits
      obtain rfl := expr_base_eq within agrees typed known
      cases typed with
      | signed operandTyped =>
          rw [Expr.occurrences] at agrees
          obtain ⟨piece, valueTyped⟩ :=
            expr_typed within operand operandTyped agrees.left insideEmits
          exact ⟨piece.into rfl (.negate valueTyped),
            .reg (mem_registersOf_snoc rfl _)⟩
  | .call node callee args, supply, emitted, base => by
      intro typed agrees emits
      obtain ⟨inside, insideEmits, rfl⟩ := expr_call_eq_ok emits
      cases typed with
      | call calls argsTyped =>
          rw [Expr.occurrences] at agrees
          obtain ⟨piece, passed⟩ :=
            exprs_typed within args argsTyped agrees.left insideEmits
          exact ⟨piece.into rfl (.call (within.functions calls.1) passed),
            .reg (mem_registersOf_snoc rfl _)⟩
  | .cast node target operand, supply, emitted, base => by
      intro typed agrees emits
      obtain ⟨type, inside, known, insideEmits, rfl⟩ := expr_cast_eq_ok emits
      cases typed with
      | cast operandTyped =>
          rw [Expr.occurrences] at agrees
          obtain ⟨piece, valueTyped⟩ :=
            expr_typed within operand operandTyped agrees.left insideEmits
          obtain rfl := expr_base_eq within agrees.left operandTyped known
          by_cases same : type.base = target
          · rw [if_pos same, ← same]
            exact ⟨piece, valueTyped⟩
          · rw [if_neg same]
            exact ⟨piece.into rfl (.convert valueTyped same),
              .reg (mem_registersOf_snoc rfl _)⟩

theorem exprs_typed (within : inner.Within environment) :
    ∀ (args : List Expr) {supply : Supply} {emitted : Emitted (List Operand)}
      {params : List ValueType},
      List.Forall₂ (Expr.PassesAs inner) args params →
      types.Agrees environment.typing (Expr.allOccurrences args) →
      exprs types args supply = .ok emitted →
      TypedPiece environment supply emitted.code emitted.supply ∧
        List.Forall₂ (Operand.PassesAs environment (registersOf emitted.code))
          emitted.value params
  | [], supply, emitted, params => by
      intro passed _ emits
      cases passed
      rw [exprs, pure_eq_ok_iff] at emits
      subst emits
      exact ⟨.nil rfl, .nil⟩
  | first :: others, supply, emitted, params => by
      intro passed agrees emits
      obtain ⟨head, tail, headEmits, tailEmits, rfl⟩ := exprs_cons_eq_ok emits
      rw [Expr.allOccurrences] at agrees
      cases passed with
      | @cons _ param _ _ firstPassed othersPassed =>
          have headTyped : TypedPiece environment supply head.code head.supply ∧
              head.value.PassesAs environment (registersOf head.code)
                param := by
            cases firstPassed with
            | scalar argTyped =>
                obtain ⟨piece, valueTyped⟩ :=
                  expr_typed within first argTyped agrees.left headEmits
                exact ⟨piece, .scalar valueTyped⟩
            | array declared =>
                rw [expr_var_eq_ok headEmits]
                exact ⟨.nil rfl, .array (within.vars declared)⟩
          obtain ⟨headPiece, headPassed⟩ := headTyped
          obtain ⟨tailPiece, tailPassed⟩ :=
            exprs_typed within others othersPassed agrees.right tailEmits
          exact ⟨headPiece.append tailPiece,
            .cons (headPassed.mono (registersOf_subset_left _ _))
              (tailPassed.imp fun _ _ passes =>
                passes.mono (registersOf_subset_right _ _))⟩

end

theorem target_typed (within : inner.Within environment) {held : Place}
    {base : BaseType} (typed : held.HasType inner base)
    (agrees : types.Agrees environment.typing held.occurrences)
    {supply : Supply}
    {emitted : Emitted (Target × BaseType)}
    (emits : target types held supply = .ok emitted) :
    TypedPiece environment supply emitted.code emitted.supply ∧
      emitted.value.1.HasType environment (registersOf emitted.code) base ∧
      emitted.value.2 = base := by
  cases typed with
  | @var node name base declared =>
      obtain ⟨type, known, rfl⟩ := target_var_eq_ok emits
      exact ⟨.nil rfl, .var (within.vars declared),
        place_base_eq within agrees (.var declared) known⟩
  | @element node name index base declared indexTyped =>
      obtain ⟨type, inside, known, insideEmits, rfl⟩ :=
        target_element_eq_ok emits
      have baseEq :=
        place_base_eq within agrees (.element declared indexTyped) known
      rw [Place.occurrences] at agrees
      obtain ⟨piece, valueTyped⟩ :=
        expr_typed within index indexTyped agrees.left insideEmits
      exact ⟨piece, .element (within.vars declared) valueTyped, baseEq⟩

theorem condition_typed (within : inner.Within environment) {test : Condition}
    (typed : test.WellTyped inner)
    (agrees : types.Agrees environment.typing test.occurrences)
    {supply : Supply}
    {emitted : Emitted Register}
    (emits : condition types test supply = .ok emitted) :
    TypedPiece environment supply emitted.code emitted.supply ∧
      (emitted.value, .truth) ∈ registersOf emitted.code := by
  induction typed generalizing supply emitted with
  | @rel position op left right base leftTyped rightTyped =>
      obtain ⟨type, first, second, known, firstEmits, secondEmits, rfl⟩ :=
        condition_rel_eq_ok emits
      rw [Condition.occurrences] at agrees
      obtain rfl := expr_base_eq within agrees.left leftTyped known
      obtain ⟨firstPiece, firstTyped⟩ :=
        expr_typed within left leftTyped agrees.left firstEmits
      obtain ⟨secondPiece, secondTyped⟩ :=
        expr_typed within right rightTyped agrees.right secondEmits
      have leftKnown :=
        firstTyped.mono (registersOf_subset_left first.code second.code)
      have rightKnown :=
        secondTyped.mono (registersOf_subset_right first.code second.code)
      rw [← List.append_assoc]
      exact ⟨(firstPiece.append secondPiece).into rfl
        (.compare leftKnown rightKnown), mem_registersOf_snoc rfl _⟩
  | logic leftTyped rightTyped leftIH rightIH =>
      obtain ⟨first, second, firstEmits, secondEmits, rfl⟩ :=
        condition_logic_eq_ok emits
      rw [Condition.occurrences] at agrees
      obtain ⟨firstPiece, firstTruth⟩ := leftIH agrees.left firstEmits
      obtain ⟨secondPiece, secondTruth⟩ := rightIH agrees.right secondEmits
      have leftKnown :=
        registersOf_subset_left first.code second.code firstTruth
      have rightKnown :=
        registersOf_subset_right first.code second.code secondTruth
      rw [← List.append_assoc]
      exact ⟨(firstPiece.append secondPiece).into rfl
        (.logic leftKnown rightKnown), mem_registersOf_snoc rfl _⟩
  | not operandTyped ih =>
      obtain ⟨inside, insideEmits, rfl⟩ := condition_not_eq_ok emits
      rw [Condition.occurrences] at agrees
      obtain ⟨piece, truth⟩ := ih agrees insideEmits
      exact ⟨piece.into rfl (.not truth), mem_registersOf_snoc rfl _⟩

mutual

theorem stmt_typed (within : inner.Within environment) :
    ∀ (s : Stmt) {inLoop : Bool} {exit? : Option Label} {supply : Supply}
      {emitted : Emitted Unit}, s.WellTyped inner inLoop →
      types.Agrees environment.typing s.occurrences →
        stmt types exit? s supply = .ok emitted →
      TypedPiece environment supply emitted.code emitted.supply
  | .assign position held value, inLoop, exit?, supply, emitted => by
      intro typed agrees emits
      obtain ⟨dest, source, destEmits, sourceEmits, rfl⟩ :=
        stmt_assign_eq_ok emits
      rw [Stmt.occurrences] at agrees
      cases typed with
      | assign targetTyped valueTyped =>
          obtain ⟨destPiece, destTyped, rfl⟩ :=
            target_typed within targetTyped agrees.left destEmits
          obtain ⟨sourcePiece, sourceTyped⟩ :=
            expr_typed within value valueTyped agrees.right sourceEmits
          have destKnown :=
            destTyped.mono (registersOf_subset_left dest.code source.code)
          have sourceKnown :=
            sourceTyped.mono (registersOf_subset_right dest.code source.code)
          rw [← List.append_assoc]
          exact (destPiece.append sourcePiece).snoc rfl
            (.move sourceKnown destKnown)
  | .ifThen position test thenBranch, inLoop, exit?, supply, emitted => by
      intro typed agrees emits
      obtain ⟨tested, inside, testedEmits, insideEmits, rfl⟩ :=
        stmt_ifThen_eq_ok emits
      rw [Stmt.occurrences] at agrees
      cases typed with
      | ifThen testTyped thenTyped =>
          obtain ⟨testedPiece, truth⟩ :=
            condition_typed within testTyped agrees.left testedEmits
          have insidePiece :=
            stmt_typed within thenBranch thenTyped agrees.right insideEmits
          exact testedPiece.of_nextLabel.append_cons rfl (.jumpIf truth)
            (.cons rfl .jump (.cons rfl .label (insidePiece.snoc rfl .label)))
  | .ifElse position test thenBranch elseBranch, inLoop, exit?, supply,
      emitted => by
      intro typed agrees emits
      obtain ⟨tested, first, second, testedEmits, firstEmits,
        secondEmits, rfl⟩ :=
        stmt_ifElse_eq_ok emits
      rw [Stmt.occurrences] at agrees
      cases typed with
      | ifElse testTyped thenTyped elseTyped =>
          obtain ⟨testedPiece, truth⟩ :=
            condition_typed within testTyped agrees.left.left testedEmits
          have firstPiece :=
            stmt_typed within thenBranch thenTyped agrees.left.right firstEmits
          have secondPiece :=
            stmt_typed within elseBranch elseTyped agrees.right secondEmits
          exact testedPiece.of_nextLabel.append_cons rfl (.jumpIf truth)
            (.cons rfl .jump (.cons rfl .label (firstPiece.append_cons rfl .jump
              (.cons rfl .label (secondPiece.snoc rfl .label)))))
  | .whileDo position test body, inLoop, exit?, supply, emitted => by
      intro typed agrees emits
      obtain ⟨tested, inside, testedEmits, insideEmits, rfl⟩ :=
        stmt_whileDo_eq_ok emits
      rw [Stmt.occurrences] at agrees
      cases typed with
      | whileDo testTyped bodyTyped =>
          obtain ⟨testedPiece, truth⟩ :=
            condition_typed within testTyped agrees.left testedEmits
          have insidePiece :=
            stmt_typed within body bodyTyped agrees.right insideEmits
          exact .cons rfl .label
            (testedPiece.of_nextLabel.append_cons rfl (.jumpIf truth)
            (.cons rfl .jump
              (.cons rfl .label (insidePiece.append_cons rfl .jump
              (.cons rfl .label (.nil rfl))))))
  | .block position statements, inLoop, exit?, supply, emitted => by
      intro typed agrees emits
      rw [stmt] at emits
      rw [Stmt.occurrences] at agrees
      cases typed with
      | block allTyped =>
          exact stmts_typed within statements allTyped agrees emits
  | .breakLoop position, inLoop, exit?, supply, emitted => by
      intro _ _ emits
      obtain ⟨exit, _, rfl⟩ := stmt_breakLoop_eq_ok emits
      exact .cons rfl .jump (.nil rfl)
  | .skip position, inLoop, exit?, supply, emitted => by
      intro _ _ emits
      rw [stmt_skip_eq_ok emits]
      exact .nil rfl
  | .returnValue position value, inLoop, exit?, supply, emitted => by
      intro typed agrees emits
      obtain ⟨source, sourceEmits, rfl⟩ := stmt_returnValue_eq_ok emits
      rw [Stmt.occurrences] at agrees
      cases typed with
      | returnValue valueTyped =>
          obtain ⟨piece, sourceTyped⟩ :=
            expr_typed within value valueTyped agrees sourceEmits
          exact piece.snoc rfl (.returnValue sourceTyped)
  | .read position held, inLoop, exit?, supply, emitted => by
      intro typed agrees emits
      obtain ⟨dest, destEmits, rfl⟩ := stmt_read_eq_ok emits
      rw [Stmt.occurrences] at agrees
      cases typed with
      | read targetTyped =>
          obtain ⟨piece, destTyped, _⟩ :=
            target_typed within targetTyped agrees destEmits
          exact piece.snoc rfl (.read destTyped)
  | .write position value, inLoop, exit?, supply, emitted => by
      intro typed agrees emits
      obtain ⟨source, sourceEmits, rfl⟩ := stmt_write_eq_ok emits
      rw [Stmt.occurrences] at agrees
      cases typed with
      | write valueTyped =>
          obtain ⟨piece, sourceTyped⟩ :=
            expr_typed within value valueTyped agrees sourceEmits
          exact piece.snoc rfl (.write sourceTyped)
  | .print position text, inLoop, exit?, supply, emitted => by
      intro _ _ emits
      rw [stmt_print_eq_ok emits]
      exact .cons rfl .print (.nil rfl)
  | .call position callee args, inLoop, exit?, supply, emitted => by
      intro typed agrees emits
      obtain ⟨inside, insideEmits, rfl⟩ := stmt_call_eq_ok emits
      rw [Stmt.occurrences] at agrees
      cases typed with
      | call calls argsTyped =>
          obtain ⟨piece, passed⟩ :=
            exprs_typed within args argsTyped agrees insideEmits
          exact piece.snoc rfl (.call (within.functions calls.1) passed)

theorem stmts_typed (within : inner.Within environment) :
    ∀ (statements : List Stmt) {inLoop : Bool} {exit? : Option Label}
      {supply : Supply} {emitted : Emitted Unit},
      (∀ s ∈ statements, s.WellTyped inner inLoop) →
      types.Agrees environment.typing (Stmt.allOccurrences statements) →
      stmts types exit? statements supply = .ok emitted →
      TypedPiece environment supply emitted.code emitted.supply
  | [], inLoop, exit?, supply, emitted => by
      intro _ _ emits
      rw [stmts, pure_eq_ok_iff] at emits
      subst emits
      exact .nil rfl
  | first :: others, inLoop, exit?, supply, emitted => by
      intro typed agrees emits
      obtain ⟨head, tail, headEmits, tailEmits, rfl⟩ := stmts_cons_eq_ok emits
      rw [Stmt.allOccurrences] at agrees
      rw [List.forall_mem_cons] at typed
      exact (stmt_typed within first typed.1 agrees.left headEmits).append
        (stmts_typed within others typed.2 agrees.right tailEmits)

end

section Functions

variable {functions : List (String × List ValueType)} {definition : Function}

theorem within_environment (wellTyped : definition.WellTyped functions)
    {before after : List Declaration}
    (split : definition.declarations = before ++ after) :
    Environment.Within ⟨functions, before.map Declaration.asVariable⟩
      (definition.environment functions) where
  functions := List.Subset.refl _
  vars := by
    rw [Function.environment, split, List.map_append]
    exact List.subset_append_left _ _
  distinct := by
    rw [definition.map_fst_environment_vars]
    exact wellTyped.distinct

theorem arraySize_typed (wellTyped : definition.WellTyped functions)
    {first : Declaration} {before after : List Declaration} {size : ArraySize}
    (split : definition.declarations = before ++ first :: after)
    (sizeEq : first.type.size? = some size)
    (agrees : types.Agrees (definition.environment functions).typing
      first.occurrences)
    {supply : Supply} {emitted : Emitted Operand}
    (emits : arraySize types size supply = .ok emitted) :
    TypedPiece (definition.environment functions) supply emitted.code
      emitted.supply ∧
      emitted.value.HasType (definition.environment functions)
        (registersOf emitted.code) .int := by
  cases size with
  | fixed count =>
      rw [arraySize, pure_eq_ok_iff] at emits
      subst emits
      exact ⟨.nil rfl, .int⟩
  | dynamic count =>
      rw [Declaration.occurrences, sizeEq] at agrees
      exact expr_typed (within_environment wellTyped split) count
        (wellTyped.sizes before first after count split sizeEq) agrees emits

theorem locals_typed (wellTyped : definition.WellTyped functions)
    {declared : List Declaration} {before : List Declaration}
    (split : definition.declarations = before ++ declared)
    (agrees : types.Agrees (definition.environment functions).typing
      (declared.flatMap Declaration.occurrences))
    {supply : Supply} {emitted : Emitted Unit}
    (emits : locals types declared supply = .ok emitted) :
    TypedPiece (definition.environment functions) supply emitted.code
      emitted.supply := by
  induction declared generalizing before supply emitted with
  | nil =>
      rw [locals, pure_eq_ok_iff] at emits
      subst emits
      exact .nil rfl
  | cons first others ih =>
      have othersSplit :
          definition.declarations = (before ++ [first]) ++ others := by
        rw [split, List.append_assoc]
        rfl
      rw [List.flatMap_cons] at agrees
      cases sizeEq : first.type.size? with
      | none =>
          exact ih othersSplit agrees.right (locals_scalar_eq_ok sizeEq emits)
      | some size =>
          obtain ⟨count, tail, countEmits, tailEmits, rfl⟩ :=
            locals_array_eq_ok sizeEq emits
          obtain ⟨countPiece, countTyped⟩ :=
            arraySize_typed wellTyped split sizeEq agrees.left countEmits
          have declared : (first.name, .array first.type.base) ∈
              (definition.environment functions).vars := by
            refine List.mem_map.mpr ⟨first, by simp [split], ?_⟩
            simp [Declaration.asVariable, DeclaredType.valueType, sizeEq]
          exact countPiece.append_cons rfl (.alloc declared countTyped)
            (ih othersSplit agrees.right tailEmits)

/-- The code of a function is well typed. -/
theorem function_typed (wellTyped : definition.WellTyped functions)
    (agrees : types.Agrees (definition.environment functions).typing
      definition.occurrences)
    {supply : Supply} {emitted : Emitted Unit}
    (emits : function types definition supply = .ok emitted) :
    ∃ body, emitted.code = definition.block body ∧
      definition.TypedCode functions body := by
  obtain ⟨room, body, roomEmits, bodyEmits, rfl⟩ := function_eq_ok emits
  rw [Function.occurrences, Function.declarations,
    List.flatMap_append] at agrees
  have roomPiece := locals_typed wellTyped rfl agrees.left.right roomEmits
  have within := within_environment wellTyped (List.append_nil _).symm
  have bodyPiece :=
    stmts_typed within definition.body wellTyped.body agrees.right bodyEmits
  have inside := roomPiece.append bodyPiece
  exact ⟨room.code ++ body.code, by simp [Function.block],
    wellTyped.distinct, inside.registers_nodup, inside.instructions⟩

theorem functions_typed {definitions : List Function}
    (wellTyped : ∀ definition ∈ definitions, definition.WellTyped functions)
    (agrees : ∀ definition ∈ definitions,
      types.Agrees (definition.environment functions).typing
        definition.occurrences)
    {supply : Supply} {emitted : Emitted Unit}
    (emits : Emission.functions types definitions supply = .ok emitted) :
    ∃ bodies, emitted.code =
      (List.zipWith Function.block definitions bodies).flatten ∧
      List.Forall₂ (Function.TypedCode functions) definitions bodies := by
  induction definitions generalizing supply emitted with
  | nil =>
      rw [Emission.functions, pure_eq_ok_iff] at emits
      subst emits
      exact ⟨[], rfl, .nil⟩
  | cons first others ih =>
      obtain ⟨head, tail, headEmits, tailEmits, rfl⟩ :=
        functions_cons_eq_ok emits
      rw [List.forall_mem_cons] at wellTyped agrees
      obtain ⟨body, headEq, bodyTyped⟩ :=
        function_typed wellTyped.1 agrees.1 headEmits
      obtain ⟨bodies, tailEq, othersTyped⟩ := ih wellTyped.2 agrees.2 tailEmits
      refine ⟨body :: bodies, ?_, .cons bodyTyped othersTyped⟩
      rw [List.zipWith_cons_cons, List.flatten_cons, headEq, tailEq]

end Functions

end Emission

theorem ids_nodup_of_treeOf {source : String} {tree : Program}
    (isTree : treeOf source = .ok tree) : tree.ids.Nodup := by
  obtain ⟨tokens, _, _, rfl⟩ := treeOf_eq_ok_iff.mp isTree
  exact readProgram_ids_nodup tokens

/-- The code of a tree that is accepted and whose nodes have different numbers
is a row of well-typed blocks. -/
theorem lower_typed {tree : Program} {code : List Instr}
    (accepted : (analyse tree).errors = []) (distinct : tree.ids.Nodup)
    (lowered : lower tree (analyse tree).types = .ok code) :
    ∃ bodies, code =
      (List.zipWith Function.block tree.definitions bodies).flatten ∧
      List.Forall₂ (Function.TypedCode tree.signatures) tree.definitions
        bodies := by
  have wellTyped := (Checked.program_errors_eq_nil_iff tree).mp accepted
  obtain ⟨emitted, emits, rfl⟩ := lower_eq_ok_iff.mp lowered
  exact Emission.functions_typed wellTyped.functions
    (fun definition => agrees_of_nodup accepted distinct) emits

/-- Compiled code is well typed.  It is a row of blocks, one for each function
of the tree in order; the functions have distinct names, and the code inside
each of them keeps to the rules with the types that the function declares. -/
theorem compile_typed {source : String} {code : List Instr}
    (compiled : compile source = .ok code) :
    ∃ tree bodies, treeOf source = .ok tree ∧
      (tree.definitions.map Function.name).Nodup ∧
      code = (List.zipWith Function.block tree.definitions bodies).flatten ∧
      List.Forall₂ (Function.TypedCode tree.signatures) tree.definitions
        bodies := by
  obtain ⟨tree, isTree, accepted, lowered⟩ := compile_eq_ok_iff.mp compiled
  have wellTyped := (Checked.program_errors_eq_nil_iff tree).mp accepted
  obtain ⟨bodies, codeEq, typed⟩ :=
    lower_typed accepted (ids_nodup_of_treeOf isTree) lowered
  exact ⟨tree, bodies, isTree, wellTyped.distinct, codeEq, typed⟩

/-- The size of the array calls a function that a later name hides. -/
def hiddenCallee : String :=
  "fun f(x: float) begin return int(x) end " ++
  "fun main() a: int[f(2.5)]; f: float; " ++
  "begin f := float(a[0]); if not f < 1.0 then write(f) end"

/-- The code of that program. -/
def hiddenCalleeCode : List Instr :=
  [.enter "f" ["x"],
    .convert .int (.var "x") ⟨0⟩,
    .returnValue (.reg ⟨0⟩),
    .leave "f",
    .enter "main" [],
    .call "f" [.float (.ofDecimal 25 (-1))] (some ⟨1⟩),
    .alloc .int "a" (.reg ⟨1⟩),
    .load .int "a" (.int 0) ⟨2⟩,
    .convert .float (.reg ⟨2⟩) ⟨3⟩,
    .move .float (.reg ⟨3⟩) (.var "f"),
    .compare .lt .float (.var "f") (.float (.ofDecimal 1 0)) ⟨4⟩,
    .not ⟨4⟩ ⟨5⟩,
    .jumpIf ⟨5⟩ (.branch 0 .thenPart),
    .jump (.branch 0 .endPart),
    .label (.branch 0 .thenPart),
    .write (.var "f"),
    .label (.branch 0 .endPart),
    .leave "main"]

theorem compile_typed_hiddenCallee :
    compile hiddenCallee = .ok hiddenCalleeCode ∧
      ∃ tree bodies, treeOf hiddenCallee = .ok tree ∧
        (tree.definitions.map Function.name).Nodup ∧
        hiddenCalleeCode =
          (List.zipWith Function.block tree.definitions bodies).flatten ∧
        List.Forall₂ (Function.TypedCode tree.signatures) tree.definitions
          bodies := by
  have compiled : compile hiddenCallee = .ok hiddenCalleeCode := by
    decide +kernel
  exact ⟨compiled, compile_typed compiled⟩

end PL0
