import PL0.Code.Lowering
import PL0.Proofs.Tree.Occurrences

/-!
# When code can be made

Making code looks up the types of some nodes and needs a loop around each
`break`.  It fails for no other reason, whatever the supply of registers and
labels.
-/

namespace PL0

/-- The numbers of the nodes whose types are looked up in an expression. -/
def Expr.required : Expr → List NodeId
  | .int .. => []
  | .float .. => []
  | .valueOf _ (.var ..) => []
  | .valueOf node (.element _ _ index) => node.id :: index.required
  | .binary node _ left right => node.id :: (left.required ++ right.required)
  | .signed node _ operand => node.id :: operand.required
  | .call _ _ args => args.flatMap Expr.required
  | .cast _ _ operand => operand.node.id :: operand.required

/-- The numbers of the nodes whose types are looked up in a place that is to
be changed. -/
def Place.required : Place → List NodeId
  | .var node _ => [node.id]
  | .element node _ index => node.id :: index.required

/-- The numbers of the nodes whose types are looked up in a condition. -/
def Condition.required : Condition → List NodeId
  | .rel _ _ left right => left.node.id :: (left.required ++ right.required)
  | .logic _ _ left right => left.required ++ right.required
  | .not _ operand => operand.required

/-- The numbers of the nodes whose types are looked up in a statement. -/
def Stmt.required : Stmt → List NodeId
  | .assign _ target value => target.required ++ value.required
  | .ifThen _ test thenBranch => test.required ++ thenBranch.required
  | .ifElse _ test thenBranch elseBranch =>
    test.required ++ (thenBranch.required ++ elseBranch.required)
  | .whileDo _ test body => test.required ++ body.required
  | .block _ statements => statements.flatMap Stmt.required
  | .breakLoop _ => []
  | .skip _ => []
  | .returnValue _ value => value.required
  | .read _ target => target.required
  | .write _ value => value.required
  | .print .. => []
  | .call _ _ args => args.flatMap Expr.required

/-- The numbers of the nodes whose types are looked up in the size of a
declaration. -/
def Declaration.required (declaration : Declaration) : List NodeId :=
  match declaration.type.size? with
  | some (.dynamic count) => count.required
  | _ => []

/-- The numbers of the nodes whose types are looked up in a function.  The
sizes of parameters are none of its business. -/
def Function.required (function : Function) : List NodeId :=
  function.locals.flatMap Declaration.required ++
    function.body.flatMap Stmt.required

/-- The numbers of the nodes whose types are looked up in a program. -/
def Program.required (program : Program) : List NodeId :=
  program.definitions.flatMap Function.required

/-- Every `break` in a statement has a loop around it, inside the statement or
outside. -/
def Stmt.BreaksLoops (inLoop : Bool) : Stmt → Prop
  | .ifThen _ _ thenBranch => thenBranch.BreaksLoops inLoop
  | .ifElse _ _ thenBranch elseBranch =>
    thenBranch.BreaksLoops inLoop ∧ elseBranch.BreaksLoops inLoop
  | .whileDo _ _ body => body.BreaksLoops true
  | .block _ statements =>
      ∀ statement ∈ statements, statement.BreaksLoops inLoop
  | .breakLoop _ => inLoop = true
  | _ => True

/-- The types of the given nodes are known. -/
def TypeTable.Knows (types : TypeTable) (ids : List NodeId) : Prop :=
  ∀ id ∈ ids, types[id]?.isSome

namespace TypeTable

variable {types : TypeTable}

@[simp]
theorem knows_nil : types.Knows [] := by simp [Knows]

@[simp]
theorem knows_cons (id : NodeId) (ids : List NodeId) :
    types.Knows (id :: ids) ↔ types[id]?.isSome ∧ types.Knows ids := by
  simp [Knows]

@[simp]
theorem knows_append (first second : List NodeId) :
    types.Knows (first ++ second) ↔ types.Knows first ∧ types.Knows second := by
  simp [Knows, or_imp, forall_and]

end TypeTable

namespace Emission

variable {α β : Type}

/-- A step emits code exactly under a condition, whatever the supply. -/
def SucceedsIff (emission : Emission α) (condition : Prop) : Prop :=
  ∀ supply, (∃ emitted, emission supply = .ok emitted) ↔ condition

theorem bind_eq_ok_iff (first : Emission α) (next : α → Emission β)
    (supply : Supply) (emitted : Emitted β) :
    (first >>= next) supply = .ok emitted ↔
      ∃ before after, first supply = .ok before ∧
        next before.value before.supply = .ok after ∧
        emitted = ⟨after.value, before.code ++ after.code, after.supply⟩ := by
  simp only [bind]
  cases firstRan : first supply with
  | error error => simp
  | ok before =>
      cases nextRan : next before.value before.supply with
      | error error => simp [nextRan]
      | ok after => simp [nextRan, eq_comm]

theorem SucceedsIff.bind {first : Emission α} {next : α → Emission β}
    {condition further : Prop} (firstIff : first.SucceedsIff condition)
    (nextIff : ∀ value, (next value).SucceedsIff further) :
    (first >>= next).SucceedsIff (condition ∧ further) := by
  intro supply
  simp only [bind_eq_ok_iff]
  constructor
  · rintro ⟨emitted, before, after, firstRan, nextRan, _⟩
    exact ⟨(firstIff supply).mp ⟨before, firstRan⟩,
      (nextIff before.value before.supply).mp ⟨after, nextRan⟩⟩
  · rintro ⟨holds, further⟩
    obtain ⟨before, firstRan⟩ := (firstIff supply).mpr holds
    obtain ⟨after, nextRan⟩ := (nextIff before.value before.supply).mpr further
    exact ⟨_, before, after, firstRan, nextRan, rfl⟩

/-- A step that always succeeds adds nothing to what comes after it. -/
theorem SucceedsIff.always_bind {first : Emission α} {next : α → Emission β}
    {further : Prop} (always : first.SucceedsIff True)
    (nextIff : ∀ value, (next value).SucceedsIff further) :
    (first >>= next).SucceedsIff further := by
  simpa using always.bind nextIff

/-- A step that always succeeds adds nothing to what comes before it. -/
theorem SucceedsIff.bind_always {first : Emission α} {next : α → Emission β}
    {condition : Prop} (firstIff : first.SucceedsIff condition)
    (always : ∀ value, (next value).SucceedsIff True) :
    (first >>= next).SucceedsIff condition := by
  simpa using firstIff.bind always

theorem pure_succeeds (value : α) :
    (pure value : Emission α).SucceedsIff True :=
  fun _ => iff_of_true ⟨_, rfl⟩ trivial

theorem emit_succeeds (instr : Instr) : (emit instr).SucceedsIff True :=
  fun _ => iff_of_true ⟨_, rfl⟩ trivial

theorem freshLabel_succeeds : freshLabel.SucceedsIff True :=
  fun _ => iff_of_true ⟨_, rfl⟩ trivial

theorem emitInto_succeeds (instr : Register → Instr) :
    (emitInto instr).SucceedsIff True :=
  fun _ => iff_of_true ⟨_, rfl⟩ trivial

theorem result_succeeds (instr : Register → Instr) :
    (result instr).SucceedsIff True :=
  fun _ => iff_of_true ⟨_, rfl⟩ trivial

variable (types : TypeTable)

theorem typeOf_succeeds_iff (node : Node) :
    (typeOf types node).SucceedsIff (types[node.id]?.isSome) := by
  intro supply
  unfold typeOf
  cases types[node.id]? with
  | none => simp [fail]
  | some type => simp [pure]

mutual

theorem expr_succeeds_iff :
    ∀ e : Expr, (expr types e).SucceedsIff (types.Knows e.required)
  | .int node value => by
      simpa [expr, Expr.required] using pure_succeeds _
  | .float node value => by
      simpa [expr, Expr.required] using pure_succeeds _
  | .valueOf node (.var placeNode name) => by
      simpa [expr, Expr.required] using pure_succeeds _
  | .valueOf node (.element placeNode name index) => by
      simp only [expr, Expr.required, TypeTable.knows_cons]
      apply (typeOf_succeeds_iff types node).bind
      intro type
      exact (expr_succeeds_iff index).bind_always fun _ => result_succeeds _
  | .binary node op left right => by
      simp only [expr, Expr.required, TypeTable.knows_cons,
        TypeTable.knows_append]
      apply (typeOf_succeeds_iff types node).bind
      intro type
      apply (expr_succeeds_iff left).bind
      intro leftOperand
      exact (expr_succeeds_iff right).bind_always fun _ => result_succeeds _
  | .signed node op operand => by
      simp only [expr, Expr.required, TypeTable.knows_cons]
      apply (typeOf_succeeds_iff types node).bind
      intro type
      apply (expr_succeeds_iff operand).bind_always
      intro source
      cases op with
      | neg => exact result_succeeds _
      | plus => exact pure_succeeds _
  | .call node callee args => by
      simp only [expr, Expr.required]
      exact (exprs_succeeds_iff args).bind_always fun _ => result_succeeds _
  | .cast node target operand => by
      simp only [expr, Expr.required, TypeTable.knows_cons]
      apply (typeOf_succeeds_iff types operand.node).bind
      intro type
      apply (expr_succeeds_iff operand).bind_always
      intro source
      split
      · exact pure_succeeds _
      · exact result_succeeds _

theorem exprs_succeeds_iff : ∀ args : List Expr,
    (exprs types args).SucceedsIff (types.Knows (args.flatMap Expr.required))
  | [] => by simpa [exprs] using pure_succeeds _
  | first :: others => by
      simp only [exprs, List.flatMap_cons, TypeTable.knows_append]
      apply (expr_succeeds_iff first).bind
      intro operand
      exact (exprs_succeeds_iff others).bind_always fun _ => pure_succeeds _

end

theorem target_succeeds_iff (held : Place) :
    (target types held).SucceedsIff (types.Knows held.required) := by
  cases held with
  | var node name =>
      simp only [target, Place.required, TypeTable.knows_cons,
        TypeTable.knows_nil, and_true]
      exact (typeOf_succeeds_iff types node).bind_always fun _ =>
        pure_succeeds _
  | element node name index =>
      simp only [target, Place.required, TypeTable.knows_cons]
      apply (typeOf_succeeds_iff types node).bind
      intro type
      exact (expr_succeeds_iff types index).bind_always fun _ => pure_succeeds _

theorem condition_succeeds_iff (test : Condition) :
    (condition types test).SucceedsIff (types.Knows test.required) := by
  induction test with
  | rel position op left right =>
      simp only [condition, Condition.required, TypeTable.knows_cons,
        TypeTable.knows_append]
      apply (typeOf_succeeds_iff types left.node).bind
      intro type
      apply (expr_succeeds_iff types left).bind
      intro leftOperand
      exact (expr_succeeds_iff types right).bind_always fun _ =>
        emitInto_succeeds _
  | logic position op left right leftIH rightIH =>
      simp only [condition, Condition.required, TypeTable.knows_append]
      apply leftIH.bind
      intro leftRegister
      exact rightIH.bind_always fun _ => emitInto_succeeds _
  | not position operand ih =>
      simp only [condition, Condition.required]
      exact ih.bind_always fun _ => emitInto_succeeds _

mutual

theorem stmt_succeeds_iff : ∀ (s : Stmt) (exit? : Option Label),
    (stmt types exit? s).SucceedsIff
      (types.Knows s.required ∧ s.BreaksLoops exit?.isSome)
  | .assign position held value, exit? => by
      simp only [stmt, Stmt.required, Stmt.BreaksLoops, TypeTable.knows_append,
        and_true]
      apply (target_succeeds_iff types held).bind
      intro dest
      exact (expr_succeeds_iff types value).bind_always fun _ => emit_succeeds _
  | .ifThen position test thenBranch, exit? => by
      simp only [stmt, Stmt.required, Stmt.BreaksLoops, TypeTable.knows_append,
        and_assoc]
      apply freshLabel_succeeds.always_bind
      intro id
      apply (condition_succeeds_iff types test).bind
      intro register
      apply (emit_succeeds _).always_bind fun _ =>
        (emit_succeeds _).always_bind fun _ =>
        (emit_succeeds _).always_bind fun _ => ?_
      exact (stmt_succeeds_iff thenBranch exit?).bind_always fun _ =>
        emit_succeeds _
  | .ifElse position test thenBranch elseBranch, exit? => by
      simp only [stmt, Stmt.required, Stmt.BreaksLoops, TypeTable.knows_append]
      rw [and_assoc, and_and_and_comm]
      apply freshLabel_succeeds.always_bind
      intro id
      apply (condition_succeeds_iff types test).bind
      intro register
      apply (emit_succeeds _).always_bind fun _ =>
        (emit_succeeds _).always_bind fun _ =>
        (emit_succeeds _).always_bind fun _ => ?_
      apply (stmt_succeeds_iff thenBranch exit?).bind
      intro _
      apply (emit_succeeds _).always_bind fun _ =>
        (emit_succeeds _).always_bind fun _ => ?_
      exact (stmt_succeeds_iff elseBranch exit?).bind_always fun _ =>
        emit_succeeds _
  | .whileDo position test body, exit? => by
      simp only [stmt, Stmt.required, Stmt.BreaksLoops, TypeTable.knows_append,
        and_assoc]
      apply freshLabel_succeeds.always_bind
      intro id
      apply (emit_succeeds _).always_bind fun _ => ?_
      apply (condition_succeeds_iff types test).bind
      intro register
      apply (emit_succeeds _).always_bind fun _ =>
        (emit_succeeds _).always_bind fun _ =>
        (emit_succeeds _).always_bind fun _ => ?_
      apply (stmt_succeeds_iff body (some (.loop id .exitPart))).bind_always
      intro _
      exact (emit_succeeds _).always_bind fun _ => emit_succeeds _
  | .block position statements, exit? => by
      simp only [stmt, Stmt.required, Stmt.BreaksLoops]
      exact stmts_succeeds_iff statements exit?
  | .breakLoop position, exit? => by
      cases exit? with
      | none =>
          intro supply
          simp [stmt, Stmt.required, Stmt.BreaksLoops, fail]
      | some exit => simpa [stmt, Stmt.required, Stmt.BreaksLoops]
          using emit_succeeds _
  | .skip position, exit? => by
      simpa [stmt, Stmt.required, Stmt.BreaksLoops] using pure_succeeds _
  | .returnValue position value, exit? => by
      simp only [stmt, Stmt.required, Stmt.BreaksLoops, and_true]
      exact (expr_succeeds_iff types value).bind_always fun _ => emit_succeeds _
  | .read position held, exit? => by
      simp only [stmt, Stmt.required, Stmt.BreaksLoops, and_true]
      exact (target_succeeds_iff types held).bind_always fun _ =>
        emit_succeeds _
  | .write position value, exit? => by
      simp only [stmt, Stmt.required, Stmt.BreaksLoops, and_true]
      exact (expr_succeeds_iff types value).bind_always fun _ => emit_succeeds _
  | .print position text, exit? => by
      simpa [stmt, Stmt.required, Stmt.BreaksLoops] using emit_succeeds _
  | .call position callee args, exit? => by
      simp only [stmt, Stmt.required, Stmt.BreaksLoops, and_true]
      exact (exprs_succeeds_iff types args).bind_always fun _ => emit_succeeds _

theorem stmts_succeeds_iff : ∀ (statements : List Stmt) (exit? : Option Label),
    (stmts types exit? statements).SucceedsIff
      (types.Knows (statements.flatMap Stmt.required) ∧
        ∀ statement ∈ statements, statement.BreaksLoops exit?.isSome)
  | [], exit? => by simpa [stmts] using pure_succeeds _
  | first :: others, exit? => by
      simp only [stmts, List.flatMap_cons, TypeTable.knows_append,
        List.forall_mem_cons]
      rw [and_and_and_comm]
      apply (stmt_succeeds_iff first exit?).bind
      intro _
      exact stmts_succeeds_iff others exit?

end

theorem locals_succeeds_iff (declared : List Declaration) :
    (locals types declared).SucceedsIff
      (types.Knows (declared.flatMap Declaration.required)) := by
  induction declared with
  | nil => simpa [locals] using pure_succeeds _
  | cons first others ih =>
      simp only [List.flatMap_cons, TypeTable.knows_append,
        Declaration.required]
      cases sizeEq : first.type.size? with
      | none => simpa [locals, sizeEq] using ih
      | some size =>
          simp only [locals, sizeEq]
          cases size with
          | fixed count =>
              simp only [arraySize, TypeTable.knows_nil, true_and]
              exact (pure_succeeds _).always_bind fun _ =>
                (emit_succeeds _).always_bind fun _ => ih
          | dynamic count =>
              simp only [arraySize]
              exact (expr_succeeds_iff types count).bind fun _ =>
                (emit_succeeds _).always_bind fun _ => ih

theorem function_succeeds_iff (definition : Function) :
    (function types definition).SucceedsIff
      (types.Knows definition.required ∧
        ∀ statement ∈ definition.body, statement.BreaksLoops false) := by
  simp only [function, Function.required, TypeTable.knows_append, and_assoc]
  apply (emit_succeeds _).always_bind fun _ => ?_
  apply (locals_succeeds_iff types definition.locals).bind
  intro _
  exact (stmts_succeeds_iff types definition.body none).bind_always fun _ =>
    emit_succeeds _

theorem functions_succeeds_iff (definitions : List Function) :
    (functions types definitions).SucceedsIff
      (types.Knows (definitions.flatMap Function.required) ∧
        ∀ definition ∈ definitions, ∀ statement ∈ definition.body,
          statement.BreaksLoops false) := by
  induction definitions with
  | nil => simpa [functions] using pure_succeeds _
  | cons first others ih =>
      simp only [functions, List.flatMap_cons, TypeTable.knows_append,
        List.forall_mem_cons]
      rw [and_and_and_comm]
      exact (function_succeeds_iff types first).bind fun _ => ih

/-- A statement on its own is lowered like the only function of a program. -/
theorem program_eq_functions (tree : Program) :
    program types tree = functions types tree.definitions := by
  cases tree with
  | functions all => rfl
  | statement body =>
      funext supply
      simp only [program, Program.definitions, functions, function, locals,
        stmts, bind, pure, emit, List.map_nil]
      cases stmt types none body supply <;> simp

end Emission

theorem lower_eq_ok_iff {program : Program} {types : TypeTable}
    {code : List Instr} :
    lower program types = .ok code ↔
      ∃ emitted, Emission.functions types program.definitions .initial =
        .ok emitted ∧ emitted.code = code := by
  rw [lower, Emission.program_eq_functions]
  cases Emission.functions types program.definitions .initial with
  | error error => simp [Except.map]
  | ok emitted => simp [Except.map]

/-- Code is made exactly for the programs whose required types are known and
in which every `break` has a loop around it. -/
theorem exists_lower_eq_ok_iff (program : Program) (types : TypeTable) :
    (∃ code, lower program types = .ok code) ↔
      types.Knows program.required ∧
        ∀ definition ∈ program.definitions, ∀ statement ∈ definition.body,
          statement.BreaksLoops false := by
  rw [Program.required,
    ← Emission.functions_succeeds_iff types program.definitions .initial]
  simp only [lower_eq_ok_iff]
  exact ⟨fun ⟨_, emitted, emits, _⟩ => ⟨emitted, emits⟩,
    fun ⟨emitted, emits⟩ => ⟨_, emitted, emits, rfl⟩⟩

end PL0
