import PL0.Proofs.Code.Success

/-!
# The shape of code

What each part of a program contributes to the code, said once for each form:
which parts had their code made, from which supply, and how their code was put
together.
-/

namespace PL0

/-- The supply after a register was taken. -/
def Supply.nextRegister (supply : Supply) : Supply :=
  { supply with register := supply.register + 1 }

/-- The supply after a number for labels was taken. -/
def Supply.nextLabel (supply : Supply) : Supply :=
  { supply with label := supply.label + 1 }

namespace Emission

variable {α : Type} {types : TypeTable} {exit? : Option Label} {supply : Supply}

theorem pure_eq_ok_iff (value : α) {emitted : Emitted α} :
    (pure value : Emission α) supply = .ok emitted ↔
      emitted = ⟨value, [], supply⟩ := by
  simp [pure, eq_comm]

theorem emit_eq_ok_iff (instr : Instr) {emitted : Emitted Unit} :
    emit instr supply = .ok emitted ↔ emitted = ⟨(), [instr], supply⟩ := by
  simp [emit, eq_comm]

theorem freshLabel_eq_ok_iff {emitted : Emitted Nat} :
    freshLabel supply = .ok emitted ↔ emitted = ⟨supply.label, [],
      supply.nextLabel⟩ := by
  simp [freshLabel, Supply.nextLabel, eq_comm]

theorem emitInto_eq_ok_iff (instr : Register → Instr)
    {emitted : Emitted Register} :
    emitInto instr supply = .ok emitted ↔
      emitted = ⟨⟨supply.register⟩, [instr ⟨supply.register⟩],
        supply.nextRegister⟩ := by
  simp [emitInto, freshRegister, emit, bind, pure, Supply.nextRegister, eq_comm]

theorem result_eq_ok_iff (instr : Register → Instr)
    {emitted : Emitted Operand} :
    result instr supply = .ok emitted ↔
      emitted = ⟨.reg ⟨supply.register⟩, [instr ⟨supply.register⟩],
        supply.nextRegister⟩ := by
  simp [result, emitInto, freshRegister, emit, bind, pure, Supply.nextRegister,
    eq_comm]

theorem typeOf_eq_ok_iff (node : Node) {emitted : Emitted ValueType} :
    typeOf types node supply = .ok emitted ↔
      ∃ type, types[node.id]? = some type ∧ emitted = ⟨type, [], supply⟩ := by
  unfold typeOf
  cases types[node.id]? with
  | none => simp [fail]
  | some type => simp [pure, eq_comm]

section Expressions

variable {emitted : Emitted Operand}

theorem expr_int_eq_ok {node : Node} {value : Int64}
    (emits : expr types (.int node value) supply = .ok emitted) :
    emitted = ⟨.int value, [], supply⟩ := by
  rwa [expr, pure_eq_ok_iff] at emits

theorem expr_float_eq_ok {node : Node} {value : Binary64}
    (emits : expr types (.float node value) supply = .ok emitted) :
    emitted = ⟨.float value, [], supply⟩ := by
  rwa [expr, pure_eq_ok_iff] at emits

theorem expr_var_eq_ok {node placeNode : Node} {name : String}
    (emits : expr types (.valueOf node (.var placeNode name)) supply =
      .ok emitted) :
    emitted = ⟨.var name, [], supply⟩ := by
  rwa [expr, pure_eq_ok_iff] at emits

theorem expr_element_eq_ok {node placeNode : Node} {name : String}
    {index : Expr}
    (emits : expr types (.valueOf node (.element placeNode name index)) supply =
      .ok emitted) :
    ∃ type inner, types[node.id]? = some type ∧ expr types index supply =
      .ok inner ∧ emitted = ⟨.reg ⟨inner.supply.register⟩,
        inner.code ++
          [.load type.base name inner.value ⟨inner.supply.register⟩],
        inner.supply.nextRegister⟩ := by
  simp only [expr, bind_eq_ok_iff, typeOf_eq_ok_iff, result_eq_ok_iff] at emits
  obtain ⟨_, _, ⟨type, typeEq, rfl⟩, ⟨inner, _, innerEmits, rfl, rfl⟩, rfl⟩ :=
    emits
  exact ⟨type, inner, typeEq, innerEmits, rfl⟩

theorem expr_binary_eq_ok {node : Node} {op : ArithOp} {left right : Expr}
    (emits : expr types (.binary node op left right) supply = .ok emitted) :
    ∃ type first second, types[node.id]? = some type ∧
      expr types left supply = .ok first ∧ expr types right first.supply =
        .ok second ∧
      emitted = ⟨.reg ⟨second.supply.register⟩,
        first.code ++ (second.code ++
          [.binary op type.base first.value second.value
            ⟨second.supply.register⟩]),
        second.supply.nextRegister⟩ := by
  simp only [expr, bind_eq_ok_iff, typeOf_eq_ok_iff, result_eq_ok_iff] at emits
  obtain ⟨_, _, ⟨type, typeEq, rfl⟩,
    ⟨first, _, firstEmits, ⟨second, _, secondEmits, rfl, rfl⟩, rfl⟩,
    rfl⟩ := emits
  exact ⟨type, first, second, typeEq, firstEmits, secondEmits, rfl⟩

theorem expr_plus_eq_ok {node : Node} {operand : Expr}
    (emits : expr types (.signed node .plus operand) supply = .ok emitted) :
    expr types operand supply = .ok emitted := by
  simp only [expr, bind_eq_ok_iff, typeOf_eq_ok_iff, pure_eq_ok_iff] at emits
  obtain ⟨_, _, ⟨type, typeEq, rfl⟩, ⟨inner, _, innerEmits, rfl, rfl⟩, rfl⟩ :=
    emits
  simpa using innerEmits

theorem expr_neg_eq_ok {node : Node} {operand : Expr}
    (emits : expr types (.signed node .neg operand) supply = .ok emitted) :
    ∃ type inner, types[node.id]? = some type ∧ expr types operand supply =
      .ok inner ∧ emitted = ⟨.reg ⟨inner.supply.register⟩,
        inner.code ++ [.negate type.base inner.value ⟨inner.supply.register⟩],
        inner.supply.nextRegister⟩ := by
  simp only [expr, bind_eq_ok_iff, typeOf_eq_ok_iff, result_eq_ok_iff] at emits
  obtain ⟨_, _, ⟨type, typeEq, rfl⟩, ⟨inner, _, innerEmits, rfl, rfl⟩, rfl⟩ :=
    emits
  exact ⟨type, inner, typeEq, innerEmits, rfl⟩

theorem expr_call_eq_ok {node : Node} {callee : String} {args : List Expr}
    (emits : expr types (.call node callee args) supply = .ok emitted) :
    ∃ inner, exprs types args supply = .ok inner ∧
      emitted = ⟨.reg ⟨inner.supply.register⟩,
        inner.code ++ [.call callee inner.value (some ⟨inner.supply.register⟩)],
        inner.supply.nextRegister⟩ := by
  simp only [expr, bind_eq_ok_iff, result_eq_ok_iff] at emits
  obtain ⟨inner, _, innerEmits, rfl, rfl⟩ := emits
  exact ⟨inner, innerEmits, rfl⟩

theorem expr_cast_eq_ok {node : Node} {target : BaseType} {operand : Expr}
    (emits : expr types (.cast node target operand) supply = .ok emitted) :
    ∃ type inner, types[operand.node.id]? = some type ∧
      expr types operand supply = .ok inner ∧
      emitted =
        if type.base = target then inner
        else ⟨.reg ⟨inner.supply.register⟩,
          inner.code ++ [.convert target inner.value ⟨inner.supply.register⟩],
          inner.supply.nextRegister⟩ := by
  simp only [expr, bind_eq_ok_iff, typeOf_eq_ok_iff] at emits
  obtain ⟨_, _, ⟨type, typeEq, rfl⟩, ⟨inner, _, innerEmits, last, rfl⟩, rfl⟩ :=
    emits
  refine ⟨type, inner, typeEq, innerEmits, ?_⟩
  by_cases sameType : type.base = target
  · rw [if_pos sameType, pure_eq_ok_iff] at last
    simp [last, sameType]
  · rw [if_neg sameType, result_eq_ok_iff] at last
    simp [last, sameType]

theorem exprs_cons_eq_ok {first : Expr} {others : List Expr}
    {emitted : Emitted (List Operand)}
    (emits : exprs types (first :: others) supply = .ok emitted) :
    ∃ head tail, expr types first supply = .ok head ∧
      exprs types others head.supply = .ok tail ∧
      emitted = ⟨head.value :: tail.value, head.code ++ tail.code,
        tail.supply⟩ := by
  simp only [exprs, bind_eq_ok_iff, pure_eq_ok_iff] at emits
  obtain ⟨head, _, headEmits, ⟨tail, _, tailEmits, rfl, rfl⟩, rfl⟩ := emits
  exact ⟨head, tail, headEmits, tailEmits, by simp⟩

end Expressions

theorem target_var_eq_ok {node : Node} {name : String}
    {emitted : Emitted (Target × BaseType)}
    (emits : target types (.var node name) supply = .ok emitted) :
    ∃ type, types[node.id]? = some type ∧
      emitted = ⟨(.var name, type.base), [], supply⟩ := by
  simp only [target, bind_eq_ok_iff, typeOf_eq_ok_iff, pure_eq_ok_iff] at emits
  obtain ⟨_, _, ⟨type, typeEq, rfl⟩, rfl, rfl⟩ := emits
  exact ⟨type, typeEq, rfl⟩

theorem target_element_eq_ok {node : Node} {name : String} {index : Expr}
    {emitted : Emitted (Target × BaseType)}
    (emits : target types (.element node name index) supply = .ok emitted) :
    ∃ type inner, types[node.id]? = some type ∧ expr types index supply =
      .ok inner ∧
      emitted = ⟨(.element name inner.value, type.base), inner.code,
        inner.supply⟩ := by
  simp only [target, bind_eq_ok_iff, typeOf_eq_ok_iff, pure_eq_ok_iff] at emits
  obtain ⟨_, _, ⟨type, typeEq, rfl⟩, ⟨inner, _, innerEmits, rfl, rfl⟩, rfl⟩ :=
    emits
  exact ⟨type, inner, typeEq, innerEmits, by simp⟩

section Conditions

variable {position : Position} {emitted : Emitted Register}

theorem condition_rel_eq_ok {op : RelOp} {left right : Expr}
    (emits : condition types (.rel position op left right) supply =
      .ok emitted) :
    ∃ type first second, types[left.node.id]? = some type ∧
      expr types left supply = .ok first ∧ expr types right first.supply =
        .ok second ∧
      emitted = ⟨⟨second.supply.register⟩,
        first.code ++ (second.code ++
          [.compare op type.base first.value second.value
            ⟨second.supply.register⟩]),
        second.supply.nextRegister⟩ := by
  simp only [condition, bind_eq_ok_iff, typeOf_eq_ok_iff,
    emitInto_eq_ok_iff] at emits
  obtain ⟨_, _, ⟨type, typeEq, rfl⟩,
    ⟨first, _, firstEmits, ⟨second, _, secondEmits, rfl, rfl⟩, rfl⟩,
    rfl⟩ := emits
  exact ⟨type, first, second, typeEq, firstEmits, secondEmits, rfl⟩

theorem condition_logic_eq_ok {op : LogicOp} {left right : Condition}
    (emits : condition types (.logic position op left right) supply =
      .ok emitted) :
    ∃ first second, condition types left supply = .ok first ∧
      condition types right first.supply = .ok second ∧
      emitted = ⟨⟨second.supply.register⟩,
        first.code ++ (second.code ++
          [.logic op first.value second.value ⟨second.supply.register⟩]),
        second.supply.nextRegister⟩ := by
  simp only [condition, bind_eq_ok_iff, emitInto_eq_ok_iff] at emits
  obtain ⟨first, _, firstEmits, ⟨second, _, secondEmits, rfl, rfl⟩, rfl⟩ :=
    emits
  exact ⟨first, second, firstEmits, secondEmits, rfl⟩

theorem condition_not_eq_ok {operand : Condition}
    (emits : condition types (.not position operand) supply = .ok emitted) :
    ∃ inner, condition types operand supply = .ok inner ∧
      emitted = ⟨⟨inner.supply.register⟩,
        inner.code ++ [.not inner.value ⟨inner.supply.register⟩],
        inner.supply.nextRegister⟩ := by
  simp only [condition, bind_eq_ok_iff, emitInto_eq_ok_iff] at emits
  obtain ⟨inner, _, innerEmits, rfl, rfl⟩ := emits
  exact ⟨inner, innerEmits, rfl⟩

end Conditions

section Statements

variable {position : Position} {emitted : Emitted Unit}

theorem stmt_assign_eq_ok {held : Place} {value : Expr}
    (emits : stmt types exit? (.assign position held value) supply =
      .ok emitted) :
    ∃ dest source, target types held supply = .ok dest ∧
      expr types value dest.supply = .ok source ∧
      emitted = ⟨(), dest.code ++ (source.code ++
        [.move dest.value.2 source.value dest.value.1]), source.supply⟩ := by
  simp only [stmt, bind_eq_ok_iff, emit_eq_ok_iff] at emits
  obtain ⟨dest, _, destEmits, ⟨source, _, sourceEmits, rfl, rfl⟩, rfl⟩ := emits
  exact ⟨dest, source, destEmits, sourceEmits, rfl⟩

theorem stmt_ifThen_eq_ok {test : Condition} {thenBranch : Stmt}
    (emits : stmt types exit? (.ifThen position test thenBranch) supply =
      .ok emitted) :
    ∃ tested inner, condition types test supply.nextLabel = .ok tested ∧
      stmt types exit? thenBranch tested.supply = .ok inner ∧
      emitted = ⟨(), tested.code ++
        .jumpIf tested.value (.branch supply.label .thenPart) ::
        .jump (.branch supply.label .endPart) ::
        .label (.branch supply.label .thenPart) :: (inner.code ++
        [.label (.branch supply.label .endPart)]), inner.supply⟩ := by
  simp only [stmt, bind_eq_ok_iff, emit_eq_ok_iff,
    freshLabel_eq_ok_iff] at emits
  obtain ⟨_, _, rfl,
    ⟨tested, _, testedEmits,
      ⟨_, _, rfl,
        ⟨_, _, rfl, ⟨_, _, rfl, ⟨inner, _, innerEmits, rfl, rfl⟩, rfl⟩, rfl⟩,
        rfl⟩, rfl⟩, rfl⟩ := emits
  exact ⟨tested, inner, testedEmits, innerEmits, by simp⟩

theorem stmt_ifElse_eq_ok {test : Condition} {thenBranch elseBranch : Stmt}
    (emits : stmt types exit? (.ifElse position test thenBranch elseBranch)
      supply = .ok emitted) :
    ∃ tested first second, condition types test supply.nextLabel = .ok tested ∧
      stmt types exit? thenBranch tested.supply = .ok first ∧
      stmt types exit? elseBranch first.supply = .ok second ∧
      emitted = ⟨(), tested.code ++
        .jumpIf tested.value (.branch supply.label .thenPart) ::
        .jump (.branch supply.label .elsePart) ::
        .label (.branch supply.label .thenPart) :: (first.code ++
        .jump (.branch supply.label .endPart) ::
        .label (.branch supply.label .elsePart) :: (second.code ++
        [.label (.branch supply.label .endPart)])), second.supply⟩ := by
  simp only [stmt, bind_eq_ok_iff, emit_eq_ok_iff,
    freshLabel_eq_ok_iff] at emits
  obtain ⟨_, _, rfl,
    ⟨tested, _, testedEmits,
      ⟨_, _, rfl,
        ⟨_, _, rfl,
          ⟨_, _, rfl,
            ⟨first, _, firstEmits,
              ⟨_, _, rfl, ⟨_, _, rfl, ⟨second, _, secondEmits, rfl, rfl⟩,
    rfl⟩, rfl⟩, rfl⟩, rfl⟩, rfl⟩, rfl⟩, rfl⟩, rfl⟩ := emits
  exact ⟨tested, first, second, testedEmits, firstEmits, secondEmits, by simp⟩

theorem stmt_whileDo_eq_ok {test : Condition} {body : Stmt}
    (emits : stmt types exit? (.whileDo position test body) supply =
      .ok emitted) :
    ∃ tested inner, condition types test supply.nextLabel = .ok tested ∧
      stmt types (some (.loop supply.label .exitPart)) body tested.supply =
        .ok inner ∧
      emitted = ⟨(), .label (.loop supply.label .startPart) :: (tested.code ++
        .jumpIf tested.value (.loop supply.label .bodyPart) ::
        .jump (.loop supply.label .exitPart) ::
        .label (.loop supply.label .bodyPart) :: (inner.code ++
        [.jump (.loop supply.label .startPart),
          .label (.loop supply.label .exitPart)])), inner.supply⟩ := by
  simp only [stmt, bind_eq_ok_iff, emit_eq_ok_iff,
    freshLabel_eq_ok_iff] at emits
  obtain ⟨_, _, rfl,
    ⟨_, _, rfl,
      ⟨tested, _, testedEmits,
        ⟨_, _, rfl,
          ⟨_, _, rfl,
            ⟨_, _, rfl, ⟨inner, _, innerEmits, ⟨_, _, rfl, rfl, rfl⟩, rfl⟩,
              rfl⟩, rfl⟩, rfl⟩, rfl⟩, rfl⟩,
    rfl⟩ := emits
  exact ⟨tested, inner, testedEmits, innerEmits, by simp⟩

theorem stmt_breakLoop_eq_ok
    (emits : stmt types exit? (.breakLoop position) supply = .ok emitted) :
    ∃ exit, exit? = some exit ∧ emitted = ⟨(), [.jump exit], supply⟩ := by
  cases exit? with
  | none => simp [stmt, fail] at emits
  | some exit =>
      simp only [stmt, emit_eq_ok_iff] at emits
      exact ⟨exit, rfl, emits⟩

theorem stmt_skip_eq_ok
    (emits : stmt types exit? (.skip position) supply = .ok emitted) :
    emitted = ⟨(), [], supply⟩ := by
  rwa [stmt, pure_eq_ok_iff] at emits

theorem stmt_returnValue_eq_ok {value : Expr}
    (emits : stmt types exit? (.returnValue position value) supply =
      .ok emitted) :
    ∃ source, expr types value supply = .ok source ∧
      emitted = ⟨(), source.code ++ [.returnValue source.value],
        source.supply⟩ := by
  simp only [stmt, bind_eq_ok_iff, emit_eq_ok_iff] at emits
  obtain ⟨source, _, sourceEmits, rfl, rfl⟩ := emits
  exact ⟨source, sourceEmits, rfl⟩

theorem stmt_read_eq_ok {held : Place}
    (emits : stmt types exit? (.read position held) supply = .ok emitted) :
    ∃ dest, target types held supply = .ok dest ∧
      emitted = ⟨(), dest.code ++ [.read dest.value.1], dest.supply⟩ := by
  simp only [stmt, bind_eq_ok_iff, emit_eq_ok_iff] at emits
  obtain ⟨dest, _, destEmits, rfl, rfl⟩ := emits
  exact ⟨dest, destEmits, rfl⟩

theorem stmt_write_eq_ok {value : Expr}
    (emits : stmt types exit? (.write position value) supply = .ok emitted) :
    ∃ source, expr types value supply = .ok source ∧
      emitted = ⟨(), source.code ++ [.write source.value], source.supply⟩ := by
  simp only [stmt, bind_eq_ok_iff, emit_eq_ok_iff] at emits
  obtain ⟨source, _, sourceEmits, rfl, rfl⟩ := emits
  exact ⟨source, sourceEmits, rfl⟩

theorem stmt_print_eq_ok {text : String}
    (emits : stmt types exit? (.print position text) supply = .ok emitted) :
    emitted = ⟨(), [.print text], supply⟩ := by
  rwa [stmt, emit_eq_ok_iff] at emits

theorem stmt_call_eq_ok {callee : String} {args : List Expr}
    (emits : stmt types exit? (.call position callee args) supply =
      .ok emitted) :
    ∃ inner, exprs types args supply = .ok inner ∧
      emitted = ⟨(), inner.code ++ [.call callee inner.value none],
        inner.supply⟩ := by
  simp only [stmt, bind_eq_ok_iff, emit_eq_ok_iff] at emits
  obtain ⟨inner, _, innerEmits, rfl, rfl⟩ := emits
  exact ⟨inner, innerEmits, rfl⟩

theorem stmts_cons_eq_ok {first : Stmt} {others : List Stmt}
    (emits : stmts types exit? (first :: others) supply = .ok emitted) :
    ∃ head tail, stmt types exit? first supply = .ok head ∧
      stmts types exit? others head.supply = .ok tail ∧
      emitted = ⟨(), head.code ++ tail.code, tail.supply⟩ := by
  simp only [stmts, bind_eq_ok_iff] at emits
  obtain ⟨head, tail, headEmits, tailEmits, rfl⟩ := emits
  exact ⟨head, tail, headEmits, tailEmits, rfl⟩

end Statements

section Functions

variable {emitted : Emitted Unit}

theorem locals_scalar_eq_ok {first : Declaration} {others : List Declaration}
    (isScalar : first.type.size? = none)
    (emits : locals types (first :: others) supply = .ok emitted) :
    locals types others supply = .ok emitted := by
  simpa [locals, isScalar] using emits

theorem locals_array_eq_ok {first : Declaration} {others : List Declaration}
    {size : ArraySize} (isArray : first.type.size? = some size)
    (emits : locals types (first :: others) supply = .ok emitted) :
    ∃ count tail, arraySize types size supply = .ok count ∧
      locals types others count.supply = .ok tail ∧
      emitted = ⟨(), count.code ++
        .alloc first.type.base first.name count.value :: tail.code,
        tail.supply⟩ := by
  simp only [locals, isArray, bind_eq_ok_iff, emit_eq_ok_iff] at emits
  obtain ⟨count, _, countEmits, ⟨_, tail, rfl, tailEmits, rfl⟩, rfl⟩ := emits
  exact ⟨count, tail, countEmits, tailEmits, rfl⟩

theorem function_eq_ok {definition : Function}
    (emits : function types definition supply = .ok emitted) :
    ∃ room body, locals types definition.locals supply = .ok room ∧
      stmts types none definition.body room.supply = .ok body ∧
      emitted = ⟨(),
        .enter definition.name (definition.params.map Declaration.name) ::
        (room.code ++ (body.code ++ [.leave definition.name])),
        body.supply⟩ := by
  simp only [function, bind_eq_ok_iff, emit_eq_ok_iff] at emits
  obtain ⟨_, _, rfl, ⟨room, _, roomEmits, ⟨body, _, bodyEmits, rfl, rfl⟩, rfl⟩,
    rfl⟩ := emits
  exact ⟨room, body, roomEmits, bodyEmits, rfl⟩

theorem functions_cons_eq_ok {first : Function} {others : List Function}
    (emits : functions types (first :: others) supply = .ok emitted) :
    ∃ head tail, function types first supply = .ok head ∧
      functions types others head.supply = .ok tail ∧
      emitted = ⟨(), head.code ++ tail.code, tail.supply⟩ := by
  simp only [functions, bind_eq_ok_iff] at emits
  obtain ⟨head, tail, headEmits, tailEmits, rfl⟩ := emits
  exact ⟨head, tail, headEmits, tailEmits, rfl⟩

end Functions

end Emission

end PL0
