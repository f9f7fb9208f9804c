import PL0.Proofs.Code.Registers

/-!
# Code with other numbers

Code starts counting registers and labels where the code before it stopped,
and takes no other notice of that code.  So from a supply of which more has
been taken each part of a program gets the code it would have had, with all
numbers moved on by what has been taken; where no code can be made, the reason
is the same.
-/

namespace PL0

section Numbers

variable (taken : Supply)

/-- The supply after something has been taken from it beforehand. -/
def Supply.advance (supply : Supply) : Supply :=
  ⟨supply.register + taken.register, supply.label + taken.label⟩

/-- A register moved on by the registers that have been taken. -/
def Register.renumber (register : Register) : Register :=
  ⟨register.index + taken.register⟩

/-- An operand with its register moved on, if it is one. -/
def Operand.renumber : Operand → Operand
  | .reg register => .reg (register.renumber taken)
  | .int value => .int value
  | .float value => .float value
  | .var name => .var name

/-- A target with its index moved on. -/
def Target.renumber : Target → Target
  | .var name => .var name
  | .element array index => .element array (index.renumber taken)

/-- A label moved on by the label numbers that have been taken. -/
def Label.renumber : Label → Label
  | .branch id part => .branch (id + taken.label) part
  | .loop id part => .loop (id + taken.label) part
  | .named name => .named name

/-- An instruction with all its registers and labels moved on. -/
def Instr.renumber : Instr → Instr
  | .enter function params => .enter function params
  | .leave function => .leave function
  | .alloc type array size => .alloc type array (size.renumber taken)
  | .binary op type left right dest =>
    .binary op type (left.renumber taken) (right.renumber taken)
      (dest.renumber taken)
  | .negate type source dest =>
      .negate type (source.renumber taken) (dest.renumber taken)
  | .convert target source dest =>
      .convert target (source.renumber taken) (dest.renumber taken)
  | .load type array index dest =>
    .load type array (index.renumber taken) (dest.renumber taken)
  | .compare op type left right dest =>
    .compare op type (left.renumber taken) (right.renumber taken)
      (dest.renumber taken)
  | .logic op left right dest =>
    .logic op (left.renumber taken) (right.renumber taken) (dest.renumber taken)
  | .not source dest => .not (source.renumber taken) (dest.renumber taken)
  | .move type source dest =>
      .move type (source.renumber taken) (dest.renumber taken)
  | .label point => .label (point.renumber taken)
  | .jump target => .jump (target.renumber taken)
  | .jumpIf condition target =>
      .jumpIf (condition.renumber taken) (target.renumber taken)
  | .call callee args dest? =>
    .call callee (args.map (Operand.renumber taken))
      (dest?.map (Register.renumber taken))
  | .returnValue value => .returnValue (value.renumber taken)
  | .read dest => .read (dest.renumber taken)
  | .write value => .write (value.renumber taken)
  | .print text => .print text

end Numbers

namespace Emission

variable {α β : Type} {types : TypeTable} {taken : Supply}

/-- The later step does from an advanced supply what the earlier one does,
with all numbers moved on.  `move` says what that means for the value. -/
def Follows (taken : Supply) (move : α → α) (earlier later : Emission α) :
    Prop :=
  ∀ supply, later (supply.advance taken) = (earlier supply).map fun emitted =>
    ⟨move emitted.value, emitted.code.map (Instr.renumber taken),
      emitted.supply.advance taken⟩

section Steps

theorem Follows.bind {move : α → α} {moveNext : β → β}
    {earlier later : Emission α} {next laterNext : α → Emission β}
    (follows : Follows taken move earlier later)
    (further : ∀ value,
      Follows taken moveNext (next value) (laterNext (move value))) :
    Follows taken moveNext (earlier >>= next) (later >>= laterNext) := by
  intro supply
  simp only [Bind.bind, follows supply]
  cases earlier supply with
  | error error => rfl
  | ok before =>
      simp only [Except.map, further before.value before.supply]
      cases next before.value before.supply with
      | error error => rfl
      | ok after => simp

theorem follows_pure {move : α → α} {value moved : α}
    (movedEq : moved = move value) :
    Follows taken move (pure value) (pure moved) := by
  intro supply
  simp [pure, Except.map, movedEq]

theorem follows_fail {move : α → α} (error : InternalError) :
    Follows taken move (fail error) (fail error) :=
  fun _ => rfl

theorem follows_emit {instr moved : Instr}
    (movedEq : moved = instr.renumber taken) :
    Follows taken id (emit instr) (emit moved) := by
  intro supply
  simp [emit, Except.map, movedEq]

theorem follows_freshRegister :
    Follows taken (Register.renumber taken) freshRegister freshRegister := by
  intro supply
  simp [freshRegister, Except.map, Supply.advance, Register.renumber]
  omega

theorem follows_freshLabel :
    Follows taken (· + taken.label) freshLabel freshLabel := by
  intro supply
  simp [freshLabel, Except.map, Supply.advance]
  omega

theorem follows_typeOf (node : Node) :
    Follows taken id (typeOf types node) (typeOf types node) := by
  unfold typeOf
  cases types[node.id]? with
  | none => exact follows_fail _
  | some type => exact follows_pure rfl

theorem follows_emitInto {instr moved : Register → Instr}
    (movedEq : ∀ dest, moved (dest.renumber taken) =
      (instr dest).renumber taken) :
    Follows taken (Register.renumber taken) (emitInto instr)
      (emitInto moved) := by
  apply follows_freshRegister.bind
  intro dest
  exact (follows_emit (movedEq dest)).bind fun _ => follows_pure rfl

theorem follows_result {instr moved : Register → Instr}
    (movedEq : ∀ dest, moved (dest.renumber taken) =
      (instr dest).renumber taken) :
    Follows taken (Operand.renumber taken) (result instr) (result moved) :=
  (follows_emitInto movedEq).bind fun _ => follows_pure rfl

end Steps

variable (types taken)

mutual

theorem expr_follows : ∀ e : Expr,
    Follows taken (Operand.renumber taken) (expr types e) (expr types e)
  | .int node value => by
      rw [expr]
      exact follows_pure rfl
  | .float node value => by
      rw [expr]
      exact follows_pure rfl
  | .valueOf node (.var placeNode name) => by
      rw [expr]
      exact follows_pure rfl
  | .valueOf node (.element placeNode name index) => by
      rw [expr]
      apply (follows_typeOf node).bind
      intro type
      apply (expr_follows index).bind
      intro operand
      exact follows_result fun _ => rfl
  | .binary node op left right => by
      rw [expr]
      apply (follows_typeOf node).bind
      intro type
      apply (expr_follows left).bind
      intro leftOperand
      apply (expr_follows right).bind
      intro rightOperand
      exact follows_result fun _ => rfl
  | .signed node op operand => by
      rw [expr]
      apply (follows_typeOf node).bind
      intro type
      apply (expr_follows operand).bind
      intro source
      cases op with
      | plus => exact follows_pure rfl
      | neg => exact follows_result fun _ => rfl
  | .call node callee args => by
      rw [expr]
      apply (exprs_follows args).bind
      intro operands
      exact follows_result fun _ => rfl
  | .cast node target operand => by
      rw [expr]
      apply (follows_typeOf operand.node).bind
      intro type
      apply (expr_follows operand).bind
      intro source
      by_cases sameType : type.base = target
      · simp only [id_eq, sameType, if_true]
        exact follows_pure rfl
      · simp only [id_eq, sameType, if_false]
        exact follows_result fun _ => rfl

theorem exprs_follows : ∀ all : List Expr,
    Follows taken (List.map (Operand.renumber taken)) (exprs types all)
      (exprs types all)
  | [] => by
      rw [exprs]
      exact follows_pure rfl
  | first :: others => by
      rw [exprs]
      apply (expr_follows first).bind
      intro operand
      exact (exprs_follows others).bind fun _ => follows_pure rfl

end

theorem target_follows (held : Place) :
    Follows taken (Prod.map (Target.renumber taken) id) (target types held)
      (target types held) := by
  cases held with
  | var node name =>
      rw [target]
      exact (follows_typeOf node).bind fun _ => follows_pure rfl
  | element node name index =>
      rw [target]
      apply (follows_typeOf node).bind
      intro type
      exact (expr_follows types taken index).bind fun _ => follows_pure rfl

theorem condition_follows (test : Condition) :
    Follows taken (Register.renumber taken) (condition types test)
      (condition types test) := by
  induction test with
  | rel position op left right =>
      rw [condition]
      apply (follows_typeOf left.node).bind
      intro type
      apply (expr_follows types taken left).bind
      intro leftOperand
      apply (expr_follows types taken right).bind
      intro rightOperand
      exact follows_emitInto fun _ => rfl
  | logic position op left right leftIH rightIH =>
      rw [condition]
      apply leftIH.bind
      intro leftRegister
      apply rightIH.bind
      intro rightRegister
      exact follows_emitInto fun _ => rfl
  | not position operand ih =>
      rw [condition]
      exact ih.bind fun _ => follows_emitInto fun _ => rfl

mutual

/-- The exit of the loop around a statement is moved on with everything else. -/
theorem stmt_follows : ∀ (exit? : Option Label) (s : Stmt),
    Follows taken id (stmt types exit? s)
      (stmt types (exit?.map (Label.renumber taken)) s)
  | exit?, .assign position place value => by
      rw [stmt, stmt]
      apply (target_follows types taken place).bind
      rintro ⟨dest, type⟩
      exact (expr_follows types taken value).bind fun _ => follows_emit rfl
  | exit?, .ifThen position test thenBranch => by
      rw [stmt, stmt]
      apply follows_freshLabel.bind
      intro id
      apply (condition_follows types taken test).bind
      intro register
      apply (follows_emit rfl).bind
      intro _
      apply (follows_emit rfl).bind
      intro _
      apply (follows_emit rfl).bind
      intro _
      exact (stmt_follows exit? thenBranch).bind fun _ => follows_emit rfl
  | exit?, .ifElse position test thenBranch elseBranch => by
      rw [stmt, stmt]
      apply follows_freshLabel.bind
      intro id
      apply (condition_follows types taken test).bind
      intro register
      apply (follows_emit rfl).bind
      intro _
      apply (follows_emit rfl).bind
      intro _
      apply (follows_emit rfl).bind
      intro _
      apply (stmt_follows exit? thenBranch).bind
      intro _
      apply (follows_emit rfl).bind
      intro _
      apply (follows_emit rfl).bind
      intro _
      exact (stmt_follows exit? elseBranch).bind fun _ => follows_emit rfl
  | exit?, .whileDo position test body => by
      rw [stmt, stmt]
      apply follows_freshLabel.bind
      intro id
      apply (follows_emit rfl).bind
      intro _
      apply (condition_follows types taken test).bind
      intro register
      apply (follows_emit rfl).bind
      intro _
      apply (follows_emit rfl).bind
      intro _
      apply (follows_emit rfl).bind
      intro _
      -- In the later run the loop has another number, and so has the exit its
      -- breaks go to.
      apply (stmt_follows (some (.loop id .exitPart)) body).bind
      intro _
      exact (follows_emit rfl).bind fun _ => follows_emit rfl
  | exit?, .block position statements => by
      rw [stmt, stmt]
      exact stmts_follows exit? statements
  | exit?, .breakLoop position => by
      cases exit? with
      | none => exact follows_fail _
      | some exit => exact follows_emit rfl
  | exit?, .skip position => by
      rw [stmt, stmt]
      exact follows_pure rfl
  | exit?, .returnValue position value => by
      rw [stmt, stmt]
      exact (expr_follows types taken value).bind fun _ => follows_emit rfl
  | exit?, .read position place => by
      rw [stmt, stmt]
      apply (target_follows types taken place).bind
      rintro ⟨dest, type⟩
      exact follows_emit rfl
  | exit?, .write position value => by
      rw [stmt, stmt]
      exact (expr_follows types taken value).bind fun _ => follows_emit rfl
  | exit?, .print position text => by
      rw [stmt, stmt]
      exact follows_emit rfl
  | exit?, .call position callee args => by
      rw [stmt, stmt]
      exact (exprs_follows types taken args).bind fun _ => follows_emit rfl

theorem stmts_follows : ∀ (exit? : Option Label) (all : List Stmt),
    Follows taken id (stmts types exit? all)
      (stmts types (exit?.map (Label.renumber taken)) all)
  | exit?, [] => by
      rw [stmts, stmts]
      exact follows_pure rfl
  | exit?, first :: others => by
      rw [stmts, stmts]
      exact (stmt_follows exit? first).bind fun _ => stmts_follows exit? others

end

theorem arraySize_follows (size : ArraySize) :
    Follows taken (Operand.renumber taken) (arraySize types size)
      (arraySize types size) := by
  cases size with
  | fixed count => exact follows_pure rfl
  | dynamic count => exact expr_follows types taken count

theorem locals_follows (all : List Declaration) :
    Follows taken id (locals types all) (locals types all) := by
  induction all with
  | nil =>
      rw [locals]
      exact follows_pure rfl
  | cons first others ih =>
      cases sizeEq : first.type.size? with
      | none => simpa only [locals, sizeEq] using ih
      | some size =>
          simp only [locals, sizeEq]
          apply (arraySize_follows types taken size).bind
          intro count
          exact (follows_emit rfl).bind fun _ => ih

theorem function_follows (definition : Function) :
    Follows taken id (function types definition)
      (function types definition) := by
  rw [function]
  apply (follows_emit rfl).bind
  intro _
  apply (locals_follows types taken definition.locals).bind
  intro _
  exact (stmts_follows types taken none definition.body).bind fun _ =>
    follows_emit rfl

theorem functions_follows (definitions : List Function) :
    Follows taken id (functions types definitions)
      (functions types definitions) := by
  induction definitions with
  | nil =>
      rw [functions]
      exact follows_pure rfl
  | cons first others ih =>
      rw [functions]
      exact (function_follows types taken first).bind fun _ => ih

end Emission

end PL0
