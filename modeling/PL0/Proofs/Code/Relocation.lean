import PL0.Code.Lowering
import PL0.Proofs.Tree.Displacement

/-!
# Code of a program that stands elsewhere

Positions do not get into code.  A program that stands elsewhere has the same
code, and where no code can be made the reason is the same.
-/

namespace PL0

/-- Why there is no code for a program that stands elsewhere. -/
def InternalError.relocate (move : Position → Position) :
    InternalError → InternalError
  | .breakOutsideLoop position => .breakOutsideLoop (move position)
  | .missingType node => .missingType (node.displace (.relocate move))

namespace Emission

variable {α β : Type} {move : Position → Position}

/-- Making code for a part that stands elsewhere. -/
def relocate (move : Position → Position) (emission : Emission α) :
    Emission α :=
  fun supply => (emission supply).mapError (InternalError.relocate move)

theorem relocate_bind {emission : Emission α} {shownNext next : α → Emission β}
    (further : ∀ value, shownNext value = (next value).relocate move) :
    emission.relocate move >>=
      shownNext = (emission >>= next).relocate move := by
  funext supply
  simp only [bind, relocate, further]
  cases emission supply with
  | error error => rfl
  | ok before =>
      delta Except.mapError
      dsimp only
      cases next before.value before.supply with
      | error error => rfl
      | ok after => rfl

/-- A step that cannot fail is the same elsewhere. -/
theorem bind_relocate {emission : Emission α} {shownNext next : α → Emission β}
    (safe : emission.relocate move = emission)
    (further : ∀ value, shownNext value = (next value).relocate move) :
    emission >>= shownNext = (emission >>= next).relocate move := by
  rw [← relocate_bind further, safe]

variable (types : TypeTable)

theorem typeOf_relocate (node : Node) :
    typeOf types (node.displace (.relocate move)) =
      (typeOf types node).relocate move := by
  have sameId : (node.displace (.relocate move)).id = node.id := rfl
  unfold typeOf
  rw [sameId]
  cases types[node.id]? with
  | none => rfl
  | some type => rfl

mutual

theorem expr_relocate : ∀ e : Expr,
    expr types (e.displace (.relocate move)) = (expr types e).relocate move
  | .int node value => by
      rw [Expr.displace]
      rfl
  | .float node value => by
      rw [Expr.displace]
      rfl
  | .valueOf node (.var placeNode name) => by
      rw [Expr.displace, Place.displace]
      rfl
  | .valueOf node (.element placeNode name index) => by
      rw [Expr.displace, Place.displace, expr, expr, typeOf_relocate,
        expr_relocate index]
      apply relocate_bind
      intro type
      exact relocate_bind fun _ => rfl
  | .binary node op left right => by
      rw [Expr.displace, expr, expr, typeOf_relocate, expr_relocate left,
        expr_relocate right]
      apply relocate_bind
      intro type
      apply relocate_bind
      intro leftOperand
      exact relocate_bind fun _ => rfl
  | .signed node op operand => by
      rw [Expr.displace, expr, expr, typeOf_relocate, expr_relocate operand]
      apply relocate_bind
      intro type
      apply relocate_bind
      intro source
      cases op <;> rfl
  | .call node callee args => by
      rw [Expr.displace, expr, expr, exprs_relocate args]
      exact relocate_bind fun _ => rfl
  | .cast node target operand => by
      rw [Expr.displace, expr, expr, Expr.node_displace, typeOf_relocate,
        expr_relocate operand]
      apply relocate_bind
      intro type
      apply relocate_bind
      intro source
      split
      · rfl
      · rfl

theorem exprs_relocate : ∀ all : List Expr,
    exprs types (all.map fun e => e.displace (.relocate move)) =
      (exprs types all).relocate move
  | [] => rfl
  | first :: others => by
      rw [List.map_cons, exprs, exprs, expr_relocate first,
        exprs_relocate others]
      apply relocate_bind
      intro operand
      exact relocate_bind fun _ => rfl

end

theorem target_relocate (held : Place) :
    target types (held.displace (.relocate move)) =
      (target types held).relocate move := by
  cases held with
  | var node name =>
      rw [Place.displace, target, target, typeOf_relocate]
      exact relocate_bind fun _ => rfl
  | element node name index =>
      rw [Place.displace, target, target, typeOf_relocate, expr_relocate]
      apply relocate_bind
      intro type
      exact relocate_bind fun _ => rfl

theorem condition_relocate (test : Condition) :
    condition types (test.displace (.relocate move)) =
      (condition types test).relocate move := by
  induction test with
  | rel position op left right =>
      rw [Condition.displace, condition, condition, Expr.node_displace,
        typeOf_relocate, expr_relocate, expr_relocate]
      apply relocate_bind
      intro type
      apply relocate_bind
      intro leftOperand
      exact relocate_bind fun _ => rfl
  | logic position op left right leftIH rightIH =>
      rw [Condition.displace, condition, condition, leftIH, rightIH]
      apply relocate_bind
      intro leftRegister
      exact relocate_bind fun _ => rfl
  | not position operand ih =>
      rw [Condition.displace, condition, condition, ih]
      exact relocate_bind fun _ => rfl

mutual

theorem stmt_relocate : ∀ (exit? : Option Label) (s : Stmt),
    stmt types exit? (s.displace (.relocate move)) =
      (stmt types exit? s).relocate move
  | exit?, .assign position place value => by
      rw [Stmt.displace, stmt, stmt, target_relocate, expr_relocate]
      apply relocate_bind
      rintro ⟨dest, type⟩
      exact relocate_bind fun _ => rfl
  | exit?, .ifThen position test thenBranch => by
      rw [Stmt.displace, stmt, stmt, condition_relocate,
        stmt_relocate exit? thenBranch]
      apply bind_relocate rfl
      intro id
      apply relocate_bind
      intro register
      apply bind_relocate rfl
      intro _
      apply bind_relocate rfl
      intro _
      apply bind_relocate rfl
      intro _
      exact relocate_bind fun _ => rfl
  | exit?, .ifElse position test thenBranch elseBranch => by
      rw [Stmt.displace, stmt, stmt, condition_relocate,
        stmt_relocate exit? thenBranch, stmt_relocate exit? elseBranch]
      apply bind_relocate rfl
      intro id
      apply relocate_bind
      intro register
      apply bind_relocate rfl
      intro _
      apply bind_relocate rfl
      intro _
      apply bind_relocate rfl
      intro _
      apply relocate_bind
      intro _
      apply bind_relocate rfl
      intro _
      apply bind_relocate rfl
      intro _
      exact relocate_bind fun _ => rfl
  | exit?, .whileDo position test body => by
      rw [Stmt.displace, stmt, stmt, condition_relocate]
      apply bind_relocate rfl
      intro id
      apply bind_relocate rfl
      intro _
      apply relocate_bind
      intro register
      apply bind_relocate rfl
      intro _
      apply bind_relocate rfl
      intro _
      apply bind_relocate rfl
      intro _
      rw [stmt_relocate (some (.loop id .exitPart)) body]
      apply relocate_bind
      intro _
      exact bind_relocate rfl fun _ => rfl
  | exit?, .block position statements => by
      rw [Stmt.displace, stmt, stmt]
      exact stmts_relocate exit? statements
  | exit?, .breakLoop position => by
      rw [Stmt.displace]
      cases exit? <;> rfl
  | exit?, .skip position => by
      rw [Stmt.displace]
      rfl
  | exit?, .returnValue position value => by
      rw [Stmt.displace, stmt, stmt, expr_relocate]
      exact relocate_bind fun _ => rfl
  | exit?, .read position place => by
      rw [Stmt.displace, stmt, stmt, target_relocate]
      exact relocate_bind fun _ => rfl
  | exit?, .write position value => by
      rw [Stmt.displace, stmt, stmt, expr_relocate]
      exact relocate_bind fun _ => rfl
  | exit?, .print position text => by
      rw [Stmt.displace]
      rfl
  | exit?, .call position callee args => by
      rw [Stmt.displace, stmt, stmt]
      change (exprs types (args.map fun arg =>
        arg.displace (.relocate move)) >>= _) = _
      rw [exprs_relocate]
      exact relocate_bind fun _ => rfl

theorem stmts_relocate : ∀ (exit? : Option Label) (all : List Stmt),
    stmts types exit? (all.map fun s => s.displace (.relocate move)) =
      (stmts types exit? all).relocate move
  | exit?, [] => rfl
  | exit?, first :: others => by
      rw [List.map_cons, stmts, stmts, stmt_relocate exit? first,
        stmts_relocate exit? others]
      exact relocate_bind fun _ => rfl

end

theorem arraySize_relocate (size : ArraySize) :
    arraySize types (size.displace (.relocate move)) =
      (arraySize types size).relocate move := by
  cases size with
  | fixed count => rfl
  | dynamic count => exact expr_relocate types count

theorem locals_relocate (all : List Declaration) :
    locals types (all.map (Declaration.displace (.relocate move))) =
      (locals types all).relocate move := by
  induction all with
  | nil => rfl
  | cons first others ih =>
      obtain ⟨name, ⟨base, size?⟩, position⟩ := first
      rw [List.map_cons, locals, locals, ih]
      cases size? with
      | none => rfl
      | some size =>
          change (arraySize types (size.displace (.relocate move)) >>= _) = _
          rw [arraySize_relocate]
          apply relocate_bind
          intro operand
          exact bind_relocate rfl fun _ => rfl

theorem function_relocate (definition : Function) :
    function types (definition.displace (.relocate move)) =
      (function types definition).relocate move := by
  have namesEq :
      (definition.displace (.relocate move)).params.map Declaration.name =
      definition.params.map Declaration.name := by
    change (definition.params.map _).map _ = _
    rw [List.map_map]
    rfl
  rw [function, function, namesEq]
  apply bind_relocate rfl
  intro _
  change (locals types
    (definition.locals.map (Declaration.displace (.relocate move))) >>= _) = _
  rw [locals_relocate]
  apply relocate_bind
  intro _
  change (stmts types none (definition.body.map fun s =>
    s.displace (.relocate move)) >>= _) = _
  rw [stmts_relocate]
  exact relocate_bind fun _ => rfl

theorem functions_relocate (all : List Function) :
    functions types (all.map (Function.displace (.relocate move))) =
      (functions types all).relocate move := by
  induction all with
  | nil => rfl
  | cons first others ih =>
      rw [List.map_cons, functions, functions, function_relocate, ih]
      exact relocate_bind fun _ => rfl

theorem program_relocate (tree : Program) :
    program types (tree.displace (.relocate move)) =
      (program types tree).relocate move := by
  cases tree with
  | functions all => exact functions_relocate types all
  | statement body =>
      rw [Program.displace, program, program, stmt_relocate]
      apply bind_relocate rfl
      intro _
      exact relocate_bind fun _ => rfl

end Emission

/-- A program that stands elsewhere has the same code. -/
theorem lower_relocate (move : Position → Position) (tree : Program)
    (types : TypeTable) :
    lower (tree.displace (.relocate move)) types =
      (lower tree types).mapError (InternalError.relocate move) := by
  unfold lower
  rw [Emission.program_relocate]
  change ((Emission.program types tree .initial).mapError _).map _ = _
  cases Emission.program types tree .initial with
  | error error => rfl
  | ok emitted => rfl

end PL0
