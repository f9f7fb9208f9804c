import PL0.Proofs.Code.Lines
import PL0.Proofs.Code.TypedLowering
import PL0.Proofs.Tree.Leaves

/-!
# Constants and labels of code

Code takes its doubles from the tree and makes its own labels.  If the leaves
of the tree were scanned then no double of the code is negative, and no label
has a name of its own.
-/

namespace PL0

/-- An operand that is no negative double. -/
def Operand.IsPlain : Operand → Prop
  | .float value => value.IsNonNegative
  | _ => True

/-- A target without a negative double. -/
def Target.IsPlain : Target → Prop
  | .var _ => True
  | .element _ index => index.IsPlain

/-- An instruction without a negative double and without a label that has a
name. -/
def Instr.IsPlain : Instr → Prop
  | .alloc _ _ size => size.IsPlain
  | .binary _ _ left right _ => left.IsPlain ∧ right.IsPlain
  | .negate _ source _ => source.IsPlain
  | .convert _ source _ => source.IsPlain
  | .load _ _ index _ => index.IsPlain
  | .compare _ _ left right _ => left.IsPlain ∧ right.IsPlain
  | .move _ source dest => source.IsPlain ∧ dest.IsPlain
  | .label point => point.IsNumbered
  | .jump target => target.IsNumbered
  | .jumpIf _ target => target.IsNumbered
  | .call _ args _ => ∀ arg ∈ args, arg.IsPlain
  | .returnValue value => value.IsPlain
  | .read dest => dest.IsPlain
  | .write value => value.IsPlain
  | .enter .. | .leave _ | .logic .. | .not .. | .print _ => True

/-- Code without negative doubles and without labels that have names. -/
def PlainCode (code : List Instr) : Prop :=
  ∀ instr ∈ code, instr.IsPlain

namespace PlainCode

variable {instr : Instr} {first second : List Instr}

theorem nil : PlainCode [] := by
  simp [PlainCode]

theorem append (firstPlain : PlainCode first) (secondPlain : PlainCode second) :
    PlainCode (first ++ second) :=
  List.forall_mem_append.mpr ⟨firstPlain, secondPlain⟩

theorem cons (plain : instr.IsPlain) (others : PlainCode second) :
    PlainCode (instr :: second) :=
  List.forall_mem_cons.mpr ⟨plain, others⟩

theorem snoc (firstPlain : PlainCode first) (plain : instr.IsPlain) :
    PlainCode (first ++ [instr]) :=
  firstPlain.append (cons plain nil)

end PlainCode

namespace Emission

variable {types : TypeTable}

mutual

/-- The code of an expression takes its doubles from the expression. -/
theorem expr_plain : ∀ (e : Expr) {supply : Supply} {emitted : Emitted Operand},
    AreScanned e.leaves → expr types e supply = .ok emitted →
      PlainCode emitted.code ∧ emitted.value.IsPlain
  | .int node value, supply, emitted => by
      intro _ emits
      rw [expr_int_eq_ok emits]
      exact ⟨.nil, trivial⟩
  | .float node value, supply, emitted => by
      intro scanned emits
      rw [expr_float_eq_ok emits]
      exact ⟨.nil, scanned (.float value) (by simp [Expr.leaves])⟩
  | .valueOf node (.var placeNode name), supply, emitted => by
      intro _ emits
      rw [expr_var_eq_ok emits]
      exact ⟨.nil, trivial⟩
  | .valueOf node (.element placeNode name index), supply, emitted => by
      intro scanned emits
      obtain ⟨type, inner, _, innerEmits, rfl⟩ := expr_element_eq_ok emits
      rw [Expr.leaves, Place.leaves, areScanned_cons] at scanned
      obtain ⟨innerPlain, indexPlain⟩ := expr_plain index scanned.2 innerEmits
      exact ⟨innerPlain.snoc indexPlain, trivial⟩
  | .binary node op left right, supply, emitted => by
      intro scanned emits
      obtain ⟨type, first, second, _, firstEmits, secondEmits, rfl⟩ :=
        expr_binary_eq_ok emits
      rw [Expr.leaves, areScanned_append] at scanned
      obtain ⟨firstPlain, leftPlain⟩ := expr_plain left scanned.1 firstEmits
      obtain ⟨secondPlain, rightPlain⟩ := expr_plain right scanned.2 secondEmits
      exact ⟨firstPlain.append (secondPlain.snoc ⟨leftPlain, rightPlain⟩),
        trivial⟩
  | .signed node .plus operand, supply, emitted => by
      intro scanned emits
      rw [Expr.leaves] at scanned
      exact expr_plain operand scanned (expr_plus_eq_ok emits)
  | .signed node .neg operand, supply, emitted => by
      intro scanned emits
      obtain ⟨type, inner, _, innerEmits, rfl⟩ := expr_neg_eq_ok emits
      rw [Expr.leaves] at scanned
      obtain ⟨innerPlain, operandPlain⟩ := expr_plain operand scanned innerEmits
      exact ⟨innerPlain.snoc operandPlain, trivial⟩
  | .call node callee args, supply, emitted => by
      intro scanned emits
      obtain ⟨inner, innerEmits, rfl⟩ := expr_call_eq_ok emits
      rw [Expr.leaves, areScanned_cons] at scanned
      obtain ⟨innerPlain, argsPlain⟩ := exprs_plain args scanned.2 innerEmits
      exact ⟨innerPlain.snoc argsPlain, trivial⟩
  | .cast node target operand, supply, emitted => by
      intro scanned emits
      obtain ⟨type, inner, _, innerEmits, rfl⟩ := expr_cast_eq_ok emits
      rw [Expr.leaves] at scanned
      obtain ⟨innerPlain, operandPlain⟩ := expr_plain operand scanned innerEmits
      split
      · exact ⟨innerPlain, operandPlain⟩
      · exact ⟨innerPlain.snoc operandPlain, trivial⟩

theorem exprs_plain : ∀ (args : List Expr) {supply : Supply}
    {emitted : Emitted (List Operand)}, AreScanned (Expr.allLeaves args) →
      exprs types args supply = .ok emitted →
        PlainCode emitted.code ∧ ∀ operand ∈ emitted.value, operand.IsPlain
  | [], supply, emitted => by
      intro _ emits
      rw [exprs, pure_eq_ok_iff] at emits
      subst emits
      exact ⟨.nil, by simp⟩
  | first :: others, supply, emitted => by
      intro scanned emits
      obtain ⟨head, tail, headEmits, tailEmits, rfl⟩ := exprs_cons_eq_ok emits
      rw [Expr.allLeaves, areScanned_append] at scanned
      obtain ⟨headPlain, firstPlain⟩ := expr_plain first scanned.1 headEmits
      obtain ⟨tailPlain, othersPlain⟩ := exprs_plain others scanned.2 tailEmits
      exact ⟨headPlain.append tailPlain,
        List.forall_mem_cons.mpr ⟨firstPlain, othersPlain⟩⟩

end

theorem target_plain {held : Place} (scanned : AreScanned held.leaves)
    {supply : Supply} {emitted : Emitted (Target × BaseType)}
    (emits : target types held supply = .ok emitted) :
    PlainCode emitted.code ∧ emitted.value.1.IsPlain := by
  cases held with
  | var node name =>
      obtain ⟨type, _, rfl⟩ := target_var_eq_ok emits
      exact ⟨.nil, trivial⟩
  | element node name index =>
      obtain ⟨type, inner, _, innerEmits, rfl⟩ := target_element_eq_ok emits
      rw [Place.leaves, areScanned_cons] at scanned
      exact expr_plain index scanned.2 innerEmits

theorem condition_plain {test : Condition} (scanned : AreScanned test.leaves)
    {supply : Supply} {emitted : Emitted Register}
    (emits : condition types test supply = .ok emitted) :
    PlainCode emitted.code := by
  induction test generalizing supply emitted with
  | rel position op left right =>
      obtain ⟨type, first, second, _, firstEmits, secondEmits, rfl⟩ :=
        condition_rel_eq_ok emits
      rw [Condition.leaves, areScanned_append] at scanned
      obtain ⟨firstPlain, leftPlain⟩ := expr_plain left scanned.1 firstEmits
      obtain ⟨secondPlain, rightPlain⟩ := expr_plain right scanned.2 secondEmits
      exact firstPlain.append (secondPlain.snoc ⟨leftPlain, rightPlain⟩)
  | logic position op left right leftIH rightIH =>
      obtain ⟨first, second, firstEmits, secondEmits, rfl⟩ :=
        condition_logic_eq_ok emits
      rw [Condition.leaves, areScanned_append] at scanned
      exact (leftIH scanned.1 firstEmits).append
        ((rightIH scanned.2 secondEmits).snoc trivial)
  | not position operand ih =>
      obtain ⟨inner, innerEmits, rfl⟩ := condition_not_eq_ok emits
      exact (ih scanned innerEmits).snoc trivial

mutual

/-- The code of a statement takes its doubles from the statement and its
labels from the supply. -/
theorem stmt_plain : ∀ (s : Stmt) {exit? : Option Label} {supply : Supply}
    {emitted : Emitted Unit}, AreScanned s.leaves →
      (∀ exit ∈ exit?, exit.IsNumbered) →
        stmt types exit? s supply = .ok emitted →
        PlainCode emitted.code
  | .assign position held value, exit?, supply, emitted => by
      intro scanned _ emits
      obtain ⟨dest, source, destEmits, sourceEmits, rfl⟩ :=
        stmt_assign_eq_ok emits
      rw [Stmt.leaves, areScanned_append] at scanned
      obtain ⟨destPlain, heldPlain⟩ := target_plain scanned.1 destEmits
      obtain ⟨sourcePlain, valuePlain⟩ := expr_plain value scanned.2 sourceEmits
      exact destPlain.append (sourcePlain.snoc ⟨valuePlain, heldPlain⟩)
  | .ifThen position test thenBranch, exit?, supply, emitted => by
      intro scanned numbered emits
      obtain ⟨tested, inner, testedEmits, innerEmits, rfl⟩ :=
        stmt_ifThen_eq_ok emits
      rw [Stmt.leaves, areScanned_append] at scanned
      have testedPlain := condition_plain scanned.1 testedEmits
      have innerPlain := stmt_plain thenBranch scanned.2 numbered innerEmits
      exact testedPlain.append (.cons trivial (.cons trivial (.cons trivial
        (innerPlain.snoc trivial))))
  | .ifElse position test thenBranch elseBranch, exit?, supply, emitted => by
      intro scanned numbered emits
      obtain ⟨tested, first, second, testedEmits, firstEmits,
        secondEmits, rfl⟩ :=
        stmt_ifElse_eq_ok emits
      rw [Stmt.leaves, areScanned_append, areScanned_append] at scanned
      have testedPlain := condition_plain scanned.1.1 testedEmits
      have firstPlain := stmt_plain thenBranch scanned.1.2 numbered firstEmits
      have secondPlain := stmt_plain elseBranch scanned.2 numbered secondEmits
      exact testedPlain.append (.cons trivial (.cons trivial (.cons trivial
        (firstPlain.append
          (.cons trivial (.cons trivial (secondPlain.snoc trivial)))))))
  | .whileDo position test body, exit?, supply, emitted => by
      intro scanned _ emits
      obtain ⟨tested, inner, testedEmits, innerEmits, rfl⟩ :=
        stmt_whileDo_eq_ok emits
      rw [Stmt.leaves, areScanned_append] at scanned
      have testedPlain := condition_plain scanned.1 testedEmits
      have innerPlain :=
        stmt_plain body scanned.2 (by simp [Label.IsNumbered]) innerEmits
      exact .cons trivial
        (testedPlain.append (.cons trivial (.cons trivial (.cons trivial
        (innerPlain.append (.cons trivial (.cons trivial .nil)))))))
  | .block position statements, exit?, supply, emitted => by
      intro scanned numbered emits
      rw [stmt] at emits
      rw [Stmt.leaves] at scanned
      exact stmts_plain statements scanned numbered emits
  | .breakLoop position, exit?, supply, emitted => by
      intro _ numbered emits
      obtain ⟨exit, isExit, rfl⟩ := stmt_breakLoop_eq_ok emits
      exact .cons (numbered exit isExit) .nil
  | .skip position, exit?, supply, emitted => by
      intro _ _ emits
      rw [stmt_skip_eq_ok emits]
      exact .nil
  | .returnValue position value, exit?, supply, emitted => by
      intro scanned _ emits
      obtain ⟨source, sourceEmits, rfl⟩ := stmt_returnValue_eq_ok emits
      rw [Stmt.leaves] at scanned
      obtain ⟨sourcePlain, valuePlain⟩ := expr_plain value scanned sourceEmits
      exact sourcePlain.snoc valuePlain
  | .read position held, exit?, supply, emitted => by
      intro scanned _ emits
      obtain ⟨dest, destEmits, rfl⟩ := stmt_read_eq_ok emits
      rw [Stmt.leaves] at scanned
      obtain ⟨destPlain, heldPlain⟩ := target_plain scanned destEmits
      exact destPlain.snoc heldPlain
  | .write position value, exit?, supply, emitted => by
      intro scanned _ emits
      obtain ⟨source, sourceEmits, rfl⟩ := stmt_write_eq_ok emits
      rw [Stmt.leaves] at scanned
      obtain ⟨sourcePlain, valuePlain⟩ := expr_plain value scanned sourceEmits
      exact sourcePlain.snoc valuePlain
  | .print position text, exit?, supply, emitted => by
      intro _ _ emits
      rw [stmt_print_eq_ok emits]
      exact .cons trivial .nil
  | .call position callee args, exit?, supply, emitted => by
      intro scanned _ emits
      obtain ⟨inner, innerEmits, rfl⟩ := stmt_call_eq_ok emits
      rw [Stmt.leaves, areScanned_cons] at scanned
      obtain ⟨innerPlain, argsPlain⟩ := exprs_plain args scanned.2 innerEmits
      exact innerPlain.snoc argsPlain

theorem stmts_plain :
    ∀ (statements : List Stmt) {exit? : Option Label} {supply : Supply}
    {emitted : Emitted Unit}, AreScanned (Stmt.allLeaves statements) →
      (∀ exit ∈ exit?, exit.IsNumbered) → stmts types exit? statements supply =
        .ok emitted → PlainCode emitted.code
  | [], exit?, supply, emitted => by
      intro _ _ emits
      rw [stmts, pure_eq_ok_iff] at emits
      subst emits
      exact .nil
  | first :: others, exit?, supply, emitted => by
      intro scanned numbered emits
      obtain ⟨head, tail, headEmits, tailEmits, rfl⟩ := stmts_cons_eq_ok emits
      rw [Stmt.allLeaves, areScanned_append] at scanned
      exact (stmt_plain first scanned.1 numbered headEmits).append
        (stmts_plain others scanned.2 numbered tailEmits)

end

theorem locals_plain {declared : List Declaration}
    (scanned : AreScanned (declared.flatMap Declaration.leaves))
    {supply : Supply} {emitted : Emitted Unit}
    (emits : locals types declared supply = .ok emitted) :
    PlainCode emitted.code := by
  induction declared generalizing supply emitted with
  | nil =>
      rw [locals, pure_eq_ok_iff] at emits
      subst emits
      exact .nil
  | cons first others ih =>
      rw [List.flatMap_cons, areScanned_append] at scanned
      cases sizeEq : first.type.size? with
      | none => exact ih scanned.2 (locals_scalar_eq_ok sizeEq emits)
      | some size =>
          obtain ⟨count, tail, countEmits, tailEmits, rfl⟩ :=
            locals_array_eq_ok sizeEq emits
          have tailPlain := ih scanned.2 tailEmits
          cases size with
          | fixed number =>
              rw [arraySize, pure_eq_ok_iff] at countEmits
              subst countEmits
              exact .append .nil (.cons trivial tailPlain)
          | dynamic number =>
              rw [Declaration.leaves, Declaration.sizeLeaves, sizeEq,
                areScanned_cons] at scanned
              obtain ⟨countPlain, sizePlain⟩ :=
                expr_plain number scanned.1.2 countEmits
              exact countPlain.append (.cons sizePlain tailPlain)

theorem function_plain {definition : Function}
    (scanned : AreScanned definition.leaves) {supply : Supply}
    {emitted : Emitted Unit}
    (emits : function types definition supply = .ok emitted) :
    PlainCode emitted.code := by
  obtain ⟨room, body, roomEmits, bodyEmits, rfl⟩ := function_eq_ok emits
  rw [Function.leaves, areScanned_cons, Function.declarations,
    List.flatMap_append, areScanned_append, areScanned_append] at scanned
  have roomPlain := locals_plain scanned.2.1.2 roomEmits
  have bodyPlain := stmts_plain definition.body scanned.2.2 (by simp) bodyEmits
  exact .cons trivial (roomPlain.append (bodyPlain.snoc trivial))

/-- The code of functions takes its doubles from the functions. -/
theorem functions_plain {definitions : List Function}
    (scanned : AreScanned (definitions.flatMap Function.leaves))
    {supply : Supply} {emitted : Emitted Unit}
    (emits : Emission.functions types definitions supply = .ok emitted) :
    PlainCode emitted.code := by
  induction definitions generalizing supply emitted with
  | nil =>
      rw [Emission.functions, pure_eq_ok_iff] at emits
      subst emits
      exact .nil
  | cons first others ih =>
      obtain ⟨head, tail, headEmits, tailEmits, rfl⟩ :=
        functions_cons_eq_ok emits
      rw [List.flatMap_cons, areScanned_append] at scanned
      exact (function_plain scanned.1 headEmits).append (ih scanned.2 tailEmits)

end Emission

end PL0
