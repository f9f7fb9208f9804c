import Mathlib.Data.List.Nodup
import PL0.Proofs.Code.Shape

/-!
# Where code stands

Code for an expression or a condition runs straight through: it has no labels
and no jumps, and its result is in a register that was new.  Every other piece
of code defines labels with numbers that were new, each label once.  So in the
code of a function a label leads to the one place where it stands.
-/

namespace PL0

/-- The instruction stands at the edge of a function, or control can come to
it or leave it other than in order. -/
def Instr.isControl : Instr → Bool
  | .enter .. | .leave _ | .label _ | .jump _ | .jumpIf .. | .returnValue _ =>
      true
  | _ => false

/-- The instruction stands at the edge of a function. -/
def Instr.isEdge : Instr → Bool
  | .enter .. | .leave _ => true
  | _ => false

/-- The label that an instruction defines. -/
def Instr.label? : Instr → Option Label
  | .label point => some point
  | _ => none

/-- The labels that code defines, in order. -/
def definedLabels (code : List Instr) : List Label :=
  code.filterMap Instr.label?

@[simp]
theorem definedLabels_nil : definedLabels [] = [] :=
  rfl

@[simp]
theorem definedLabels_append (first second : List Instr) :
    definedLabels (first ++ second) = definedLabels first ++
      definedLabels second :=
  List.filterMap_append

@[simp]
theorem definedLabels_cons_label (point : Label) (code : List Instr) :
    definedLabels (.label point :: code) = point :: definedLabels code :=
  rfl

@[simp]
theorem definedLabels_cons_jump (target : Label) (code : List Instr) :
    definedLabels (.jump target :: code) = definedLabels code :=
  rfl

@[simp]
theorem definedLabels_cons_jumpIf (test : Register) (target : Label)
    (code : List Instr) :
    definedLabels (.jumpIf test target :: code) = definedLabels code :=
  rfl

theorem definedLabels_cons_of_label?_eq_none {instr : Instr}
    (unlabelled : instr.label? = none) (code : List Instr) :
    definedLabels (instr :: code) = definedLabels code :=
  List.filterMap_cons_none unlabelled

theorem definedLabels_eq_nil_of_straight {code : List Instr}
    (straight : ∀ instr ∈ code, instr.isControl = false) :
    definedLabels code = [] := by
  rw [definedLabels, List.filterMap_eq_nil_iff]
  intro instr member
  have plain := straight instr member
  cases instr <;> simp_all [Instr.isControl, Instr.label?]

section Targets

variable {block : List Instr}

/-- A label that is defined once is found where it is defined. -/
theorem idxOf?_label_eq_some (distinct : (definedLabels block).Nodup)
    {point : Label} {index : Nat}
    (defined : block[index]? = some (.label point)) :
    block.idxOf? (.label point) = some index := by
  induction block generalizing index with
  | nil => simp at defined
  | cons first others ih =>
      cases index with
      | zero =>
          rw [List.getElem?_cons_zero, Option.some.injEq] at defined
          subst defined
          simp [List.idxOf?_cons]
      | succ index =>
          rw [List.getElem?_cons_succ] at defined
          have member : Instr.label point ∈ others :=
            List.mem_of_getElem? defined
          have definedLater : point ∈ definedLabels others :=
            List.mem_filterMap.mpr ⟨_, member, rfl⟩
          have notFirst : first ≠ .label point := by
            rintro rfl
            rw [definedLabels_cons_label, List.nodup_cons] at distinct
            exact distinct.1 definedLater
          have restDistinct : (definedLabels others).Nodup := by
            cases labelEq : first.label? with
            | none =>
                rwa [definedLabels_cons_of_label?_eq_none labelEq] at distinct
            | some other =>
                rw [definedLabels, List.filterMap_cons_some labelEq] at distinct
                exact distinct.of_cons
          rw [List.idxOf?_cons, if_neg (by simpa using notFirst),
            ih restDistinct defined]
          rfl

/-- Code stands in a block from an instruction on. -/
def StandsAt (block : List Instr) (start : Nat) (code : List Instr) : Prop :=
  ∀ (offset : Nat) (instr : Instr), code[offset]? = some instr →
    block[start + offset]? = some instr

variable {start : Nat} {first second code : List Instr}

theorem StandsAt.left (stands : StandsAt block start (first ++ second)) :
    StandsAt block start first := by
  intro offset instr found
  apply stands offset instr
  have inside : offset < first.length := by
    by_contra outside
    rw [List.getElem?_eq_none (by omega)] at found
    cases found
  rwa [List.getElem?_append_left inside]

theorem StandsAt.right (stands : StandsAt block start (first ++ second)) :
    StandsAt block (start + first.length) second := by
  intro offset instr found
  rw [Nat.add_assoc]
  apply stands
  rwa [List.getElem?_append_right (by omega), Nat.add_sub_cancel_left]

theorem StandsAt.head {instr : Instr}
    (stands : StandsAt block start (instr :: code)) :
    block[start]? = some instr :=
  stands 0 instr rfl

theorem StandsAt.tail {instr : Instr}
    (stands : StandsAt block start (instr :: code)) :
    StandsAt block (start + 1) code := by
  intro offset next found
  rw [Nat.add_assoc, Nat.add_comm 1 offset]
  exact stands (offset + 1) next found

theorem standsAt_self (block : List Instr) : StandsAt block 0 block := by
  intro offset instr found
  rwa [Nat.zero_add]

end Targets

/-- The operand is no register from a number on. -/
def Operand.Below (bound : Nat) : Operand → Prop
  | .reg register => register.index < bound
  | _ => True

/-- The target needs no register from a number on. -/
def Target.Below (bound : Nat) : Target → Prop
  | .var _ => True
  | .element _ index => index.Below bound

theorem Operand.Below.mono {bound larger : Nat} {operand : Operand}
    (below : operand.Below bound) (le : bound ≤ larger) :
    operand.Below larger := by
  cases operand with
  | reg register => exact Nat.lt_of_lt_of_le below le
  | int value => trivial
  | float value => trivial
  | var name => trivial

/-- Code that is made from one supply to another runs straight through, and
takes registers only. -/
structure Straight (before : Supply) (code : List Instr) (after : Supply) :
    Prop where
  label : after.label = before.label
  register : before.register ≤ after.register
  plain : ∀ instr ∈ code, instr.isControl = false

namespace Straight

variable {before between after : Supply} {first second : List Instr}
  {instr : Instr}

theorem nil : Straight before [] before :=
  ⟨rfl, Nat.le_refl _, by simp⟩

theorem append (firstStraight : Straight before first between)
    (secondStraight : Straight between second after) :
    Straight before (first ++ second) after := by
  refine ⟨secondStraight.label.trans firstStraight.label,
    Nat.le_trans firstStraight.register secondStraight.register, ?_⟩
  intro instr member
  rcases List.mem_append.mp member with inFirst | inSecond
  · exact firstStraight.plain instr inFirst
  · exact secondStraight.plain instr inSecond

theorem cons (plain : instr.isControl = false)
    (straight : Straight before first after) :
    Straight before (instr :: first) after :=
  ⟨straight.label, straight.register,
    List.forall_mem_cons.mpr ⟨plain, straight.plain⟩⟩

/-- An instruction that leaves its result in a new register. -/
theorem into (plain : instr.isControl = false) :
    Straight before [instr] before.nextRegister :=
  ⟨rfl, Nat.le_succ _, by simpa using plain⟩

theorem definedLabels_eq_nil (straight : Straight before first after) :
    definedLabels first = [] :=
  definedLabels_eq_nil_of_straight straight.plain

end Straight

namespace Emission

variable {types : TypeTable}

mutual

theorem expr_straight :
    ∀ (e : Expr) {supply : Supply} {emitted : Emitted Operand},
    expr types e supply = .ok emitted →
      Straight supply emitted.code emitted.supply ∧
        emitted.value.Below emitted.supply.register
  | .int node value, supply, emitted => by
      intro emits
      rw [expr_int_eq_ok emits]
      exact ⟨.nil, trivial⟩
  | .float node value, supply, emitted => by
      intro emits
      rw [expr_float_eq_ok emits]
      exact ⟨.nil, trivial⟩
  | .valueOf node (.var placeNode name), supply, emitted => by
      intro emits
      rw [expr_var_eq_ok emits]
      exact ⟨.nil, trivial⟩
  | .valueOf node (.element placeNode name index), supply, emitted => by
      intro emits
      obtain ⟨type, inner, _, innerEmits, rfl⟩ := expr_element_eq_ok emits
      exact ⟨(expr_straight index innerEmits).1.append (.into rfl),
        Nat.lt_succ_self _⟩
  | .binary node op left right, supply, emitted => by
      intro emits
      obtain ⟨type, first, second, _, firstEmits, secondEmits, rfl⟩ :=
        expr_binary_eq_ok emits
      have leftStraight := (expr_straight left firstEmits).1
      have rightStraight := (expr_straight right secondEmits).1
      exact ⟨leftStraight.append (rightStraight.append (.into rfl)),
        Nat.lt_succ_self _⟩
  | .signed node .plus operand, supply, emitted => by
      intro emits
      exact expr_straight operand (expr_plus_eq_ok emits)
  | .signed node .neg operand, supply, emitted => by
      intro emits
      obtain ⟨type, inner, _, innerEmits, rfl⟩ := expr_neg_eq_ok emits
      exact ⟨(expr_straight operand innerEmits).1.append (.into rfl),
        Nat.lt_succ_self _⟩
  | .call node callee args, supply, emitted => by
      intro emits
      obtain ⟨inner, innerEmits, rfl⟩ := expr_call_eq_ok emits
      exact ⟨(exprs_straight args innerEmits).1.append (.into rfl),
        Nat.lt_succ_self _⟩
  | .cast node target operand, supply, emitted => by
      intro emits
      obtain ⟨type, inner, _, innerEmits, rfl⟩ := expr_cast_eq_ok emits
      split
      · exact expr_straight operand innerEmits
      · exact ⟨(expr_straight operand innerEmits).1.append (.into rfl),
          Nat.lt_succ_self _⟩

theorem exprs_straight : ∀ (args : List Expr) {supply : Supply}
    {emitted : Emitted (List Operand)}, exprs types args supply = .ok emitted →
      Straight supply emitted.code emitted.supply ∧
        ∀ operand ∈ emitted.value, operand.Below emitted.supply.register
  | [], supply, emitted => by
      intro emits
      rw [exprs, pure_eq_ok_iff] at emits
      subst emits
      exact ⟨.nil, by simp⟩
  | first :: others, supply, emitted => by
      intro emits
      obtain ⟨head, tail, headEmits, tailEmits, rfl⟩ := exprs_cons_eq_ok emits
      obtain ⟨headStraight, headBelow⟩ := expr_straight first headEmits
      obtain ⟨tailStraight, tailBelow⟩ := exprs_straight others tailEmits
      refine ⟨headStraight.append tailStraight, ?_⟩
      intro operand member
      rcases List.mem_cons.mp member with rfl | inTail
      · exact headBelow.mono tailStraight.register
      · exact tailBelow operand inTail

end

theorem target_straight {held : Place} {supply : Supply}
    {emitted : Emitted (Target × BaseType)}
    (emits : target types held supply = .ok emitted) :
    Straight supply emitted.code emitted.supply ∧
      emitted.value.1.Below emitted.supply.register := by
  cases held with
  | var node name =>
      obtain ⟨type, _, rfl⟩ := target_var_eq_ok emits
      exact ⟨.nil, trivial⟩
  | element node name index =>
      obtain ⟨type, inner, _, innerEmits, rfl⟩ := target_element_eq_ok emits
      obtain ⟨straight, below⟩ := expr_straight index innerEmits
      exact ⟨straight, below⟩

theorem condition_straight {test : Condition} {supply : Supply}
    {emitted : Emitted Register}
    (emits : condition types test supply = .ok emitted) :
    Straight supply emitted.code emitted.supply ∧
      emitted.value.index < emitted.supply.register := by
  induction test generalizing supply emitted with
  | rel position op left right =>
      obtain ⟨type, first, second, _, firstEmits, secondEmits, rfl⟩ :=
        condition_rel_eq_ok emits
      have leftStraight := (expr_straight left firstEmits).1
      have rightStraight := (expr_straight right secondEmits).1
      exact ⟨leftStraight.append (rightStraight.append (.into rfl)),
        Nat.lt_succ_self _⟩
  | logic position op left right leftIH rightIH =>
      obtain ⟨first, second, firstEmits, secondEmits, rfl⟩ :=
        condition_logic_eq_ok emits
      have leftStraight := (leftIH firstEmits).1
      have rightStraight := (rightIH secondEmits).1
      exact ⟨leftStraight.append (rightStraight.append (.into rfl)),
        Nat.lt_succ_self _⟩
  | not position operand ih =>
      obtain ⟨inner, innerEmits, rfl⟩ := condition_not_eq_ok emits
      exact ⟨(ih innerEmits).1.append (.into rfl),
        Nat.lt_succ_self _⟩

theorem arraySize_straight {size : ArraySize} {supply : Supply}
    {emitted : Emitted Operand}
    (emits : arraySize types size supply = .ok emitted) :
    Straight supply emitted.code emitted.supply := by
  cases size with
  | fixed count =>
      rw [arraySize, pure_eq_ok_iff] at emits
      subst emits
      exact .nil
  | dynamic count => exact (expr_straight count emits).1

theorem locals_straight {declared : List Declaration} {supply : Supply}
    {emitted : Emitted Unit}
    (emits : locals types declared supply = .ok emitted) :
    Straight supply emitted.code emitted.supply := by
  induction declared generalizing supply emitted with
  | nil =>
      rw [locals, pure_eq_ok_iff] at emits
      subst emits
      exact .nil
  | cons first others ih =>
      cases sizeEq : first.type.size? with
      | none => exact ih (locals_scalar_eq_ok sizeEq emits)
      | some size =>
          obtain ⟨count, tail, countEmits, tailEmits, rfl⟩ :=
            locals_array_eq_ok sizeEq emits
          exact (arraySize_straight countEmits).append
            (.cons rfl (ih tailEmits))

end Emission

/-- The label belongs to a branch or loop with a number in a range. -/
def Label.Within (low high : Nat) : Label → Prop
  | .branch id _ => low ≤ id ∧ id < high
  | .loop id _ => low ≤ id ∧ id < high
  | .named _ => False

theorem Label.Within.mono {low high lower higher : Nat} {point : Label}
    (within : point.Within low high) (lowLe : lower ≤ low)
    (highLe : high ≤ higher) :
    point.Within lower higher := by
  cases point with
  | branch id part => exact ⟨Nat.le_trans lowLe within.1,
      Nat.lt_of_lt_of_le within.2 highLe⟩
  | loop id part => exact ⟨Nat.le_trans lowLe within.1,
      Nat.lt_of_lt_of_le within.2 highLe⟩
  | named name => exact within

theorem Label.Within.ne {low middle high : Nat} {point other : Label}
    (within : point.Within low middle)
    (otherWithin : other.Within middle high) :
    point ≠ other := by
  rintro rfl
  cases point with
  | branch id part => exact absurd within.2 (Nat.not_lt.mpr otherWithin.1)
  | loop id part => exact absurd within.2 (Nat.not_lt.mpr otherWithin.1)
  | named name => exact within

/-- Code that is made from one supply to another stands inside a function and
defines labels with new numbers only, each label once. -/
structure Numbered (before : Supply) (code : List Instr) (after : Supply) :
    Prop where
  label : before.label ≤ after.label
  within : ∀ point ∈ definedLabels code, point.Within before.label after.label
  distinct : (definedLabels code).Nodup
  inner : ∀ instr ∈ code, instr.isEdge = false

namespace Numbered

variable {before between after : Supply} {first second : List Instr}
  {instr : Instr}

theorem of_straight (straight : Straight before first after) :
    Numbered before first after := by
  refine ⟨Nat.le_of_eq straight.label.symm, ?_, ?_, ?_⟩
  · simp [straight.definedLabels_eq_nil]
  · simp [straight.definedLabels_eq_nil]
  · intro instr member
    have plain := straight.plain instr member
    cases instr <;> simp_all [Instr.isControl, Instr.isEdge]

theorem append (firstNumbered : Numbered before first between)
    (secondNumbered : Numbered between second after) :
    Numbered before (first ++ second) after := by
  refine ⟨Nat.le_trans firstNumbered.label secondNumbered.label, ?_, ?_, ?_⟩
  · intro point member
    rw [definedLabels_append, List.mem_append] at member
    rcases member with inFirst | inSecond
    · exact (firstNumbered.within point inFirst).mono (Nat.le_refl _)
        secondNumbered.label
    · exact (secondNumbered.within point inSecond).mono firstNumbered.label
        (Nat.le_refl _)
  · rw [definedLabels_append, List.nodup_append]
    refine ⟨firstNumbered.distinct, secondNumbered.distinct, ?_⟩
    intro point inFirst other inSecond
    exact (firstNumbered.within point inFirst).ne
      (secondNumbered.within other inSecond)
  · intro instr member
    rcases List.mem_append.mp member with inFirst | inSecond
    · exact firstNumbered.inner instr inFirst
    · exact secondNumbered.inner instr inSecond

theorem cons (unlabelled : instr.label? = none) (inner : instr.isEdge = false)
    (numbered : Numbered before first after) :
    Numbered before (instr :: first) after := by
  have sameLabels := definedLabels_cons_of_label?_eq_none unlabelled first
  refine ⟨numbered.label, ?_, ?_,
    List.forall_mem_cons.mpr ⟨inner, numbered.inner⟩⟩
  · rw [sameLabels]
    exact numbered.within
  · rw [sameLabels]
    exact numbered.distinct

theorem singleton (unlabelled : instr.label? = none)
    (inner : instr.isEdge = false) : Numbered before [instr] before :=
  .cons unlabelled inner (.of_straight .nil)

/-- A branch or loop takes a number for labels of its own, which stand
somewhere between the code of its parts. -/
theorem enclose (own : List Label) {code : List Instr}
    (parts : Numbered before.nextLabel first after)
    (labels : (definedLabels code).Perm (own ++ definedLabels first))
    (ownDistinct : own.Nodup)
    (ownWithin : ∀ point ∈ own, point.Within before.label (before.label + 1))
    (inner : ∀ instr ∈ code, instr.isEdge = false) :
    Numbered before code after := by
  have labelLt : before.label + 1 ≤ after.label := parts.label
  refine ⟨Nat.le_of_succ_le labelLt, ?_, ?_, inner⟩
  · intro point member
    rcases List.mem_append.mp (labels.mem_iff.mp member) with inOwn | inParts
    · exact (ownWithin point inOwn).mono (Nat.le_refl _) labelLt
    · exact (parts.within point inParts).mono (Nat.le_succ _) (Nat.le_refl _)
  · rw [labels.nodup_iff, List.nodup_append]
    refine ⟨ownDistinct, parts.distinct, ?_⟩
    intro point inOwn other inParts
    exact (ownWithin point inOwn).ne (parts.within other inParts)

end Numbered

theorem label_perm (middle last : Label) (first second : List Label) :
    (first ++ middle :: (second ++ [last])).Perm
      (middle :: last :: (first ++ second)) := by
  have lastFirst := List.perm_append_singleton last (first ++ second)
  rw [List.append_assoc] at lastFirst
  exact List.perm_middle.trans (lastFirst.cons middle)

namespace Emission

variable {types : TypeTable}

mutual

theorem stmt_numbered : ∀ (s : Stmt) {exit? : Option Label} {supply : Supply}
    {emitted : Emitted Unit}, stmt types exit? s supply = .ok emitted →
      Numbered supply emitted.code emitted.supply
  | .assign position held value, exit?, supply, emitted => by
      intro emits
      obtain ⟨dest, source, destEmits, sourceEmits, rfl⟩ :=
        stmt_assign_eq_ok emits
      have destNumbered := Numbered.of_straight (target_straight destEmits).1
      have sourceNumbered :=
        Numbered.of_straight (expr_straight value sourceEmits).1
      exact destNumbered.append (sourceNumbered.append (.singleton rfl rfl))
  | .ifThen position test thenBranch, exit?, supply, emitted => by
      intro emits
      obtain ⟨tested, inner, testedEmits, innerEmits, rfl⟩ :=
        stmt_ifThen_eq_ok emits
      have testedStraight := (condition_straight testedEmits).1
      have innerNumbered := stmt_numbered thenBranch innerEmits
      have parts := (Numbered.of_straight testedStraight).append innerNumbered
      refine parts.enclose
        [.branch supply.label .thenPart,
          .branch supply.label .endPart] ?_ ?_ ?_ ?_
      · simp [testedStraight.definedLabels_eq_nil]
      · simp
      · simp [Label.Within]
      · have edges := parts.inner
        simp_all [Instr.isEdge, or_imp, forall_and]
  | .ifElse position test thenBranch elseBranch, exit?, supply, emitted => by
      intro emits
      obtain ⟨tested, first, second, testedEmits, firstEmits, secondEmits,
        rfl⟩ := stmt_ifElse_eq_ok emits
      have testedStraight := (condition_straight testedEmits).1
      have firstNumbered := stmt_numbered thenBranch firstEmits
      have secondNumbered := stmt_numbered elseBranch secondEmits
      have parts := (Numbered.of_straight testedStraight).append
        (firstNumbered.append secondNumbered)
      refine parts.enclose
        [.branch supply.label .thenPart, .branch supply.label .elsePart,
          .branch supply.label .endPart] ?_ ?_ ?_ ?_
      · simpa [testedStraight.definedLabels_eq_nil] using label_perm _ _ _ _
      · simp
      · simp [Label.Within]
      · have edges := parts.inner
        simp_all [Instr.isEdge, or_imp, forall_and]
  | .whileDo position test body, exit?, supply, emitted => by
      intro emits
      obtain ⟨tested, inner, testedEmits, innerEmits, rfl⟩ :=
        stmt_whileDo_eq_ok emits
      have testedStraight := (condition_straight testedEmits).1
      have innerNumbered := stmt_numbered body innerEmits
      have parts := (Numbered.of_straight testedStraight).append innerNumbered
      refine parts.enclose [.loop supply.label .startPart,
        .loop supply.label .bodyPart, .loop supply.label .exitPart] ?_ ?_ ?_ ?_
      · simp [testedStraight.definedLabels_eq_nil]
      · simp
      · simp [Label.Within]
      · have edges := parts.inner
        simp_all [Instr.isEdge, or_imp, forall_and]
  | .block position statements, exit?, supply, emitted => by
      intro emits
      rw [stmt] at emits
      exact stmts_numbered statements emits
  | .breakLoop position, exit?, supply, emitted => by
      intro emits
      obtain ⟨exit, _, rfl⟩ := stmt_breakLoop_eq_ok emits
      exact .singleton rfl rfl
  | .skip position, exit?, supply, emitted => by
      intro emits
      rw [stmt_skip_eq_ok emits]
      exact .of_straight .nil
  | .returnValue position value, exit?, supply, emitted => by
      intro emits
      obtain ⟨source, sourceEmits, rfl⟩ := stmt_returnValue_eq_ok emits
      exact (Numbered.of_straight (expr_straight value sourceEmits).1).append
        (.singleton rfl rfl)
  | .read position held, exit?, supply, emitted => by
      intro emits
      obtain ⟨dest, destEmits, rfl⟩ := stmt_read_eq_ok emits
      exact (Numbered.of_straight (target_straight destEmits).1).append
        (.singleton rfl rfl)
  | .write position value, exit?, supply, emitted => by
      intro emits
      obtain ⟨source, sourceEmits, rfl⟩ := stmt_write_eq_ok emits
      exact (Numbered.of_straight (expr_straight value sourceEmits).1).append
        (.singleton rfl rfl)
  | .print position text, exit?, supply, emitted => by
      intro emits
      rw [stmt_print_eq_ok emits]
      exact .singleton rfl rfl
  | .call position callee args, exit?, supply, emitted => by
      intro emits
      obtain ⟨inner, innerEmits, rfl⟩ := stmt_call_eq_ok emits
      exact (Numbered.of_straight (exprs_straight args innerEmits).1).append
        (.singleton rfl rfl)

theorem stmts_numbered :
    ∀ (statements : List Stmt) {exit? : Option Label} {supply : Supply}
    {emitted : Emitted Unit},
    stmts types exit? statements supply = .ok emitted →
      Numbered supply emitted.code emitted.supply
  | [], exit?, supply, emitted => by
      intro emits
      rw [stmts, pure_eq_ok_iff] at emits
      subst emits
      exact .of_straight .nil
  | first :: others, exit?, supply, emitted => by
      intro emits
      obtain ⟨head, tail, headEmits, tailEmits, rfl⟩ := stmts_cons_eq_ok emits
      exact (stmt_numbered first headEmits).append
        (stmts_numbered others tailEmits)

end

/-- The code of a function stands between its two edges and defines each label
once. -/
theorem function_framed {definition : Function} {supply : Supply}
    {emitted : Emitted Unit}
    (emits : function types definition supply = .ok emitted) :
    ∃ inside, emitted.code =
        .enter definition.name (definition.params.map Declaration.name) ::
          (inside ++ [.leave definition.name]) ∧
      (∀ instr ∈ inside, instr.isEdge = false) ∧
        (definedLabels emitted.code).Nodup := by
  obtain ⟨room, body, roomEmits, bodyEmits, rfl⟩ := function_eq_ok emits
  have inside := (Numbered.of_straight (locals_straight roomEmits)).append
    (stmts_numbered definition.body bodyEmits)
  refine ⟨room.code ++ body.code, by simp, inside.inner, ?_⟩
  have sameLabels : definedLabels (.enter definition.name
      (definition.params.map Declaration.name) ::
        (room.code ++ (body.code ++ [.leave definition.name]))) =
      definedLabels (room.code ++ body.code) := by
    have leaveLabels : definedLabels [.leave definition.name] = [] := rfl
    rw [definedLabels_cons_of_label?_eq_none rfl]
    simp [leaveLabels]
  rw [sameLabels]
  exact inside.distinct

end Emission

end PL0

