import PL0.Proofs.Code.Fields
import PL0.Proofs.Code.Layout
import PL0.Proofs.Code.Typing

/-!
# Every jump arrives

The code of a program is a row of blocks, one for each function.  Inside a
block every jump leads to a label of the same block, and every label is there
because something jumps to it.  While the code of a loop is being made there
are jumps to its exit that is still to come, so for a single statement the
exit of the loop around it is let pass.
-/

namespace PL0

/-- The label that an instruction can jump to. -/
def Instr.goal? : Instr → Option Label
  | .jump target => some target
  | .jumpIf _ target => some target
  | _ => none

/-- The labels that code can jump to, in order. -/
def jumpTargets (code : List Instr) : List Label :=
  code.filterMap Instr.goal?

@[simp]
theorem jumpTargets_nil : jumpTargets [] = [] :=
  rfl

@[simp]
theorem jumpTargets_append (first second : List Instr) :
    jumpTargets (first ++ second) = jumpTargets first ++ jumpTargets second :=
  List.filterMap_append

@[simp]
theorem jumpTargets_cons_jump (target : Label) (code : List Instr) :
    jumpTargets (.jump target :: code) = target :: jumpTargets code :=
  rfl

@[simp]
theorem jumpTargets_cons_jumpIf (test : Register) (target : Label)
    (code : List Instr) :
    jumpTargets (.jumpIf test target :: code) = target :: jumpTargets code :=
  rfl

@[simp]
theorem jumpTargets_cons_label (point : Label) (code : List Instr) :
    jumpTargets (.label point :: code) = jumpTargets code :=
  rfl

theorem jumpTargets_eq_nil_of_straight {code : List Instr}
    (straight : ∀ instr ∈ code, instr.isControl = false) :
    jumpTargets code = [] := by
  rw [jumpTargets, List.filterMap_eq_nil_iff]
  intro instr member
  have plain := straight instr member
  cases instr <;> simp_all [Instr.isControl, Instr.goal?]

theorem Straight.jumpTargets_eq_nil {before after : Supply} {code : List Instr}
    (straight : Straight before code after) : jumpTargets code = [] :=
  jumpTargets_eq_nil_of_straight straight.plain

/-- Jumps lead to labels of the code or out of the loop around it, and to
every label of the code something jumps. -/
structure Linked (exit? : Option Label) (code : List Instr) : Prop where
  closed : ∀ target ∈ jumpTargets code, target ∈ definedLabels code ∨
    exit? = some target
  reached : definedLabels code ⊆ jumpTargets code

namespace Linked

variable {exit? : Option Label} {first second code : List Instr} {instr : Instr}

theorem nil : Linked exit? [] :=
  ⟨by simp, by simp⟩

theorem of_straight {before after : Supply}
    (straight : Straight before first after) : Linked exit? first := by
  refine ⟨?_, ?_⟩
  · simp [straight.jumpTargets_eq_nil]
  · simp [straight.definedLabels_eq_nil]

theorem append (firstLinked : Linked exit? first)
    (secondLinked : Linked exit? second) : Linked exit? (first ++ second) := by
  refine ⟨?_, ?_⟩
  · intro target member
    rw [jumpTargets_append, List.mem_append] at member
    rw [definedLabels_append, List.mem_append]
    rcases member with inFirst | inSecond
    · exact (firstLinked.closed target inFirst).imp_left .inl
    · exact (secondLinked.closed target inSecond).imp_left .inr
  · rw [definedLabels_append, jumpTargets_append]
    exact List.append_subset.mpr
      ⟨List.subset_append_of_subset_left _ firstLinked.reached,
      List.subset_append_of_subset_right _ secondLinked.reached⟩

/-- An instruction that neither jumps nor is jumped to. -/
theorem singleton (unlabelled : instr.label? = none)
    (goalless : instr.goal? = none) : Linked exit? [instr] := by
  refine ⟨?_, ?_⟩
  · simp [jumpTargets, goalless]
  · simp [definedLabels, unlabelled]

/-- A branch or loop jumps to labels of its own, and to all of them.  The
parts of a loop may leave it through one of these. -/
theorem enclose (own : List Label) {inner? : Option Label}
    (parts : Linked inner? first)
    (labels : ∀ point, point ∈ definedLabels code ↔
      point ∈ own ∨ point ∈ definedLabels first)
    (targets : ∀ point, point ∈ jumpTargets code ↔
      point ∈ own ∨ point ∈ jumpTargets first)
    (exits : inner? = exit? ∨ ∃ exit ∈ own, inner? = some exit) :
    Linked exit? code := by
  refine ⟨?_, ?_⟩
  · intro target member
    rw [labels]
    rcases (targets target).mp member with inOwn | inParts
    · exact .inl (.inl inOwn)
    rcases parts.closed target inParts with inside | outside
    · exact .inl (.inr inside)
    rcases exits with same | ⟨exit, inOwn, isExit⟩
    · exact .inr (same ▸ outside)
    · obtain rfl : exit = target := Option.some.inj (isExit.symm.trans outside)
      exact .inl (.inl inOwn)
  · intro point member
    rw [targets]
    exact ((labels point).mp member).imp_right fun inParts =>
      parts.reached inParts

end Linked

namespace Emission

variable {types : TypeTable}

mutual

theorem stmt_linked : ∀ (s : Stmt) {exit? : Option Label} {supply : Supply}
    {emitted : Emitted Unit}, stmt types exit? s supply = .ok emitted →
      Linked exit? emitted.code
  | .assign position held value, exit?, supply, emitted => by
      intro emits
      obtain ⟨dest, source, destEmits, sourceEmits, rfl⟩ :=
        stmt_assign_eq_ok emits
      have destLinked : Linked exit? dest.code :=
        .of_straight (target_straight destEmits).1
      have sourceLinked : Linked exit? source.code :=
        .of_straight (expr_straight value sourceEmits).1
      exact destLinked.append (sourceLinked.append (.singleton rfl rfl))
  | .ifThen position test thenBranch, exit?, supply, emitted => by
      intro emits
      obtain ⟨tested, inner, testedEmits, innerEmits, rfl⟩ :=
        stmt_ifThen_eq_ok emits
      have testedStraight := (condition_straight testedEmits).1
      refine (stmt_linked thenBranch innerEmits).enclose
        [.branch supply.label .thenPart,
          .branch supply.label .endPart] ?_ ?_ (.inl rfl)
      · intro point
        simp [testedStraight.definedLabels_eq_nil, or_assoc, or_comm]
      · intro point
        simp [testedStraight.jumpTargets_eq_nil, or_assoc, or_comm]
  | .ifElse position test thenBranch elseBranch, exit?, supply, emitted => by
      intro emits
      obtain ⟨tested, first, second, testedEmits, firstEmits,
        secondEmits, rfl⟩ :=
        stmt_ifElse_eq_ok emits
      have testedStraight := (condition_straight testedEmits).1
      have parts :=
        (stmt_linked thenBranch firstEmits).append
          (stmt_linked elseBranch secondEmits)
      refine parts.enclose [.branch supply.label .thenPart,
        .branch supply.label .elsePart, .branch supply.label .endPart] ?_ ?_
          (.inl rfl)
      · intro point
        simp [testedStraight.definedLabels_eq_nil, or_assoc, or_comm,
          or_left_comm]
      · intro point
        simp [testedStraight.jumpTargets_eq_nil, or_assoc, or_comm,
          or_left_comm]
  | .whileDo position test body, exit?, supply, emitted => by
      intro emits
      obtain ⟨tested, inner, testedEmits, innerEmits, rfl⟩ :=
        stmt_whileDo_eq_ok emits
      have testedStraight := (condition_straight testedEmits).1
      refine (stmt_linked body innerEmits).enclose
        [.loop supply.label .startPart,
        .loop supply.label .bodyPart, .loop supply.label .exitPart] ?_ ?_
        (.inr ⟨_, by simp, rfl⟩)
      · intro point
        simp [testedStraight.definedLabels_eq_nil, or_assoc, or_comm,
          or_left_comm]
      · intro point
        simp [testedStraight.jumpTargets_eq_nil, or_assoc, or_comm,
          or_left_comm]
  | .block position statements, exit?, supply, emitted => by
      intro emits
      rw [stmt] at emits
      exact stmts_linked statements emits
  | .breakLoop position, exit?, supply, emitted => by
      intro emits
      obtain ⟨exit, isExit, rfl⟩ := stmt_breakLoop_eq_ok emits
      refine ⟨?_, List.nil_subset _⟩
      simp [isExit]
  | .skip position, exit?, supply, emitted => by
      intro emits
      rw [stmt_skip_eq_ok emits]
      exact .nil
  | .returnValue position value, exit?, supply, emitted => by
      intro emits
      obtain ⟨source, sourceEmits, rfl⟩ := stmt_returnValue_eq_ok emits
      exact (Linked.of_straight (expr_straight value sourceEmits).1).append
        (.singleton rfl rfl)
  | .read position held, exit?, supply, emitted => by
      intro emits
      obtain ⟨dest, destEmits, rfl⟩ := stmt_read_eq_ok emits
      exact (Linked.of_straight (target_straight destEmits).1).append
        (.singleton rfl rfl)
  | .write position value, exit?, supply, emitted => by
      intro emits
      obtain ⟨source, sourceEmits, rfl⟩ := stmt_write_eq_ok emits
      exact (Linked.of_straight (expr_straight value sourceEmits).1).append
        (.singleton rfl rfl)
  | .print position text, exit?, supply, emitted => by
      intro emits
      rw [stmt_print_eq_ok emits]
      exact .singleton rfl rfl
  | .call position callee args, exit?, supply, emitted => by
      intro emits
      obtain ⟨inner, innerEmits, rfl⟩ := stmt_call_eq_ok emits
      exact (Linked.of_straight (exprs_straight args innerEmits).1).append
        (.singleton rfl rfl)

theorem stmts_linked :
    ∀ (statements : List Stmt) {exit? : Option Label} {supply : Supply}
    {emitted : Emitted Unit},
    stmts types exit? statements supply = .ok emitted →
      Linked exit? emitted.code
  | [], exit?, supply, emitted => by
      intro emits
      rw [stmts, pure_eq_ok_iff] at emits
      subst emits
      exact .nil
  | first :: others, exit?, supply, emitted => by
      intro emits
      obtain ⟨head, tail, headEmits, tailEmits, rfl⟩ := stmts_cons_eq_ok emits
      exact (stmt_linked first headEmits).append (stmts_linked others tailEmits)

end

/-- The code of functions is a row of blocks, one for each function in order.
What holds of the inside of each block and of pieces that are put together
also holds of all the insides in a row. -/
theorem functions_bodies {Holds : Supply → List Instr → Supply → Prop}
    (nil : ∀ supply, Holds supply [] supply)
    (append : ∀ {before between after : Supply} {first second : List Instr},
      Holds before first between → Holds between second after →
        Holds before (first ++ second) after)
    (inside :
      ∀ {definition : Function} {supply : Supply} {room body : Emitted Unit},
      locals types definition.locals supply = .ok room →
        stmts types none definition.body room.supply = .ok body →
          Holds supply (room.code ++ body.code) body.supply)
    {definitions : List Function} {supply : Supply} {emitted : Emitted Unit}
    (emits : functions types definitions supply = .ok emitted) :
    ∃ bodies : List (List Instr), bodies.length = definitions.length ∧
      emitted.code = (List.zipWith Function.block definitions bodies).flatten ∧
      Holds supply bodies.flatten emitted.supply ∧
      ∀ body ∈ bodies, ∃ before after, Holds before body after := by
  induction definitions generalizing supply emitted with
  | nil =>
      rw [functions, pure_eq_ok_iff] at emits
      subst emits
      exact ⟨[], rfl, rfl, nil supply, by simp⟩
  | cons first others ih =>
      obtain ⟨head, tail, headEmits, tailEmits, rfl⟩ :=
        functions_cons_eq_ok emits
      obtain ⟨room, body, roomEmits, bodyEmits, rfl⟩ := function_eq_ok headEmits
      obtain ⟨bodies, lengthEq, codeEq, all, each⟩ := ih tailEmits
      have firstHolds := inside roomEmits bodyEmits
      refine ⟨(room.code ++ body.code) :: bodies, ?_, ?_, ?_, ?_⟩
      · rw [List.length_cons, lengthEq, List.length_cons]
      · rw [codeEq, List.zipWith_cons_cons, List.flatten_cons, Function.block]
        simp
      · exact append firstHolds all
      · exact List.forall_mem_cons.mpr ⟨⟨_, _, firstHolds⟩, each⟩

end Emission

/-- What is collected from the instructions of blocks is found inside them, if
the edges of functions give nothing. -/
theorem flatMap_blocks {α : Type} {collect : Instr → List α}
    (edges : ∀ instr : Instr, instr.isEdge = true → collect instr = [])
    {definitions : List Function} {bodies : List (List Instr)}
    (lengthEq : bodies.length = definitions.length) :
    (List.zipWith Function.block definitions bodies).flatten.flatMap collect =
      bodies.flatten.flatMap collect := by
  induction bodies generalizing definitions with
  | nil => rw [List.zipWith_nil_right]
  | cons body bodies ih =>
      cases definitions with
      | nil => simp at lengthEq
      | cons first others =>
          have enterEdge :=
            edges (.enter first.name (first.params.map Declaration.name)) rfl
          have leaveEdge := edges (.leave first.name) rfl
          rw [List.zipWith_cons_cons, List.flatten_cons, List.flatten_cons,
            List.flatMap_append, List.flatMap_append,
            ih (Nat.succ.inj lengthEq), Function.block]
          simp [enterEdge, leaveEdge]

theorem filterMap_blocks {α : Type} {collect : Instr → Option α}
    (edges : ∀ instr : Instr, instr.isEdge = true → collect instr = none)
    {definitions : List Function} {bodies : List (List Instr)}
    (lengthEq : bodies.length = definitions.length) :
    (List.zipWith Function.block definitions bodies).flatten.filterMap collect =
      bodies.flatten.filterMap collect := by
  rw [List.filterMap_eq_flatMap_toList, List.filterMap_eq_flatMap_toList]
  apply flatMap_blocks _ lengthEq
  intro instr isEdge
  rw [edges instr isEdge, Option.toList_none]

theorem Label.Within.isNumbered {low high : Nat} {point : Label}
    (within : point.Within low high) : point.IsNumbered := by
  cases point with
  | branch id part => trivial
  | loop id part => trivial
  | named name => exact within

/-- No two labels of numbered code are written alike. -/
theorem Numbered.texts_nodup {before after : Supply} {code : List Instr}
    (numbered : Numbered before code after) :
    ((definedLabels code).map Label.text).Nodup := by
  refine numbered.distinct.map_on ?_
  intro point member other otherMember same
  exact Label.text_injective (numbered.within point member).isNumbered
    (numbered.within other otherMember).isNumbered same

/-- Code that is made from one supply to another and that no jump enters or
leaves. -/
structure SelfContained (before : Supply) (code : List Instr) (after : Supply) :
    Prop where
  numbered : Numbered before code after
  linked : Linked none code

namespace SelfContained

variable {before between after : Supply} {first second : List Instr}

theorem nil (supply : Supply) : SelfContained supply [] supply :=
  ⟨.of_straight .nil, .nil⟩

theorem append (firstContained : SelfContained before first between)
    (secondContained : SelfContained between second after) :
    SelfContained before (first ++ second) after :=
  ⟨firstContained.numbered.append secondContained.numbered,
    firstContained.linked.append secondContained.linked⟩

/-- The body of a function has no loop around it whose exit it could take. -/
theorem inside {types : TypeTable} {definition : Function} {supply : Supply}
    {room body : Emitted Unit}
    (roomEmits : Emission.locals types definition.locals supply = .ok room)
    (bodyEmits : Emission.stmts types none definition.body room.supply =
      .ok body) :
    SelfContained supply (room.code ++ body.code) body.supply := by
  have roomStraight := Emission.locals_straight roomEmits
  have bodyContained : SelfContained room.supply body.code body.supply :=
    ⟨Emission.stmts_numbered _ bodyEmits, Emission.stmts_linked _ bodyEmits⟩
  exact append ⟨.of_straight roomStraight,
    .of_straight roomStraight⟩ bodyContained

end SelfContained

/-- Control never leaves a function by a jump.  The code of a program is a row
of blocks, one for each function in order; no two labels of the code are
written alike; inside each block every jump leads to a label of the block, and
every label of the block is where some jump of it leads. -/
theorem lower_jumps_closed {program : Program} {types : TypeTable}
    {code : List Instr} (lowered : lower program types = .ok code) :
    ((definedLabels code).map Label.text).Nodup ∧
      ∃ bodies : List (List Instr), bodies.length = program.definitions.length ∧
        code = (List.zipWith Function.block program.definitions
          bodies).flatten ∧
        ∀ body ∈ bodies, (∀ instr ∈ body, instr.isEdge = false) ∧
          (∀ target ∈ jumpTargets body, target ∈ definedLabels body) ∧
          ∀ point ∈ definedLabels body, point ∈ jumpTargets body := by
  obtain ⟨emitted, emits, rfl⟩ := lower_eq_ok_iff.mp lowered
  obtain ⟨bodies, lengthEq, codeEq, all, each⟩ :=
    Emission.functions_bodies SelfContained.nil SelfContained.append
      SelfContained.inside emits
  refine ⟨?_, bodies, lengthEq, codeEq, ?_⟩
  · have sameLabels :
        definedLabels emitted.code = definedLabels bodies.flatten := by
      rw [codeEq]
      apply filterMap_blocks _ lengthEq
      intro instr isEdge
      cases instr <;> simp_all [Instr.isEdge, Instr.label?]
    rw [sameLabels]
    exact all.numbered.texts_nodup
  · intro body member
    obtain ⟨_, _, contained⟩ := each body member
    refine ⟨contained.numbered.inner, ?_, contained.linked.reached⟩
    intro target isTarget
    exact (contained.linked.closed target isTarget).resolve_right (by simp)

/-- Two loops, one inside the other, and a `break` in each:
`while i < 10 do begin while i < 5 do break; break end`. -/
def nestedLoops : Program :=
  let position : Position := ⟨1, 1⟩
  let below (id : NodeId) (bound : Int64) : Condition :=
    .rel position .lt (.valueOf ⟨id + 1, position⟩ (.var ⟨id, position⟩ "i"))
      (.int ⟨id + 2, position⟩ bound)
  .statement (.whileDo position (below 0 10) (.block position
    [.whileDo position (below 3 5) (.breakLoop position), .breakLoop position]))

/-- The code of the two loops, if `i` is an integer.  Each `break` leaves its
own loop. -/
def nestedLoopsCode : List Instr :=
  [.enter "main" [], .label (.loop 0 .startPart),
    .compare .lt .int (.var "i") (.int 10) ⟨0⟩, .jumpIf ⟨0⟩ (.loop 0 .bodyPart),
    .jump (.loop 0 .exitPart), .label (.loop 0 .bodyPart),
    .label (.loop 1 .startPart), .compare .lt .int (.var "i") (.int 5) ⟨1⟩,
    .jumpIf ⟨1⟩ (.loop 1 .bodyPart), .jump (.loop 1 .exitPart),
    .label (.loop 1 .bodyPart),
    .jump (.loop 1 .exitPart), .jump (.loop 1 .startPart),
    .label (.loop 1 .exitPart),
    .jump (.loop 0 .exitPart), .jump (.loop 0 .startPart),
    .label (.loop 0 .exitPart),
    .leave "main"]

theorem lower_jumps_closed_nestedLoops :
    lower nestedLoops (.ofList [(1, ValueType.int), (4, ValueType.int)]) =
      .ok nestedLoopsCode ∧
      ((definedLabels nestedLoopsCode).map Label.text).Nodup ∧
      ∃ bodies : List (List Instr), bodies.length = 1 ∧
        nestedLoopsCode =
          (List.zipWith Function.block nestedLoops.definitions bodies).flatten ∧
        ∀ body ∈ bodies, (∀ instr ∈ body, instr.isEdge = false) ∧
          (∀ target ∈ jumpTargets body, target ∈ definedLabels body) ∧
          ∀ point ∈ definedLabels body, point ∈ jumpTargets body := by
  have lowered :
      lower nestedLoops (.ofList [(1, ValueType.int), (4, ValueType.int)]) =
      .ok nestedLoopsCode := by decide +kernel
  exact ⟨lowered, lower_jumps_closed lowered⟩

end PL0
