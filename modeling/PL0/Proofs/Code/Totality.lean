import PL0.Compile
import PL0.Proofs.Code.Success
import PL0.Proofs.Typing.Annotations

/-!
# Accepted programs have code

Making code looks up the types of nodes that occur in the program, and
checking a program without a fault has recorded the types of all of them.
Every `break` of a well-typed program has a loop around it.  So code can be
made for every program that checking accepts, and compiling a text never ends
in an internal error.
-/

namespace PL0

mutual

theorem Expr.required_subset :
    ∀ e : Expr, e.required ⊆ Occurrence.ids e.occurrences
  | .int .. => by simp [Expr.required]
  | .float .. => by simp [Expr.required]
  | .valueOf node (.var placeNode name) => by simp [Expr.required]
  | .valueOf node (.element placeNode name index) => by
      rw [Expr.required]
      refine List.cons_subset.mpr ⟨Expr.id_mem_ids (.valueOf node _), ?_⟩
      intro id member
      simp [Expr.occurrences, Place.occurrences,
        Expr.required_subset index member]
  | .binary node op left right => by
      rw [Expr.required]
      refine List.cons_subset.mpr
        ⟨Expr.id_mem_ids (.binary node op left right), ?_⟩
      have parts := Occurrence.append_subset_ids (Expr.required_subset left)
        (Expr.required_subset right)
      intro id member
      rw [Expr.occurrences, Occurrence.ids_append]
      exact List.mem_append_left _ (parts member)
  | .signed node op operand => by
      rw [Expr.required]
      refine List.cons_subset.mpr
        ⟨Expr.id_mem_ids (.signed node op operand), ?_⟩
      intro id member
      simp [Expr.occurrences, Expr.required_subset operand member]
  | .call node callee args => by
      intro id member
      have inArgs :=
        Expr.all_required_subset args (by simpa [Expr.required] using member)
      simp [Expr.occurrences, inArgs]
  | .cast node target operand => by
      rw [Expr.required, Expr.occurrences, Occurrence.ids_append]
      exact List.subset_append_of_subset_left _
        (List.cons_subset.mpr ⟨operand.id_mem_ids,
          Expr.required_subset operand⟩)

theorem Expr.all_required_subset : ∀ args : List Expr,
    args.flatMap Expr.required ⊆ Occurrence.ids (Expr.allOccurrences args)
  | [] => by simp
  | first :: others => by
      rw [List.flatMap_cons, Expr.allOccurrences]
      exact Occurrence.append_subset_ids (Expr.required_subset first)
        (Expr.all_required_subset others)

end

theorem Place.required_subset (held : Place) :
    held.required ⊆ Occurrence.ids held.occurrences := by
  cases held with
  | var node name =>
      exact List.cons_subset.mpr ⟨Place.id_mem_ids (.var node name),
        List.nil_subset _⟩
  | element node name index =>
      refine List.cons_subset.mpr
        ⟨Place.id_mem_ids (.element node name index), ?_⟩
      intro id member
      simp [Place.occurrences, index.required_subset member]

theorem Condition.required_subset (test : Condition) :
    test.required ⊆ Occurrence.ids test.occurrences := by
  induction test with
  | rel position op left right =>
      refine List.cons_subset.mpr ⟨?_, ?_⟩
      · simp [Condition.occurrences, left.id_mem_ids]
      · exact Occurrence.append_subset_ids left.required_subset
          right.required_subset
  | logic position op left right leftIH rightIH =>
      exact Occurrence.append_subset_ids leftIH rightIH
  | not position operand ih => exact ih

mutual

theorem Stmt.required_subset :
    ∀ s : Stmt, s.required ⊆ Occurrence.ids s.occurrences
  | .assign position target value => by
      rw [Stmt.required, Stmt.occurrences]
      exact Occurrence.append_subset_ids target.required_subset
        value.required_subset
  | .ifThen position test thenBranch => by
      rw [Stmt.required, Stmt.occurrences]
      exact Occurrence.append_subset_ids test.required_subset
        (Stmt.required_subset thenBranch)
  | .ifElse position test thenBranch elseBranch => by
      rw [Stmt.required, Stmt.occurrences, List.append_assoc]
      exact Occurrence.append_subset_ids test.required_subset
        (Occurrence.append_subset_ids (Stmt.required_subset thenBranch)
          (Stmt.required_subset elseBranch))
  | .whileDo position test body => by
      rw [Stmt.required, Stmt.occurrences]
      exact Occurrence.append_subset_ids test.required_subset
        (Stmt.required_subset body)
  | .block position statements => by
      rw [Stmt.required, Stmt.occurrences]
      exact Stmt.all_required_subset statements
  | .breakLoop position => by simp [Stmt.required]
  | .skip position => by simp [Stmt.required]
  | .returnValue position value => by
      rw [Stmt.required, Stmt.occurrences]
      exact value.required_subset
  | .read position target => by
      rw [Stmt.required, Stmt.occurrences]
      exact target.required_subset
  | .write position value => by
      rw [Stmt.required, Stmt.occurrences]
      exact value.required_subset
  | .print position text => by simp [Stmt.required]
  | .call position callee args => by
      rw [Stmt.required, Stmt.occurrences]
      exact Expr.all_required_subset args

theorem Stmt.all_required_subset : ∀ statements : List Stmt,
    statements.flatMap Stmt.required ⊆
      Occurrence.ids (Stmt.allOccurrences statements)
  | [] => by simp
  | first :: others => by
      rw [List.flatMap_cons, Stmt.allOccurrences]
      exact Occurrence.append_subset_ids (Stmt.required_subset first)
        (Stmt.all_required_subset others)

end

theorem Declaration.required_subset (declaration : Declaration) :
    declaration.required ⊆ Occurrence.ids declaration.occurrences := by
  unfold Declaration.required Declaration.occurrences
  cases sizeEq : declaration.type.size? with
  | none => simp
  | some size =>
      cases size with
      | fixed count => simp
      | dynamic count => exact count.required_subset

theorem Function.required_subset (function : Function) :
    function.required ⊆ Occurrence.ids function.occurrences := by
  refine Occurrence.append_subset_ids ?_
    (Stmt.all_required_subset function.body)
  rintro id member
  obtain ⟨declaration, declared, required⟩ := List.mem_flatMap.mp member
  obtain ⟨occurrence, occurs, rfl⟩ :=
    List.mem_map.mp (declaration.required_subset required)
  refine Occurrence.id_mem_ids (List.mem_flatMap.mpr ⟨declaration, ?_, occurs⟩)
  exact List.mem_append_right _ declared

/-- Making code for a program looks up the types of nodes of the program
only. -/
theorem Program.required_subset_ids (program : Program) :
    program.required ⊆ program.ids := by
  intro id member
  obtain ⟨definition, defined, required⟩ := List.mem_flatMap.mp member
  obtain ⟨occurrence, occurs, rfl⟩ :=
    List.mem_map.mp (definition.required_subset required)
  exact Occurrence.id_mem_ids
    (List.mem_flatMap.mpr ⟨definition, defined, occurs⟩)

theorem Stmt.WellTyped.breaksLoops {environment : Environment} {inLoop : Bool}
    {s : Stmt} (typed : s.WellTyped environment inLoop) :
    s.BreaksLoops inLoop := by
  induction typed with
  | ifThen testTyped thenTyped ih =>
      rw [Stmt.BreaksLoops]
      exact ih
  | ifElse testTyped thenTyped elseTyped thenIH elseIH =>
      rw [Stmt.BreaksLoops]
      exact ⟨thenIH, elseIH⟩
  | whileDo testTyped bodyTyped ih =>
      rw [Stmt.BreaksLoops]
      exact ih
  | block allTyped ih =>
      rw [Stmt.BreaksLoops]
      exact ih
  | breakLoop => simp [Stmt.BreaksLoops]
  | assign | skip | returnValue | read | write | print | call =>
      simp [Stmt.BreaksLoops]

/-- Checking a program without a fault leaves the types of all its nodes. -/
theorem knows_of_analyse_errors_eq_nil {program : Program}
    (accepted : (analyse program).errors = []) :
    (analyse program).types.Knows program.ids := by
  intro id member
  exact Std.TreeMap.isSome_getElem?_iff_mem.mpr
    ((mem_analyse_types_iff accepted id).mpr member)

theorem exists_lower_of_analyse_errors_eq_nil {program : Program}
    (accepted : (analyse program).errors = []) :
    ∃ code, lower program (analyse program).types = .ok code := by
  have typed : program.WellTyped :=
    (Checked.program_errors_eq_nil_iff program).mp accepted
  refine (exists_lower_eq_ok_iff program _).mpr ⟨?_, ?_⟩
  · intro id member
    exact knows_of_analyse_errors_eq_nil accepted id
      (program.required_subset_ids member)
  · intro definition defined statement member
    exact ((typed.functions definition defined).body statement
      member).breaksLoops

theorem treeOf_ne_internal (source : String) (error : InternalError) :
    treeOf source ≠ .error (.internal error) := by
  unfold treeOf tokensOf
  cases scan source with
  | error fault => simp [Except.mapError, bind, Except.bind]
  | ok tokens =>
      simp only [Except.mapError, bind, Except.bind]
      split <;> simp [pure, Except.pure, throw, throwThe, MonadExceptOf.throw]

theorem analysisOf_eq (tree : Program) :
    analysisOf tree =
      if (analyse tree).errors = [] then .ok (analyse tree)
      else .error (.semantic (analyse tree).errors) := by
  simp [analysisOf, Analysis.isAccepted]

theorem compile_ne_internal (source : String) (error : InternalError) :
    compile source ≠ .error (.internal error) := by
  intro failed
  unfold compile at failed
  cases readEq : treeOf source with
  | error fault =>
      rw [readEq] at failed
      rw [Except.error.inj failed] at readEq
      exact treeOf_ne_internal source error readEq
  | ok tree =>
      simp only [readEq, bind, Except.bind, analysisOf_eq] at failed
      by_cases accepted : (analyse tree).errors = []
      · obtain ⟨code, lowered⟩ := exists_lower_of_analyse_errors_eq_nil accepted
        simp [accepted, lowered, Except.mapError] at failed
      · simp [accepted] at failed

/-- Checking protects the making of code: an accepted program, whatever the
numbers of its nodes, has code, and compiling a text never ends in an internal
error. -/
theorem lower_total_on_accepted :
    (∀ program, (analyse program).errors = [] →
      ∃ code, lower program (analyse program).types = .ok code) ∧
    ∀ source error, compile source ≠ .error (.internal error) :=
  ⟨fun _ accepted => exists_lower_of_analyse_errors_eq_nil accepted,
    compile_ne_internal⟩

/-- Equal numbers of nodes do not matter:
`while 1 == 1 do begin write 1; break end` with number 0 everywhere has
code. -/
theorem lower_total_on_equal_ids :
    let position : Position := ⟨1, 1⟩
    let one : Expr := .int ⟨0, position⟩ 1
    let program : Program :=
      .statement (.whileDo position (.rel position .eq one one)
      (.block position [.write position one, .breakLoop position]))
    (analyse program).errors = [] ∧
      ∃ code, lower program (analyse program).types = .ok code :=
  ⟨by decide +kernel, lower_total_on_accepted.1 _ (by decide +kernel)⟩

end PL0
