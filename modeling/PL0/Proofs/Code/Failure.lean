import PL0.Proofs.Code.Exits
import PL0.Proofs.Code.Success
import PL0.Proofs.Typing.Strays

/-!
# How making code fails

Code is made in the order of the text and stops at the first thing that cannot
be done.  Where the types that are looked up are known, only a `break` outside
a loop cannot be done, so the failure is the first such `break`.  Checking
lists the same breaks in the same order, although it keeps account of the open
loops in its own way.
-/

namespace PL0

/-- A `break` without a loop around it. -/
def Mention.strayBreak? : Mention → Option Position
  | .breakLoop position false => some position
  | _ => none

/-- The breaks without a loop around them, where they are. -/
def Mention.strayBreaks (mentions : List Mention) : List Position :=
  mentions.filterMap Mention.strayBreak?

@[simp]
theorem Mention.strayBreaks_append (first second : List Mention) :
    Mention.strayBreaks (first ++ second) =
      Mention.strayBreaks first ++ Mention.strayBreaks second :=
  List.filterMap_append

/-- The breaks of a program without a loop around them, function by function. -/
def Program.strayBreaks (program : Program) : List Position :=
  program.definitions.flatMap fun definition =>
    Mention.strayBreaks (Stmt.allMentions false definition.body)

section Breaks

mutual

theorem Place.strayBreaks_mentions :
    ∀ held : Place, Mention.strayBreaks held.mentions = []
  | .var node name => rfl
  | .element node name index => by
      rw [Place.mentions]
      exact Expr.strayBreaks_mentions index

/-- Only statements have breaks. -/
theorem Expr.strayBreaks_mentions :
    ∀ e : Expr, Mention.strayBreaks e.mentions = []
  | .int node value => rfl
  | .float node value => rfl
  | .valueOf node held => by
      rw [Expr.mentions]
      exact Place.strayBreaks_mentions held
  | .binary node op left right => by
      simp [Expr.mentions, Expr.strayBreaks_mentions left,
        Expr.strayBreaks_mentions right]
  | .signed node op operand => by
      rw [Expr.mentions]
      exact Expr.strayBreaks_mentions operand
  | .call node callee args => by
      rw [Expr.mentions]
      exact Expr.strayBreaks_allMentions args
  | .cast node target operand => by
      rw [Expr.mentions]
      exact Expr.strayBreaks_mentions operand

theorem Expr.strayBreaks_allMentions :
    ∀ args : List Expr, Mention.strayBreaks (Expr.allMentions args) = []
  | [] => rfl
  | first :: others => by
      simp [Expr.allMentions, Expr.strayBreaks_mentions first,
        Expr.strayBreaks_allMentions others]

end

theorem Condition.strayBreaks_mentions (test : Condition) :
    Mention.strayBreaks test.mentions = [] := by
  induction test with
  | rel position op left right =>
      simp [Condition.mentions, left.strayBreaks_mentions,
        right.strayBreaks_mentions]
  | logic position op left right leftIH rightIH =>
      simp [Condition.mentions, leftIH, rightIH]
  | not position operand ih => simpa [Condition.mentions] using ih

theorem Declaration.strayBreaks_mentions (declaration : Declaration) :
    Mention.strayBreaks declaration.mentions = [] := by
  unfold Declaration.mentions
  split
  · next count _ => exact count.strayBreaks_mentions
  · rfl

/-- Whether an error is that of a `break` outside a loop. -/
def SemanticError.isStrayBreak (error : SemanticError) : Bool :=
  error.fault = .breakOutsideLoop

/-- Of the errors that mentions are, those of breaks tell nothing about
names. -/
theorem Environment.filter_strays (environment : Environment)
    (mentions : List Mention) :
    (environment.strays mentions).filter SemanticError.isStrayBreak =
      (Mention.strayBreaks mentions).map
        (SemanticError.mk .breakOutsideLoop) := by
  induction mentions with
  | nil => rfl
  | cons mention others ih =>
      rw [Environment.strays_cons, List.filter_append, ih, Mention.strayBreaks]
      cases mention with
      | place position name =>
          rw [Environment.stray?]
          split <;> rfl
      | call position callee count =>
          rw [Environment.stray?]
          split
          · rfl
          · split <;> rfl
      | breakLoop position inLoop => cases inLoop <;> rfl

theorem Environment.filter_sizeStrays (environment : Environment)
    (declared : List Declaration) :
    (environment.sizeStrays declared).filter SemanticError.isStrayBreak =
      [] := by
  induction declared generalizing environment with
  | nil => rfl
  | cons first others ih =>
      simp [Environment.sizeStrays, ih, Environment.filter_strays,
        first.strayBreaks_mentions]

/-- Checking reports the breaks without a loop around them, in order. -/
theorem analyse_strayBreaks (program : Program) :
    (analyse program).errors.filter SemanticError.isStrayBreak =
      program.strayBreaks.map (SemanticError.mk .breakOutsideLoop) := by
  have breaksAreStray :
      (analyse program).errors.filter SemanticError.isStrayBreak =
      (Checked.program program).strays.filter SemanticError.isStrayBreak := by
    rw [Checked.strays, List.filter_filter]
    apply List.filter_congr
    intro error _
    by_cases isBreak : error.fault = .breakOutsideLoop <;>
      simp [SemanticError.isStrayBreak, isBreak, SemanticFault.isStray]
  rw [breaksAreStray, Checked.program_strays, Program.strays,
    List.filter_flatMap, Program.strayBreaks, List.map_flatMap]
  apply List.flatMap_congr
  intro definition _
  simp [Function.strays, Environment.filter_sizeStrays,
    Environment.filter_strays]

end Breaks

namespace Emission

variable {α β : Type}

/-- The error in which a step ended, if it did. -/
def failure? : Except InternalError α → Option InternalError
  | .error error => some error
  | .ok _ => none

/-- A step ends in an error or emits code, whatever the supply. -/
def EndsIn (emission : Emission α) (error? : Option InternalError) : Prop :=
  ∀ supply, failure? (emission supply) = error?

/-- Of two steps the first that fails decides. -/
theorem EndsIn.bind {first : Emission α} {next : α → Emission β}
    {error? further? : Option InternalError} (firstEnds : first.EndsIn error?)
    (nextEnds : ∀ value, (next value).EndsIn further?) :
    (first >>= next).EndsIn (error?.or further?) := by
  intro supply
  have firstEnd := firstEnds supply
  simp only [Bind.bind]
  cases firstRan : first supply with
  | error error =>
      rw [firstRan] at firstEnd
      rw [← firstEnd]
      rfl
  | ok before =>
      rw [firstRan] at firstEnd
      rw [← firstEnd, ← nextEnds before.value before.supply]
      cases nextRan : next before.value before.supply <;>
        simp [nextRan, failure?]

/-- A step that can be made emits code. -/
theorem SucceedsIff.endsIn {emission : Emission α} {condition : Prop}
    (succeeds : emission.SucceedsIff condition) (holds : condition) :
    emission.EndsIn none := by
  intro supply
  obtain ⟨emitted, emits⟩ := (succeeds supply).mpr holds
  rw [emits]
  rfl

theorem EndsIn.none_bind {first : Emission α} {next : α → Emission β}
    {further? : Option InternalError} (firstEnds : first.EndsIn none)
    (nextEnds : ∀ value, (next value).EndsIn further?) :
    (first >>= next).EndsIn further? :=
  firstEnds.bind nextEnds

theorem EndsIn.bind_none {first : Emission α} {next : α → Emission β}
    {error? : Option InternalError} (firstEnds : first.EndsIn error?)
    (nextEnds : ∀ value, (next value).EndsIn none) :
    (first >>= next).EndsIn error? := by
  simpa using firstEnds.bind nextEnds

theorem emit_endsIn (instr : Instr) : (emit instr).EndsIn none :=
  (emit_succeeds instr).endsIn trivial

/-- The failure that breaks without a loop cause: the first of them. -/
def breakFailure? (mentions : List Mention) : Option InternalError :=
  (Mention.strayBreaks mentions).head?.map .breakOutsideLoop

theorem breakFailure?_append (first second : List Mention) :
    breakFailure? (first ++ second) =
      (breakFailure? first).or (breakFailure? second) := by
  simp only [breakFailure?, Mention.strayBreaks_append, List.head?_append]
  cases (Mention.strayBreaks first).head? <;> rfl

theorem breakFailure?_condition (test : Condition) :
    breakFailure? test.mentions = none := by
  rw [breakFailure?, test.strayBreaks_mentions]
  rfl

variable {types : TypeTable}

/-- A statement without parts that are statements fails at most for a type. -/
theorem stmt_endsIn_of_closed {s : Stmt} {exit? : Option Label}
    (known : types.Knows s.required) (closed : s.BreaksLoops exit?.isSome)
    (noBreaks : Mention.strayBreaks (s.mentions exit?.isSome) = []) :
    (stmt types exit? s).EndsIn (breakFailure? (s.mentions exit?.isSome)) := by
  rw [breakFailure?, noBreaks]
  exact (stmt_succeeds_iff types s exit?).endsIn ⟨known, closed⟩

mutual

/-- Where the types are known, a statement fails at its first `break` without
a loop. -/
theorem stmt_endsIn : ∀ (s : Stmt) (exit? : Option Label),
    types.Knows s.required →
    (stmt types exit? s).EndsIn (breakFailure? (s.mentions exit?.isSome))
  | .ifThen position test thenBranch, exit?, known => by
      rw [Stmt.required, TypeTable.knows_append] at known
      rw [Stmt.mentions, breakFailure?_append, breakFailure?_condition,
        Option.none_or, stmt]
      apply (freshLabel_succeeds.endsIn trivial).none_bind
      intro id
      apply ((condition_succeeds_iff types test).endsIn known.1).none_bind
      intro register
      apply (emit_endsIn _).none_bind fun _ =>
        (emit_endsIn _).none_bind fun _ =>
        (emit_endsIn _).none_bind fun _ => ?_
      exact (stmt_endsIn thenBranch exit? known.2).bind_none fun _ =>
        emit_endsIn _
  | .ifElse position test thenBranch elseBranch, exit?, known => by
      rw [Stmt.required, TypeTable.knows_append,
        TypeTable.knows_append] at known
      rw [Stmt.mentions, breakFailure?_append, breakFailure?_append,
        breakFailure?_condition, Option.none_or, stmt]
      apply (freshLabel_succeeds.endsIn trivial).none_bind
      intro id
      apply ((condition_succeeds_iff types test).endsIn known.1).none_bind
      intro register
      apply (emit_endsIn _).none_bind fun _ =>
        (emit_endsIn _).none_bind fun _ =>
        (emit_endsIn _).none_bind fun _ => ?_
      apply (stmt_endsIn thenBranch exit? known.2.1).bind
      intro _
      apply (emit_endsIn _).none_bind fun _ =>
        (emit_endsIn _).none_bind fun _ => ?_
      exact (stmt_endsIn elseBranch exit? known.2.2).bind_none fun _ =>
        emit_endsIn _
  | .whileDo position test body, exit?, known => by
      rw [Stmt.required, TypeTable.knows_append] at known
      rw [Stmt.mentions, breakFailure?_append, breakFailure?_condition,
        Option.none_or, stmt]
      apply (freshLabel_succeeds.endsIn trivial).none_bind
      intro id
      apply (emit_endsIn _).none_bind fun _ => ?_
      apply ((condition_succeeds_iff types test).endsIn known.1).none_bind
      intro register
      apply (emit_endsIn _).none_bind fun _ =>
        (emit_endsIn _).none_bind fun _ =>
        (emit_endsIn _).none_bind fun _ => ?_
      apply (stmt_endsIn body (some (.loop id .exitPart)) known.2).bind_none
      intro _
      exact (emit_endsIn _).none_bind fun _ => emit_endsIn _
  | .block position statements, exit?, known => by
      rw [Stmt.required] at known
      rw [Stmt.mentions, stmt]
      exact stmts_endsIn statements exit? known
  | .breakLoop position, none, _ => fun _ => rfl
  | .breakLoop position, some exit, _ => fun _ => rfl
  | .assign position held value, _, known =>
      stmt_endsIn_of_closed known (by simp [Stmt.BreaksLoops])
        (by simp [Stmt.mentions, held.strayBreaks_mentions,
          value.strayBreaks_mentions])
  | .skip position, _, known =>
      stmt_endsIn_of_closed known (by simp [Stmt.BreaksLoops]) rfl
  | .returnValue position value, _, known =>
      stmt_endsIn_of_closed known (by simp [Stmt.BreaksLoops])
        (by simp [Stmt.mentions, value.strayBreaks_mentions])
  | .read position held, _, known =>
      stmt_endsIn_of_closed known (by simp [Stmt.BreaksLoops])
        (by simp [Stmt.mentions, held.strayBreaks_mentions])
  | .write position value, _, known =>
      stmt_endsIn_of_closed known (by simp [Stmt.BreaksLoops])
        (by simp [Stmt.mentions, value.strayBreaks_mentions])
  | .print position text, _, known =>
      stmt_endsIn_of_closed known (by simp [Stmt.BreaksLoops]) rfl
  | .call position callee args, _, known =>
      stmt_endsIn_of_closed known (by simp [Stmt.BreaksLoops])
        (Expr.strayBreaks_allMentions args)

theorem stmts_endsIn : ∀ (statements : List Stmt) (exit? : Option Label),
    types.Knows (statements.flatMap Stmt.required) →
      (stmts types exit? statements).EndsIn
        (breakFailure? (Stmt.allMentions exit?.isSome statements))
  | [], exit?, _ => fun _ => rfl
  | first :: others, exit?, known => by
      rw [List.flatMap_cons, TypeTable.knows_append] at known
      rw [Stmt.allMentions, breakFailure?_append, stmts]
      exact (stmt_endsIn first exit? known.1).bind fun _ =>
        stmts_endsIn others exit? known.2

end

theorem function_endsIn (definition : Function)
    (known : types.Knows definition.required) :
    (function types definition).EndsIn
      (breakFailure? (Stmt.allMentions false definition.body)) := by
  rw [Function.required, TypeTable.knows_append] at known
  apply (emit_endsIn _).none_bind fun _ => ?_
  apply ((locals_succeeds_iff types definition.locals).endsIn known.1).none_bind
  intro _
  exact (stmts_endsIn definition.body none known.2).bind_none fun _ =>
    emit_endsIn _

theorem functions_endsIn (definitions : List Function)
    (known : types.Knows (definitions.flatMap Function.required)) :
    (functions types definitions).EndsIn (breakFailure?
      (definitions.flatMap fun definition =>
        Stmt.allMentions false definition.body)) := by
  induction definitions with
  | nil => exact fun _ => rfl
  | cons first others ih =>
      rw [List.flatMap_cons, TypeTable.knows_append] at known
      rw [List.flatMap_cons, breakFailure?_append, functions]
      exact (function_endsIn first known.1).bind fun _ => ih known.2

end Emission

/-- Where all types are known that are looked up, code fails at the first
`break` that checking reports, or not at all. -/
theorem lower_failure? {program : Program} {types : TypeTable}
    (known : types.Knows program.required) :
    Emission.failure? (lower program types) =
      ((analyse program).errors.find? SemanticError.isStrayBreak).map
        fun error =>
        .breakOutsideLoop error.position := by
  have ends := Emission.functions_endsIn program.definitions known .initial
  have reported : (analyse program).errors.find? SemanticError.isStrayBreak =
      program.strayBreaks.head?.map (SemanticError.mk .breakOutsideLoop) := by
    rw [← List.head?_filter, analyse_strayBreaks, List.head?_map]
  have breaksEq :
      Mention.strayBreaks (program.definitions.flatMap fun definition =>
      Stmt.allMentions false definition.body) = program.strayBreaks :=
    List.filterMap_flatMap
  rw [Emission.breakFailure?, breaksEq] at ends
  rw [reported, Option.map_map, lower, Emission.program_eq_functions]
  cases ran : Emission.functions types program.definitions .initial with
  | error error =>
      rw [ran] at ends
      exact ends
  | ok emitted =>
      rw [ran] at ends
      exact ends

/-- Making code fails for two reasons only: a type that is looked up is not
known, or checking reports a `break` outside a loop.  Where all types are known,
it fails at the first such `break`.  If the exits of loops are kept on a stack,
the same code is made or the same failure found, and the stack ends empty. -/
theorem lower_fails_exactly (program : Program) (types : TypeTable) :
    ((∃ code, lower program types = .ok code) ↔
      (∀ error ∈ (analyse program).errors, error.fault ≠ .breakOutsideLoop) ∧
        types.Knows program.required) ∧
    (types.Knows program.required → ∀ failure, lower program types =
      .error failure →
      ∃ error, (analyse program).errors.find? SemanticError.isStrayBreak =
        some error ∧ failure = .breakOutsideLoop error.position) ∧
    LoopEmission.lower program types = (lower program types, []) := by
  have noneReported :
      (analyse program).errors.find? SemanticError.isStrayBreak = none ↔
      ∀ error ∈ (analyse program).errors, error.fault ≠ .breakOutsideLoop := by
    simp [List.find?_eq_none, SemanticError.isStrayBreak]
  refine ⟨⟨?_, ?_⟩, ?_, LoopEmission.lower_eq program types⟩
  · rintro ⟨code, made⟩
    have known := ((exists_lower_eq_ok_iff program types).mp ⟨code, made⟩).1
    have ended := lower_failure? known
    rw [made] at ended
    exact ⟨noneReported.mp (Option.map_eq_none_iff.mp ended.symm), known⟩
  · rintro ⟨noBreak, known⟩
    have ended := lower_failure? known
    rw [noneReported.mpr noBreak] at ended
    cases made : lower program types with
    | ok code => exact ⟨code, rfl⟩
    | error failure => simp [made, Emission.failure?] at ended
  · intro known failure failed
    have ended := lower_failure? known
    rw [failed] at ended
    obtain ⟨error, found, same⟩ := Option.map_eq_some_iff.mp ended.symm
    exact ⟨error, found, same.symm⟩

/-- The statements `begin while 1 == 1 do break; break; begin break end end`:
of the three breaks the second is the first one without a loop. -/
def breaksBehindLoop : Program :=
  let one (id : NodeId) (position : Position) : Expr := .int ⟨id, position⟩ 1
  .statement (.block ⟨1, 1⟩
    [.whileDo ⟨1, 7⟩ (.rel ⟨1, 15⟩ .eq (one 0 ⟨1, 13⟩) (one 1 ⟨1, 18⟩))
      (.breakLoop ⟨1, 23⟩),
      .breakLoop ⟨1, 30⟩, .block ⟨1, 37⟩ [.breakLoop ⟨1, 43⟩]])

theorem lower_fails_breaksBehindLoop :
    (analyse breaksBehindLoop).types.Knows breaksBehindLoop.required ∧
      lower breaksBehindLoop (analyse breaksBehindLoop).types =
        .error (.breakOutsideLoop ⟨1, 30⟩) ∧
      ∃ error, (analyse breaksBehindLoop).errors.find?
          SemanticError.isStrayBreak = some error ∧
        InternalError.breakOutsideLoop ⟨1, 30⟩ =
          .breakOutsideLoop error.position := by
  have requiredEq : breaksBehindLoop.required = [0] := by
    simp [breaksBehindLoop, Program.required, Program.definitions,
      Function.required, Stmt.required, Condition.required, Expr.required,
      Expr.node]
  have known :
      (analyse breaksBehindLoop).types.Knows breaksBehindLoop.required := by
    rw [requiredEq, TypeTable.knows_cons]
    exact ⟨by decide +kernel, TypeTable.knows_nil⟩
  have failed : lower breaksBehindLoop (analyse breaksBehindLoop).types =
      .error (.breakOutsideLoop ⟨1, 30⟩) := by decide +kernel
  exact ⟨known, failed,
    (lower_fails_exactly breaksBehindLoop (analyse breaksBehindLoop).types).2.1
      known _ failed⟩

end PL0
