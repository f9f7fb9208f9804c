import PL0.Compile
import PL0.Proofs.Code.Relocation
import PL0.Proofs.Reading.Positions
import PL0.Proofs.Typing.Relocation

/-!
# Compiling does not depend on the layout

Two texts with tokens of the same kinds differ only in blanks, comments and
the spelling of literals.  Reading, checking and making code carry positions
along and never look at them, so the two texts have the same tree and the same
errors but for positions, and the same code.
-/

namespace PL0

/-- The position that stands for all of them. -/
def nowhere : Position → Position :=
  fun _ => ⟨0, 0⟩

/-- A semantic error without its positions. -/
def SemanticError.forget (error : SemanticError) : SemanticError :=
  error.relocate nowhere

/-- Why a text has no code, without positions in the text.  Without tokens
there is nothing to compare. -/
def CompileError.forget : CompileError → CompileError
  | .scan error => .scan error
  | .syntactic errors => .syntactic (errors.map (SyntaxError.displace .forget))
  | .semantic errors => .semantic (errors.map SemanticError.forget)
  | .internal error => .internal (error.relocate nowhere)

theorem SemanticError.forget_forget (error : SemanticError) :
    error.forget.forget = error.forget := by
  obtain ⟨fault, position⟩ := error
  cases fault <;> rfl

theorem CompileError.count_forget (error : CompileError) :
    error.forget.count = error.count := by
  cases error with
  | scan error => rfl
  | syntactic errors => simp [forget, count, messages]
  | semantic errors => simp [forget, count, messages]
  | internal error => rfl

theorem mapError_internal_forget {α : Type} (result : Except InternalError α) :
    (result.mapError CompileError.internal).mapError CompileError.forget =
      (result.mapError (InternalError.relocate nowhere)).mapError
        CompileError.internal := by
  cases result <;> rfl

/-- Checking finds the same types and, but for positions, the same errors. -/
theorem analyse_forget (program : Program) :
    (analyse (program.displace .forget)).errors.map SemanticError.forget =
        (analyse program).errors.map SemanticError.forget ∧
      (analyse (program.displace .forget)).types = (analyse program).types := by
  by_cases none : program = .functions []
  · subst none
    exact ⟨rfl, rfl⟩
  · have checkedEq : Checked.program (program.displace .forget) =
        (Checked.program program).relocate nowhere
          (ScopeTable.relocate nowhere) :=
      Checked.program_relocate none
    unfold analyse
    rw [checkedEq]
    refine ⟨?_, rfl⟩
    change ((Checked.program program).errors.map SemanticError.forget).map _ = _
    rw [List.map_map]
    exact List.map_congr_left fun error _ => error.forget_forget

/-- The code of a tree. -/
def codeOf (tree : Program) : Except CompileError (List Instr) := do
  let analysis ← analysisOf tree
  (lower tree analysis.types).mapError .internal

theorem codeOf_of_accepted {tree : Program}
    (noErrors : (analyse tree).errors = []) :
    codeOf tree = (lower tree (analyse tree).types).mapError .internal := by
  have accepted : analysisOf tree = .ok (analyse tree) := by
    simp [analysisOf, Analysis.isAccepted, noErrors]
  rw [codeOf, accepted]
  rfl

theorem codeOf_of_faulty {tree : Program}
    (faulty : (analyse tree).errors ≠ []) :
    codeOf tree = .error (.semantic (analyse tree).errors) := by
  have rejected :
      analysisOf tree = .error (.semantic (analyse tree).errors) := by
    simp [analysisOf, Analysis.isAccepted, faulty]
  rw [codeOf, rejected]
  rfl

theorem compile_of_read {source : String} {tokens : List Token}
    (scanned : scan source = .ok tokens)
    (noErrors : (readProgram tokens).errors = []) :
    compile source = codeOf (readProgram tokens).program := by
  have tree : treeOf source = .ok (readProgram tokens).program := by
    rw [treeOf, tokensOf, scanned]
    change (if (readProgram tokens).errors.isEmpty then _ else _) = _
    rw [noErrors]
    rfl
  rw [compile, tree]
  rfl

theorem compile_of_unread {source : String} {tokens : List Token}
    (scanned : scan source = .ok tokens)
    (faulty : (readProgram tokens).errors ≠ []) :
    compile source = .error (.syntactic (readProgram tokens).errors) := by
  have tree :
      treeOf source = .error (.syntactic (readProgram tokens).errors) := by
    rw [treeOf, tokensOf, scanned]
    change (if (readProgram tokens).errors.isEmpty then _ else _) = _
    rw [if_neg (by simpa using faulty)]
    rfl
  rw [compile, tree]
  rfl

section Programs

variable {first second : Program}
  (same : first.displace .forget = second.displace .forget)

include same

theorem analyse_errors_forget_eq :
    (analyse first).errors.map SemanticError.forget =
      (analyse second).errors.map SemanticError.forget := by
  rw [← (analyse_forget first).1, ← (analyse_forget second).1, same]

theorem analyse_types_eq : (analyse first).types = (analyse second).types := by
  rw [← (analyse_forget first).2, ← (analyse_forget second).2, same]

theorem lower_forget_eq (types : TypeTable) :
    (lower first types).mapError (InternalError.relocate nowhere) =
      (lower second types).mapError (InternalError.relocate nowhere) := by
  rw [← lower_relocate, ← lower_relocate]
  exact congrArg (lower · types) same

/-- Checking and making code end alike. -/
theorem codeOf_forget_eq :
    (codeOf first).mapError CompileError.forget =
      (codeOf second).mapError CompileError.forget := by
  have errorsEq := analyse_errors_forget_eq same
  have typesEq := analyse_types_eq same
  cases firstErrors : (analyse first).errors with
  | nil =>
      have secondErrors : (analyse second).errors = [] := by
        rw [firstErrors] at errorsEq
        exact List.map_eq_nil_iff.mp errorsEq.symm
      rw [codeOf_of_accepted firstErrors, codeOf_of_accepted secondErrors,
        typesEq, mapError_internal_forget, mapError_internal_forget]
      exact congrArg (Except.mapError CompileError.internal)
        (lower_forget_eq same (analyse second).types)
  | cons error others =>
      have someFirst : (analyse first).errors ≠ [] := by simp [firstErrors]
      have someSecond : (analyse second).errors ≠ [] := by
        intro none
        rw [none] at errorsEq
        exact someFirst (List.map_eq_nil_iff.mp errorsEq)
      rw [codeOf_of_faulty someFirst, codeOf_of_faulty someSecond]
      exact congrArg (Except.error ∘ CompileError.semantic) errorsEq

end Programs

/-- What happens to two texts with tokens of the same kinds. -/
theorem compile_forget_eq {first second : String}
    {firstTokens secondTokens : List Token}
    (firstScanned : scan first = .ok firstTokens)
    (secondScanned : scan second = .ok secondTokens)
    (same : firstTokens.map Token.kind = secondTokens.map Token.kind) :
    (compile first).mapError CompileError.forget =
      (compile second).mapError CompileError.forget := by
  have readingEq := readProgram_forget_eq same
  have programEq : (readProgram firstTokens).program.displace .forget =
      (readProgram secondTokens).program.displace .forget :=
    congrArg Reading.program readingEq
  have errorsEq :
      (readProgram firstTokens).errors.map (SyntaxError.displace .forget) =
      (readProgram secondTokens).errors.map (SyntaxError.displace .forget) :=
    congrArg Reading.errors readingEq
  cases firstErrors : (readProgram firstTokens).errors with
  | nil =>
      have secondErrors : (readProgram secondTokens).errors = [] := by
        rw [firstErrors] at errorsEq
        exact List.map_eq_nil_iff.mp errorsEq.symm
      rw [compile_of_read firstScanned firstErrors,
        compile_of_read secondScanned secondErrors]
      exact codeOf_forget_eq programEq
  | cons error others =>
      have someFirst : (readProgram firstTokens).errors ≠ [] := by
        simp [firstErrors]
      have someSecond : (readProgram secondTokens).errors ≠ [] := by
        intro none
        rw [none] at errorsEq
        exact someFirst (List.map_eq_nil_iff.mp errorsEq)
      rw [compile_of_unread firstScanned someFirst,
        compile_of_unread secondScanned someSecond]
      exact congrArg (Except.error ∘ CompileError.syntactic) errorsEq

/-- The layout of a text does not matter: the trees, the syntax errors and the
semantic errors are the same but for positions, and either both texts have the
same code or both have none for the same reasons. -/
theorem compile_layout_irrelevant {first second : String}
    {firstTokens secondTokens : List Token}
    (firstScanned : scan first = .ok firstTokens)
    (secondScanned : scan second = .ok secondTokens)
    (same : firstTokens.map Token.kind = secondTokens.map Token.kind) :
    (readProgram firstTokens).program.displace .forget =
        (readProgram secondTokens).program.displace .forget ∧
      (readProgram firstTokens).errors.map (SyntaxError.displace .forget) =
        (readProgram secondTokens).errors.map (SyntaxError.displace .forget) ∧
      (analyse (readProgram firstTokens).program).errors.map
        SemanticError.forget =
        (analyse (readProgram secondTokens).program).errors.map
          SemanticError.forget ∧
      match compile first, compile second with
      | .ok code, .ok otherCode => code = otherCode
      | .error error, .error other =>
          error.forget = other.forget ∧ error.count = other.count
      | _, _ => False := by
  have readingEq := readProgram_forget_eq same
  have programEq : (readProgram firstTokens).program.displace .forget =
      (readProgram secondTokens).program.displace .forget :=
    congrArg Reading.program readingEq
  refine ⟨programEq, congrArg Reading.errors readingEq,
    analyse_errors_forget_eq programEq, ?_⟩
  have compiledEq := compile_forget_eq firstScanned secondScanned same
  cases firstRan : compile first with
  | ok code =>
      cases secondRan : compile second with
      | ok otherCode =>
          rw [firstRan, secondRan] at compiledEq
          exact Except.ok.inj compiledEq
      | error other =>
          rw [firstRan, secondRan] at compiledEq
          cases compiledEq
  | error error =>
      cases secondRan : compile second with
      | ok otherCode =>
          rw [firstRan, secondRan] at compiledEq
          cases compiledEq
      | error other =>
          rw [firstRan, secondRan] at compiledEq
          have forgotten : error.forget = other.forget :=
            Except.error.inj compiledEq
          refine ⟨forgotten, ?_⟩
          rw [← error.count_forget, ← other.count_forget, forgotten]

theorem compile_layout_irrelevant_comment :
    ∃ firstTokens secondTokens, scan "x := 1" = .ok firstTokens ∧
      scan "x /* one */\n:= 01" = .ok secondTokens ∧
      firstTokens.map Token.kind = secondTokens.map Token.kind ∧
        firstTokens ≠ secondTokens ∧
      (readProgram firstTokens).program.displace .forget =
        (readProgram secondTokens).program.displace .forget ∧
      (readProgram firstTokens).errors.map (SyntaxError.displace .forget) =
        (readProgram secondTokens).errors.map (SyntaxError.displace .forget) ∧
      (analyse (readProgram firstTokens).program).errors.map
        SemanticError.forget =
        (analyse (readProgram secondTokens).program).errors.map
          SemanticError.forget ∧
      match compile "x := 1", compile "x /* one */\n:= 01" with
      | .ok code, .ok otherCode => code = otherCode
      | .error error, .error other =>
          error.forget = other.forget ∧ error.count = other.count
      | _, _ => False := by
  have firstScanned : scan "x := 1" = .ok [⟨.identifier "x", ⟨1, 1⟩⟩,
      ⟨.symbol .assign, ⟨1, 3⟩⟩, ⟨.integer 1, ⟨1, 6⟩⟩,
      ⟨.endOfInput, ⟨1, 7⟩⟩] := by decide +kernel
  have secondScanned :
      scan "x /* one */\n:= 01" = .ok [⟨.identifier "x", ⟨1, 1⟩⟩,
      ⟨.symbol .assign, ⟨2, 1⟩⟩, ⟨.integer 1, ⟨2, 4⟩⟩,
      ⟨.endOfInput, ⟨2, 6⟩⟩] := by decide +kernel
  exact ⟨_, _, firstScanned, secondScanned, rfl, by decide,
    compile_layout_irrelevant firstScanned secondScanned rfl⟩

end PL0
