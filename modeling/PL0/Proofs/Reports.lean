import PL0.CommandLine.Directory
import PL0.Proofs.Code.Totality

/-!
# Which reports can be given

A report takes a source text through some of the steps of compiling and shows
what is known then.  It cannot be given if one of these steps fails, and then
it fails with the error of that step.  So whatever stops a report stops every
report that needs more steps.  The last step makes code of a checked tree and
never fails; the scopes of a text can be shown exactly if it has code.

A run from the command line ends with code 2 if its arguments cannot be
followed or the compiler is at fault.  The compiler is never at fault.
-/

namespace PL0

variable {source : String} {error : CompileError}

theorem bind_pure_eq_error_iff {ε α β : Type} {result : Except ε α}
    {shown : α → β} {fault : ε} :
    (result >>= fun value => pure (shown value)) = Except.error fault ↔
      result = .error fault := by
  cases result with
  | error other =>
      constructor <;>
        (rintro ⟨⟩
         rfl)
  | ok value => exact ⟨nofun, nofun⟩

/-- A report fails with the error of the steps that it needs. -/
theorem Report.render_eq_error_iff (report : Report) :
    report.render source = .error error ↔
      match report with
      | .tokens => tokensOf source = .error error
      | .tree => treeOf source = .error error
      | .scopes => treeOf source >>= analysisOf = .error error
      | .code => compile source = .error error := by
  cases report with
  | tokens => exact bind_pure_eq_error_iff
  | tree => exact bind_pure_eq_error_iff
  | scopes =>
      have rendered : Report.scopes.render source =
          (treeOf source >>= analysisOf) >>= fun analysis =>
            pure analysis.scopes.listing := by
        rw [bind_assoc]
        rfl
      rw [rendered]
      exact bind_pure_eq_error_iff
  | code => exact bind_pure_eq_error_iff

theorem treeOf_eq_error_of_tokensOf (failed : tokensOf source = .error error) :
    treeOf source = .error error := by
  rw [treeOf, failed]
  rfl

theorem compile_eq_error_of_treeOf (failed : treeOf source = .error error) :
    compile source = .error error := by
  rw [compile, failed]
  rfl

/-- Whatever keeps a text from having code is found before its code is made. -/
theorem checked_eq_error_iff :
    treeOf source >>= analysisOf = .error error ↔
      compile source = .error error := by
  unfold compile
  cases treeOf source with
  | error fault => simp [bind, Except.bind]
  | ok tree =>
      simp only [bind, Except.bind, analysisOf_eq]
      by_cases accepted : (analyse tree).errors = []
      · obtain ⟨code, lowered⟩ := exists_lower_of_analyse_errors_eq_nil accepted
        simp [accepted, lowered, Except.mapError]
      · simp [accepted]

theorem compile_eq_error_of_render {report : Report}
    (failed : report.render source = .error error) :
    compile source = .error error := by
  rw [report.render_eq_error_iff] at failed
  cases report with
  | tokens =>
      exact compile_eq_error_of_treeOf (treeOf_eq_error_of_tokensOf failed)
  | tree => exact compile_eq_error_of_treeOf failed
  | scopes => exact checked_eq_error_iff.mp failed
  | code => exact failed

theorem isInternal_eq_false_of_render {report : Report}
    (failed : report.render source = .error error) :
    error.isInternal = false := by
  cases error with
  | internal fault =>
      exact absurd (compile_eq_error_of_render failed) (compile_ne_internal _ _)
  | scan | syntactic | semantic => rfl

/-- What can be shown by one of two computations can be shown by the other, if
they fail alike. -/
theorem exists_ok_iff_of_error_iff {ε α β : Type} {first : Except ε α}
    {second : Except ε β}
    (alike : ∀ fault, first = .error fault ↔ second = .error fault) :
    (∃ value, first = .ok value) ↔ ∃ value, second = .ok value := by
  cases first <;> cases second <;> simp_all

namespace CommandLine

/-- However its files are reached, a run ends with a code below `limit`. -/
def EndsBelow {m : Type → Type} [Functor m] (limit : Nat) (run : m Ending) :
    Prop :=
  ∃ bounded : m {ending : Ending // ending.code < limit}, Subtype.val <$>
    bounded = run

section EndsBelow

variable {m : Type → Type} [Monad m] [LawfulMonad m] {limit : Nat}

theorem endsBelow_pure {ending : Ending} (below : ending.code < limit) :
    EndsBelow limit (pure ending : m Ending) :=
  ⟨pure ⟨ending, below⟩, map_pure _ _⟩

theorem endsBelow_bind {α : Type} {first : m α} {next : α → m Ending}
    (below : ∀ value, EndsBelow limit (next value)) :
    EndsBelow limit (first >>= next) := by
  refine ⟨first >>= fun value => (below value).choose, ?_⟩
  rw [map_bind]
  exact congrArg (first >>= ·) (funext fun value => (below value).choose_spec)

/-- A run with options ends with code 0 or 1. -/
theorem Options.run_code (files : FileAccess m) (options : Options) :
    EndsBelow 2 (options.run files) := by
  unfold Options.run
  refine endsBelow_bind fun read => ?_
  split
  · exact endsBelow_pure (by simp [Ending.fileFault])
  · split
    · exact endsBelow_pure (by simp [Ending.fileFault])
    · split
      · next failed =>
          exact endsBelow_pure
            (by simp [Ending.compileError,
              isInternal_eq_false_of_render failed])
      · split
        · exact endsBelow_pure (by simp)
        · refine endsBelow_bind fun written => ?_
          split
          · exact endsBelow_pure (by simp)
          · exact endsBelow_pure (by simp [Ending.fileFault])

end EndsBelow

end CommandLine

open CommandLine

/-- The reports on a text fail alike.  A text without tokens has no report at
all, a text without a tree has neither scopes nor code, and a text has scopes
exactly if it has code; each time the error is the same.  No text finds the
compiler at fault, and no run with options ends with code 2, so none does
whose arguments can be followed, whatever its files hold. -/
theorem render_fails_alike (source : String) :
    (∀ error, Report.tokens.render source = .error error →
      ∀ report : Report, report.render source = .error error) ∧
    (∀ error, Report.tree.render source = .error error →
      Report.scopes.render source = .error error ∧ Report.code.render source =
        .error error) ∧
    (∀ error, Report.scopes.render source = .error error ↔
      compile source = .error error) ∧
    ((∃ text, Report.scopes.render source = .ok text) ↔
      ∃ text, Report.code.render source = .ok text) ∧
    (∀ tree analysis, treeOf source = .ok tree →
      analysisOf tree = .ok analysis →
      ∃ code, lower tree analysis.types = .ok code) ∧
    (∀ (report : Report) error, report.render source = .error error →
      error.isInternal = false) ∧
    ∀ {m : Type → Type} [Monad m] [LawfulMonad m] (files : FileAccess m)
      (options : Options),
      EndsBelow 2 (options.run files) ∧
      ∀ arguments, Options.ofArguments arguments = .ok options →
        EndsBelow 2 (run files arguments) := by
  have scopesIff : ∀ error, Report.scopes.render source = .error error ↔
      compile source = .error error :=
    fun error => (Report.scopes.render_eq_error_iff).trans checked_eq_error_iff
  have codeIff : ∀ error, Report.code.render source = .error error ↔
      compile source = .error error :=
    fun error => Report.code.render_eq_error_iff
  have laterFail : ∀ error, Report.tree.render source = .error error →
      Report.scopes.render source = .error error ∧ Report.code.render source =
        .error error := by
    intro error failed
    have compileFails := compile_eq_error_of_render failed
    exact ⟨(scopesIff error).mpr compileFails, (codeIff error).mpr compileFails⟩
  refine ⟨?_, laterFail, scopesIff, ?_, ?_, ?_, ?_⟩
  · intro error failed report
    have treeFails : Report.tree.render source = .error error :=
      Report.tree.render_eq_error_iff.mpr
        (treeOf_eq_error_of_tokensOf
          (Report.tokens.render_eq_error_iff.mp failed))
    cases report with
    | tokens => exact failed
    | tree => exact treeFails
    | scopes => exact (laterFail error treeFails).1
    | code => exact (laterFail error treeFails).2
  · exact exists_ok_iff_of_error_iff fun error =>
      (scopesIff error).trans (codeIff error).symm
  · intro tree analysis _ checked
    rw [analysisOf_eq] at checked
    split at checked
    · next accepted =>
        cases checked
        exact exists_lower_of_analyse_errors_eq_nil accepted
    · cases checked
  · intro report error failed
    exact isInternal_eq_false_of_render failed
  · intro m _ _ files options
    refine ⟨options.run_code files, ?_⟩
    intro arguments followed
    rw [run, followed]
    exact options.run_code files

/-- A text with a character that starts no token. -/
def strangeCharacter : String :=
  "fun main() begin x := 1 # end"

/-- A text with an assignment without a value. -/
def missingValue : String :=
  "fun main() begin x := end"

/-- A text that breaks a loop where there is none, and uses a variable that is
not declared. -/
def strayBreak : String :=
  "fun main() begin break; x := 1 end"

/-- A text whose `break` has a loop around it. -/
def brokenLoop : String :=
  "while 1 < 2 do begin write(1); break end"

theorem render_fails_alike_faultyTexts :
    (∃ error, Report.tokens.render strangeCharacter = .error error ∧
      Report.code.render strangeCharacter = .error error) ∧
    (∃ error, Report.tree.render missingValue = .error error ∧
      Report.code.render missingValue = .error error) ∧
    (∃ error, Report.scopes.render strayBreak = .error error ∧ error.count = 2 ∧
      compile strayBreak = .error error ∧ error.isInternal = false) ∧
    (∃ tree analysis, treeOf brokenLoop = .ok tree ∧ analysisOf tree =
      .ok analysis ∧ ∃ code, lower tree analysis.types = .ok code) ∧
    ∃ options, Options.ofArguments ["--sym", "prog"] = .ok options ∧
      (run Directory.access ["--sym",
        "prog"] ⟨[("prog", strayBreak.toUTF8)]⟩).1.code < 2 := by
  refine ⟨?_, ?_, ?_, ?_, ?_⟩
  · have failed : Report.tokens.render strangeCharacter =
        .error (.scan ⟨.unexpectedCharacter '#', ⟨1, 25⟩⟩) := by
      decide +kernel
    obtain ⟨allFail, -⟩ := render_fails_alike strangeCharacter
    exact ⟨_, failed, allFail _ failed .code⟩
  · have failed : Report.tree.render missingValue =
        .error (.syntactic [⟨some (.keyword .endWord), .expression,
          ⟨1, 23⟩⟩]) := by
      decide +kernel
    obtain ⟨-, laterFail, -⟩ := render_fails_alike missingValue
    exact ⟨_, failed, (laterFail _ failed).2⟩
  · obtain ⟨-, -, scopesIff, -, -, notInternal, -⟩ :=
      render_fails_alike strayBreak
    have failed : Report.scopes.render strayBreak =
        .error (.semantic [⟨.breakOutsideLoop, ⟨1, 18⟩⟩,
          ⟨.undefined .var "x", ⟨1, 25⟩⟩]) := by
      decide +kernel
    exact ⟨_, failed, rfl, (scopesIff _).mp failed,
      notInternal .scopes _ failed⟩
  · have succeeds : (treeOf brokenLoop >>= analysisOf).isOk = true := by
      decide +kernel
    cases isTree : treeOf brokenLoop with
    | error fault =>
        rw [isTree] at succeeds
        cases succeeds
    | ok tree =>
        cases checked : analysisOf tree with
        | error fault =>
            rw [isTree,
              show Except.ok tree >>= analysisOf = _ from checked] at succeeds
            cases succeeds
        | ok analysis =>
            obtain ⟨-, -, -, -, hasCode, -, -⟩ := render_fails_alike brokenLoop
            exact ⟨tree, analysis, rfl, checked,
              hasCode tree analysis isTree checked⟩
  · have followed : Options.ofArguments ["--sym", "prog"] =
        .ok ⟨"prog", none, some .scopes, false⟩ := by
      decide +kernel
    obtain ⟨-, -, -, -, -, -, exitCodes⟩ := render_fails_alike strayBreak
    obtain ⟨bounded, boundedEq⟩ := (exitCodes Directory.access _).2 _ followed
    refine ⟨_, followed, ?_⟩
    rw [← boundedEq]
    exact (bounded _).1.property

end PL0
