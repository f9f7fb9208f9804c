import PL0.Compile

/-!
# When a text has code

A text has a tree if it can be scanned and is read without errors.  It has
code if it has a tree, checking finds no fault in the tree, and code can be
made from it.  Otherwise the first of these steps that fails tells why.
-/

namespace PL0

theorem mapError_eq_ok_iff {α ε ε' : Type} {f : ε → ε'} {result : Except ε α}
    {value : α} : result.mapError f = .ok value ↔ result = .ok value := by
  cases result with
  | error error => exact ⟨nofun, nofun⟩
  | ok made => constructor <;> (rintro ⟨⟩; rfl)

theorem exists_of_mapError_eq_error {α ε ε' : Type} {f : ε → ε'}
    {result : Except ε α} {error : ε'}
    (failed : result.mapError f = .error error) :
    ∃ fault, result = .error fault ∧ error = f fault := by
  cases result with
  | error fault =>
      cases failed
      exact ⟨fault, rfl, rfl⟩
  | ok made => cases failed

theorem tokensOf_eq_ok_iff {source : String} {tokens : List Token} :
    tokensOf source = .ok tokens ↔ scan source = .ok tokens :=
  mapError_eq_ok_iff

theorem treeOf_eq_ok_iff {source : String} {tree : Program} :
    treeOf source = .ok tree ↔ ∃ tokens, scan source = .ok tokens ∧
      (readProgram tokens).errors = [] ∧
        (readProgram tokens).program = tree := by
  simp only [treeOf, ← tokensOf_eq_ok_iff]
  cases tokensOf source with
  | error error => simp [bind, Except.bind]
  | ok tokens =>
      by_cases clean : (readProgram tokens).errors = []
      · simp [bind, Except.bind, pure, Except.pure, clean]
      · simp [bind, Except.bind, clean, throw, throwThe, MonadExceptOf.throw]

theorem compile_eq_ok_iff {source : String} {code : List Instr} :
    compile source = .ok code ↔ ∃ tree, treeOf source = .ok tree ∧
      (analyse tree).errors = [] ∧
        lower tree (analyse tree).types = .ok code := by
  rw [compile]
  cases treeOf source with
  | error error => simp [bind, Except.bind]
  | ok tree =>
      by_cases clean : (analyse tree).errors = []
      · simp [bind, Except.bind, analysisOf, Analysis.isAccepted, clean,
          mapError_eq_ok_iff]
      · simp [bind, Except.bind, analysisOf, Analysis.isAccepted, clean]

/-- The errors of the step that failed. -/
theorem compile_eq_error_cases {source : String} {error : CompileError}
    (failed : compile source = .error error) :
    (∃ fault, scan source = .error fault ∧ error = .scan fault) ∨
    (∃ tokens, scan source = .ok tokens ∧ (readProgram tokens).errors ≠ [] ∧
      error = .syntactic (readProgram tokens).errors) ∨
    (∃ tree, treeOf source = .ok tree ∧ (analyse tree).errors ≠ [] ∧
      error = .semantic (analyse tree).errors) ∨
    ∃ fault, error = .internal fault := by
  rw [compile] at failed
  cases isTree : treeOf source with
  | error fault =>
      obtain rfl : fault = error := by simpa [isTree, bind, Except.bind]
        using failed
      rw [treeOf] at isTree
      cases tokenised : tokensOf source with
      | error fault =>
          obtain rfl : fault = _ := by simpa [tokenised, bind, Except.bind]
            using isTree
          exact .inl (exists_of_mapError_eq_error tokenised)
      | ok tokens =>
          by_cases clean : (readProgram tokens).errors = []
          · simp [tokenised, bind, Except.bind, pure, Except.pure,
              clean] at isTree
          · have errorsEq :
                CompileError.syntactic (readProgram tokens).errors = fault := by
              simpa [tokenised, bind, Except.bind, clean, throw, throwThe,
                MonadExceptOf.throw] using isTree
            exact .inr (.inl ⟨tokens, tokensOf_eq_ok_iff.mp tokenised, clean,
              errorsEq.symm⟩)
  | ok tree =>
      by_cases clean : (analyse tree).errors = []
      · have lowered : (lower tree (analyse tree).types).mapError .internal =
            .error error := by
          simpa [isTree, bind, Except.bind, analysisOf, Analysis.isAccepted,
            clean] using failed
        obtain ⟨fault, -, errorEq⟩ := exists_of_mapError_eq_error lowered
        exact .inr (.inr (.inr ⟨fault, errorEq⟩))
      · have errorsEq :
            CompileError.semantic (analyse tree).errors = error := by
          simpa [isTree, bind, Except.bind, analysisOf, Analysis.isAccepted,
            clean] using failed
        exact .inr (.inr (.inl ⟨tree, rfl, clean, errorsEq.symm⟩))

end PL0
