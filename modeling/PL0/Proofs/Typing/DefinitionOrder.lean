import PL0.Proofs.Typing.Exactness
import PL0.Proofs.Typing.Independence

/-!
# The order of functions

All functions are declared before any of them is checked, so a function has
the same errors wherever it stands among the others.  With different names,
two orders of the same functions have the same errors, function by function;
only the place where a missing `main` is reported is that of the last
function.  With a name that is given twice no order is accepted.
-/

namespace PL0

/-- The errors of a function that is checked where the given functions are
declared. -/
def Function.ownErrors (definitions : List Function) (function : Function) :
    List SemanticError :=
  (Checked.function (Checked.signatures .initial definitions).value
    function).errors

/-- That there is no function to start in is an error, at the last function
there is. -/
def Function.startErrors (definitions : List Function) : List SemanticError :=
  if entryPoint ∈ definitions.map Function.name then []
  else [⟨.missingMain,
    definitions.getLast?.elim Position.first Function.position⟩]

/-- An error, whatever function is the last one. -/
def SemanticError.withoutLast (error : SemanticError) : SemanticError :=
  if error.fault = .missingMain then ⟨.missingMain, Position.first⟩ else error

section Order

variable {definitions reordered : List Function}

theorem map_fst_entry (definitions : List Function) :
    (definitions.map Function.entry).map Prod.fst =
      definitions.map Function.name := by
  simp [Function.entry, Function.comp_def]

theorem offers_globals (definitions : List Function) :
    (Checked.signatures .initial definitions).value.Offers
      (definitions.map Function.entry) [] :=
  Checked.offers_signatures definitions ScopeTable.offers_initial

theorem start_errors (definitions : List Function) :
    (Checked.start (Checked.signatures .initial definitions).value
      definitions).errors = Function.startErrors definitions := by
  unfold Checked.start Function.startErrors
  simp only [(offers_globals definitions).resolveLocal?_eq, isSome_lookup_iff,
    map_fst_entry]
  split <;> rfl

theorem signatures_errors_of_distinct
    (distinct : (definitions.map Function.name).Nodup) :
    (Checked.signatures .initial definitions).errors = [] := by
  refine (Checked.signatures_errors_eq_nil_iff Checked.holdsFunctions_initial
    definitions).1.mpr ?_
  simpa [Function.signature, Function.comp_def] using distinct

/-- The errors of functions with different names: first that of a missing
`main`, then those of each function. -/
theorem analyse_errors_of_distinct
    (distinct : (definitions.map Function.name).Nodup) :
    (analyse (.functions definitions)).errors =
      Function.startErrors definitions ++
        definitions.flatMap (Function.ownErrors definitions) := by
  change (Checked.program (.functions definitions)).errors = _
  simp only [Checked.program, Checked.errors_bind]
  rw [signatures_errors_of_distinct distinct, start_errors,
    Checked.functions_errors (offers_globals definitions).wellFormed]
  rfl

/-- A function has the same errors wherever it stands. -/
theorem ownErrors_eq_of_perm (perm : definitions.Perm reordered)
    (distinct : (definitions.map Function.name).Nodup) (function : Function) :
    function.ownErrors definitions = function.ownErrors reordered := by
  have entriesDistinct :
      ((definitions.map Function.entry).map Prod.fst).Nodup := by
    rwa [map_fst_entry]
  apply Checked.function_errors_alike (offers_globals definitions).wellFormed
    (offers_globals reordered).wellFormed
  intro name
  rw [(offers_globals definitions).resolve?_eq,
    (offers_globals reordered).resolve?_eq,
    lookup_eq_of_perm (perm.map Function.entry) entriesDistinct]

theorem startErrors_withoutLast_eq_of_perm (perm : definitions.Perm reordered) :
    (Function.startErrors definitions).map SemanticError.withoutLast =
      (Function.startErrors reordered).map SemanticError.withoutLast := by
  have memberIff := (perm.map Function.name).mem_iff (a := entryPoint)
  unfold Function.startErrors
  by_cases member : entryPoint ∈ definitions.map Function.name
  · rw [if_pos member, if_pos (memberIff.mp member)]
  · rw [if_neg member, if_neg (mt memberIff.mpr member)]
    simp [SemanticError.withoutLast]

/-- Two orders of functions with different names have the same errors, up to
order. -/
theorem analyse_errors_perm_of_distinct (perm : definitions.Perm reordered)
    (distinct : (definitions.map Function.name).Nodup) :
    ((analyse (.functions definitions)).errors.map
      SemanticError.withoutLast).Perm
      ((analyse (.functions reordered)).errors.map
        SemanticError.withoutLast) := by
  have reorderedDistinct : (reordered.map Function.name).Nodup :=
    (perm.map Function.name).nodup_iff.mp distinct
  have ownEq : Function.ownErrors definitions = Function.ownErrors reordered :=
    funext (ownErrors_eq_of_perm perm distinct)
  rw [analyse_errors_of_distinct distinct,
    analyse_errors_of_distinct reorderedDistinct, List.map_append,
    List.map_append, startErrors_withoutLast_eq_of_perm perm, ownEq]
  exact ((perm.flatMap_right _).map _).append_left _

/-- A name that is given twice is an error in every order. -/
theorem isAccepted_eq_false_of_not_distinct
    (repeated : ¬ (definitions.map Function.name).Nodup) :
    (analyse (.functions definitions)).isAccepted = false := by
  rw [Analysis.isAccepted, List.isEmpty_eq_false_iff]
  intro clean
  exact repeated
    ((Checked.program_errors_eq_nil_iff (.functions definitions)).mp
      clean).distinct

theorem isAccepted_eq_of_perm (perm : definitions.Perm reordered) :
    (analyse (.functions definitions)).isAccepted =
      (analyse (.functions reordered)).isAccepted := by
  have distinctIff := (perm.map Function.name).nodup_iff
  by_cases distinct : (definitions.map Function.name).Nodup
  · have sameLength := (analyse_errors_perm_of_distinct perm distinct).length_eq
    rw [List.length_map, List.length_map] at sameLength
    rw [Bool.eq_iff_iff, Analysis.isAccepted, Analysis.isAccepted,
      List.isEmpty_iff_length_eq_zero, List.isEmpty_iff_length_eq_zero,
      sameLength]
  · rw [isAccepted_eq_false_of_not_distinct distinct,
      isAccepted_eq_false_of_not_distinct (mt distinctIff.mpr distinct)]

end Order

/-- The order of functions does not matter.  Two orders are both accepted or
both not.  If the names are different, the errors are the same up to order,
apart from where a missing `main` is reported, and each function contributes
the same errors in the same order. -/
theorem analyse_definitions_perm {definitions reordered : List Function}
    (perm : definitions.Perm reordered) :
    (analyse (.functions definitions)).isAccepted =
        (analyse (.functions reordered)).isAccepted ∧
      ((definitions.map Function.name).Nodup →
        ((analyse (.functions definitions)).errors.map
          SemanticError.withoutLast).Perm
            ((analyse (.functions reordered)).errors.map
              SemanticError.withoutLast) ∧
          (analyse (.functions definitions)).errors =
            Function.startErrors definitions ++
            definitions.flatMap (Function.ownErrors definitions) ∧
          (analyse (.functions reordered)).errors =
            Function.startErrors reordered ++
            reordered.flatMap (Function.ownErrors reordered) ∧
          ∀ function : Function,
            function.ownErrors definitions = function.ownErrors reordered) := by
  refine ⟨isAccepted_eq_of_perm perm, fun distinct => ?_⟩
  have reorderedDistinct : (reordered.map Function.name).Nodup :=
    (perm.map Function.name).nodup_iff.mp distinct
  exact ⟨analyse_errors_perm_of_distinct perm distinct,
    analyse_errors_of_distinct distinct,
    analyse_errors_of_distinct reorderedDistinct,
    ownErrors_eq_of_perm perm distinct⟩

/-- The functions `fun odd(n: int) begin even(n, n) end` and
`fun even(n: int) begin odd() end`, each of which calls the other with a wrong
number of arguments. -/
def crossedCalls : List Function :=
  let param (position : Position) : Declaration := ⟨"n", ⟨.int, none⟩, position⟩
  let n (id : NodeId) (position : Position) : Expr :=
    .valueOf ⟨id + 1, position⟩ (.var ⟨id, position⟩ "n")
  [⟨"odd", [param ⟨1, 9⟩], [],
      [.call ⟨1, 23⟩ "even" [n 0 ⟨1, 28⟩, n 2 ⟨1, 31⟩]], ⟨1, 5⟩⟩,
    ⟨"even", [param ⟨2, 10⟩], [], [.call ⟨2, 24⟩ "odd" []], ⟨2, 5⟩⟩]

theorem analyse_definitions_perm_crossedCalls :
    crossedCalls.Perm crossedCalls.reverse ∧
      (crossedCalls.map Function.name).Nodup ∧
      ((analyse (.functions crossedCalls)).errors.map
        SemanticError.withoutLast).Perm
        ((analyse (.functions crossedCalls.reverse)).errors.map
          SemanticError.withoutLast) ∧
      (analyse (.functions crossedCalls)).errors ≠
        (analyse (.functions crossedCalls.reverse)).errors := by
  have perm : crossedCalls.Perm crossedCalls.reverse :=
    (List.reverse_perm crossedCalls).symm
  have distinct : (crossedCalls.map Function.name).Nodup := by decide +kernel
  exact ⟨perm, distinct, ((analyse_definitions_perm perm).2 distinct).1,
    by decide +kernel⟩

end PL0
