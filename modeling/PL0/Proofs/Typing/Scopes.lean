import PL0.Proofs.Scope.Entries
import PL0.Proofs.Scope.Frames
import PL0.Proofs.Tree.Occurrences
import PL0.Typing.Check

/-!
# The scopes that checking builds up

Checking goes on after a name that is taken: the name keeps its first meaning,
and the fault changes nothing.  So what a scope finds is what the list of all
declarations so far has first, with or without faults, and after a function
the open scopes are those from before it.
-/

namespace PL0

/-- A declaration as an entry of a scope. -/
def Declaration.entry (role : VariableRole) (declaration : Declaration) :
    String × Binding :=
  (declaration.name, .var declaration.type.valueType role declaration.position)

namespace Function

/-- A function as an entry of a scope. -/
def entry (function : Function) : String × Binding :=
  (function.name,
    .function (function.params.map fun param => param.type.valueType)
      function.position)

/-- The variables of a function as entries of its scope, its parameters
first. -/
def entries (function : Function) : List (String × Binding) :=
  function.params.map (Declaration.entry .param) ++
    function.locals.map (Declaration.entry .localVar)

end Function

/-- A scope finds what a list of entries has first. -/
def Scope.Finds (scope : Scope) (listed : List (String × Binding)) : Prop :=
  ∀ name, scope.find? name = listed.lookup name

/-- An entry at the end is found if the name is new. -/
theorem Scope.Finds.concat {scope : Scope} {listed : List (String × Binding)}
    (finds : scope.Finds listed) {name : String}
    (fresh : listed.lookup name = none) (binding : Binding) :
    (scope.add name binding).Finds (listed ++ [(name, binding)]) := by
  intro other
  rw [Scope.find?_add, finds other, lookup_concat_of_fresh fresh]

/-- An entry for a name that is taken is never found. -/
theorem Scope.Finds.concat_taken {scope : Scope}
    {listed : List (String × Binding)} (finds : scope.Finds listed)
    {taken : String} {existing : Binding}
    (found : listed.lookup taken = some existing) (binding : Binding) :
    scope.Finds (listed ++ [(taken, binding)]) := by
  intro name
  rw [finds name, lookup_concat_of_taken found]

namespace ScopeTable

/-- The current scope finds the given entries and has no open loop, and the
given scopes are open around it. -/
structure Offers (table : ScopeTable) (listed : List (String × Binding))
    (around : List Scope) : Prop where
  wellFormed : table.WellFormed
  frames : ∃ inner, table.frames = inner :: around ∧ inner.loops = [] ∧
    inner.Finds listed

variable {table : ScopeTable} {listed : List (String × Binding)}
  {around : List Scope}

theorem Offers.resolveLocal?_eq (offers : table.Offers listed around)
    (name : String) : table.resolveLocal? name = listed.lookup name := by
  obtain ⟨inner, framesEq, _, finds⟩ := offers.frames
  rw [resolveLocal?_eq_find? offers.wellFormed framesEq, finds]

theorem Offers.resolve?_eq (offers : table.Offers listed around)
    (name : String) :
    table.resolve? name =
      (listed.lookup name).or (around.findSome? fun scope =>
        scope.find? name) := by
  obtain ⟨inner, framesEq, _, finds⟩ := offers.frames
  rw [resolve?_eq_findSome?, framesEq, ← finds name]
  cases found : inner.find? name <;> simp [found]

theorem Offers.inLoop_eq_false (offers : table.Offers listed around) :
    table.inLoop = false := by
  obtain ⟨inner, framesEq, noLoops, _⟩ := offers.frames
  have inLoopIff := inLoop_eq_true_iff offers.wellFormed framesEq
  rw [noLoops] at inLoopIff
  simpa using inLoopIff

theorem offers_initial : initial.Offers [] [] :=
  ⟨wellFormed_initial, _, rfl, rfl, Scope.find?_empty .global none⟩

/-- A scope opens without entries, inside those that were open. -/
theorem WellFormed.offers_push (wellFormed : table.WellFormed)
    (kind : ScopeKind) : (table.push kind).Offers [] table.frames :=
  ⟨wellFormed.push kind, _, frames_push wellFormed kind, rfl,
    Scope.find?_empty kind _⟩

/-- When a scope is left, the scopes around it are as before. -/
theorem Offers.frames_pop (offers : table.Offers listed around)
    (inside : around ≠ []) : table.pop.frames = around := by
  obtain ⟨inner, framesEq, _⟩ := offers.frames
  obtain ⟨outer, others, rfl⟩ := List.exists_cons_of_ne_nil inside
  exact ScopeTable.frames_pop offers.wellFormed framesEq

end ScopeTable

namespace Checked

variable {table : ScopeTable} {listed : List (String × Binding)}
  {around : List Scope}

/-- A name that is taken is reported, and where it was declared first. -/
theorem define_errors (offers : table.Offers listed around) (kind : NameKind)
    (name : String) (binding : Binding) :
    (define table kind name binding).errors =
      (listed.lookup name).toList.map fun existing =>
        ⟨.duplicate kind name existing.position, binding.position⟩ := by
  unfold define ScopeTable.define
  rw [offers.resolveLocal?_eq]
  cases listed.lookup name <;> rfl

/-- A definition is entered, whether the name is new or taken. -/
theorem offers_define (offers : table.Offers listed around) (kind : NameKind)
    (name : String) (binding : Binding) :
    (define table kind name binding).value.Offers (listed ++ [(name, binding)])
      around := by
  obtain ⟨inner, framesEq, noLoops, finds⟩ := offers.frames
  unfold define ScopeTable.define
  rw [offers.resolveLocal?_eq]
  cases found : listed.lookup name with
  | some existing =>
      exact ⟨offers.wellFormed, inner, framesEq, noLoops,
        finds.concat_taken found binding⟩
  | none =>
      exact ⟨offers.wellFormed.modifyCurrent _, _,
        ScopeTable.frames_modifyCurrent offers.wellFormed framesEq _, noLoops,
        finds.concat found binding⟩

theorem offers_declarations (role : VariableRole) (declared : List Declaration)
    (offers : table.Offers listed around) :
    (declarations role table declared).value.Offers
      (listed ++ declared.map (Declaration.entry role)) around := by
  induction declared generalizing table listed with
  | nil => simpa [declarations] using offers
  | cons first others ih =>
      have next := offers_define offers (nameKind role) first.name
        (.var first.type.valueType role first.position)
      simpa [declarations, Declaration.entry] using ih next

theorem offers_signatures (definitions : List Function)
    (offers : table.Offers listed around) :
    (signatures table definitions).value.Offers
      (listed ++ definitions.map Function.entry) around := by
  induction definitions generalizing table listed with
  | nil => simpa [signatures] using offers
  | cons first others ih =>
      have next := offers_define offers .function first.name
        (.function (first.params.map fun param =>
          param.type.valueType) first.position)
      simpa [signatures, Function.entry] using ih next

/-- The scopes while a function is checked: after its parameters and after its
locals. -/
theorem offers_params (wellFormed : table.WellFormed) (definition : Function) :
    (declarations .param (table.push (.function definition.name))
      definition.params).value.Offers
        (definition.params.map (Declaration.entry .param)) table.frames := by
  simpa using offers_declarations .param definition.params
    (wellFormed.offers_push (.function definition.name))

theorem offers_locals (wellFormed : table.WellFormed) (definition : Function) :
    (declarations .localVar
      (declarations .param (table.push (.function definition.name))
        definition.params).value
      definition.locals).value.Offers definition.entries table.frames :=
  offers_declarations .localVar definition.locals
    (offers_params wellFormed definition)

/-- A function leaves the open scopes as they were. -/
theorem function_frames (wellFormed : table.WellFormed)
    (definition : Function) :
    (function table definition).value.WellFormed ∧
      (function table definition).value.frames = table.frames := by
  have inside := offers_locals wellFormed definition
  have nonempty : table.frames ≠ [] := by
    obtain ⟨inner, others, framesEq⟩ := wellFormed.exists_frames
    simp [framesEq]
  exact ⟨inside.wellFormed.pop, inside.frames_pop nonempty⟩

end Checked

end PL0
