import Mathlib.Data.List.Basic
import PL0.Scope.Table

/-!
# The open scopes as a stack

Only the open scopes take part in looking names up.  Read from the inside out
they form a stack of frames: opening a scope pushes an empty frame, leaving it
pops one, and every other operation touches the innermost frame alone.  What a
table does is said here through that stack, so that nothing later has to speak
of scope numbers.
-/

namespace PL0

namespace ScopeTable

/-- The open scopes exist, and each was opened after the ones around it. -/
structure WellFormed (table : ScopeTable) : Prop where
  current_lt : table.current < table.scopes.length
  nested : (table.current :: table.outer).Pairwise fun inner outer =>
    outer < inner

/-- The open scopes, from the inside out. -/
def frames (table : ScopeTable) : List Scope :=
  (table.current :: table.outer).filterMap table.scope?

theorem WellFormed.open_lt {table : ScopeTable} (wellFormed : table.WellFormed)
    {id : ScopeId} (isOpen : id ∈ table.current :: table.outer) :
    id < table.scopes.length := by
  rcases List.mem_cons.mp isOpen with rfl | isOuter
  · exact wellFormed.current_lt
  · have below := (List.pairwise_cons.mp wellFormed.nested).1 id isOuter
    exact Nat.lt_trans below wellFormed.current_lt

theorem wellFormed_initial : initial.WellFormed where
  current_lt := by simp [initial]
  nested := by simp [initial]

@[simp]
theorem frames_initial : initial.frames = [Scope.empty .global none] :=
  rfl

theorem WellFormed.push {table : ScopeTable} (wellFormed : table.WellFormed)
    (kind : ScopeKind) : (table.push kind).WellFormed where
  current_lt := by simp [ScopeTable.push]
  nested := by
    refine List.pairwise_cons.mpr ⟨?_, wellFormed.nested⟩
    intro id isOpen
    exact wellFormed.open_lt isOpen

theorem frames_push {table : ScopeTable} (wellFormed : table.WellFormed)
    (kind : ScopeKind) :
    (table.push kind).frames =
      Scope.empty kind (some table.current) :: table.frames := by
  have kept : ∀ id ∈ table.current :: table.outer,
      (table.push kind).scope? id = table.scope? id := by
    intro id isOpen
    exact List.getElem?_append_left (wellFormed.open_lt isOpen)
  have added : (table.push kind).scope? table.scopes.length =
      some (Scope.empty kind (some table.current)) := by
    simp [scope?, ScopeTable.push]
  change List.filterMap (table.push kind).scope?
    (table.scopes.length :: table.current :: table.outer) = _
  rw [List.filterMap_cons_some added, List.filterMap_congr kept, frames]

theorem WellFormed.pop {table : ScopeTable} (wellFormed : table.WellFormed) :
    table.pop.WellFormed := by
  unfold ScopeTable.pop
  split
  · exact wellFormed
  · next parent outer outerEq =>
      refine ⟨?_, ?_⟩
      · exact wellFormed.open_lt (by simp [outerEq])
      · have nested := wellFormed.nested
        rw [outerEq] at nested
        exact (List.pairwise_cons.mp nested).2

/-- The innermost frame is the current scope, the others are the scopes around
it. -/
theorem WellFormed.scope?_current {table : ScopeTable}
    (wellFormed : table.WellFormed) {inner : Scope} {others : List Scope}
    (framesEq : table.frames = inner :: others) :
    table.scope? table.current = some inner ∧
      table.outer.filterMap table.scope? = others := by
  obtain ⟨scope, found⟩ : ∃ scope, table.scope? table.current = some scope :=
    ⟨_, List.getElem?_eq_getElem wellFormed.current_lt⟩
  have split : table.frames = scope :: table.outer.filterMap table.scope? :=
    List.filterMap_cons_some found
  rw [framesEq] at split
  injection split with same rest
  exact ⟨found.trans (congrArg some same.symm), rest.symm⟩

/-- A table with two open scopes has one left after the inner one is left. -/
theorem frames_pop {table : ScopeTable} (wellFormed : table.WellFormed)
    {inner outer : Scope} {others : List Scope}
    (framesEq : table.frames = inner :: outer :: others) :
    table.pop.frames = outer :: others := by
  obtain ⟨_, rest⟩ := wellFormed.scope?_current framesEq
  cases outerEq : table.outer with
  | nil => simp [outerEq] at rest
  | cons parent around =>
      rw [outerEq] at rest
      simp only [ScopeTable.pop, outerEq]
      exact rest

/-- A table with one open scope keeps it open. -/
theorem WellFormed.pop_eq_self {table : ScopeTable}
    (wellFormed : table.WellFormed) {inner : Scope}
    (framesEq : table.frames = [inner]) : table.pop = table := by
  obtain ⟨_, rest⟩ := wellFormed.scope?_current framesEq
  cases outerEq : table.outer with
  | nil => simp [ScopeTable.pop, outerEq]
  | cons parent around =>
      have isOpen : parent ∈ table.current :: table.outer := by simp [outerEq]
      have isScope : table.scope? parent = some _ :=
        List.getElem?_eq_getElem (wellFormed.open_lt isOpen)
      rw [outerEq, List.filterMap_cons_some isScope] at rest
      cases rest

theorem WellFormed.modifyCurrent {table : ScopeTable}
    (wellFormed : table.WellFormed) (change : Scope → Scope) :
    (table.modifyCurrent change).WellFormed where
  current_lt := by simpa [ScopeTable.modifyCurrent] using wellFormed.current_lt
  nested := wellFormed.nested

/-- Changing the current scope changes the innermost frame and no other. -/
theorem frames_modifyCurrent {table : ScopeTable}
    (wellFormed : table.WellFormed) {inner : Scope} {others : List Scope}
    (framesEq : table.frames = inner :: others)
    (change : Scope → Scope) :
    (table.modifyCurrent change).frames = change inner :: others := by
  obtain ⟨found, rest⟩ := wellFormed.scope?_current framesEq
  have changed : (table.modifyCurrent change).scope? table.current =
      some (change inner) := by
    change (table.scopes.modify table.current change)[table.current]? = _
    rw [List.getElem?_modify]
    simp only [scope?] at found
    simp [found]
  have kept : ∀ id ∈ table.outer,
      (table.modifyCurrent change).scope? id = table.scope? id := by
    intro id isOuter
    have below := (List.pairwise_cons.mp wellFormed.nested).1 id isOuter
    change (table.scopes.modify table.current change)[id]? = _
    rw [List.getElem?_modify]
    simp [scope?, Nat.ne_of_gt below]
  change List.filterMap (table.modifyCurrent change).scope?
    (table.current :: table.outer) = _
  rw [List.filterMap_cons_some changed, List.filterMap_congr kept, rest]

/-- A name is looked up frame by frame. -/
theorem resolve?_eq_findSome? (table : ScopeTable) (name : String) :
    table.resolve? name = table.frames.findSome? fun scope =>
      scope.find? name := by
  unfold resolve? frames
  induction table.current :: table.outer with
  | nil => rfl
  | cons id ids ih =>
      cases found : table.scope? id <;>
        simp [List.findSome?_cons, findIn?, found, ih]

theorem resolveLocal?_eq_find? {table : ScopeTable} {inner : Scope}
    {others : List Scope} (wellFormed : table.WellFormed)
    (framesEq : table.frames = inner :: others)
    (name : String) : table.resolveLocal? name = inner.find? name := by
  obtain ⟨found, _⟩ := wellFormed.scope?_current framesEq
  simp [resolveLocal?, findIn?, found]

theorem inLoop_eq_true_iff {table : ScopeTable} {inner : Scope}
    {others : List Scope} (wellFormed : table.WellFormed)
    (framesEq : table.frames = inner :: others) :
    table.inLoop = true ↔ inner.loops ≠ [] := by
  obtain ⟨found, _⟩ := wellFormed.scope?_current framesEq
  simp [inLoop, found]

/-- Some scope is always open. -/
theorem WellFormed.exists_frames {table : ScopeTable}
    (wellFormed : table.WellFormed) :
    ∃ inner others, table.frames = inner :: others :=
  ⟨_, _, List.filterMap_cons_some
    (List.getElem?_eq_getElem wellFormed.current_lt)⟩

theorem WellFormed.enterLoop {table : ScopeTable}
    (wellFormed : table.WellFormed) (position : Position) :
    (table.enterLoop position).WellFormed :=
  wellFormed.modifyCurrent _

/-- Entering a loop declares nothing. -/
theorem resolve?_enterLoop {table : ScopeTable} (wellFormed : table.WellFormed)
    (position : Position) (name : String) :
    (table.enterLoop position).resolve? name = table.resolve? name := by
  obtain ⟨inner, others, framesEq⟩ := wellFormed.exists_frames
  rw [resolve?_eq_findSome?, resolve?_eq_findSome?, enterLoop,
    frames_modifyCurrent wellFormed framesEq, framesEq]
  rfl

theorem inLoop_enterLoop {table : ScopeTable} (wellFormed : table.WellFormed)
    (position : Position) : (table.enterLoop position).inLoop = true := by
  obtain ⟨inner, others, framesEq⟩ := wellFormed.exists_frames
  have entered := frames_modifyCurrent wellFormed framesEq
    fun scope => { scope with loops := position :: scope.loops }
  exact (inLoop_eq_true_iff (wellFormed.modifyCurrent _) entered).mpr (by simp)

end ScopeTable

end PL0
