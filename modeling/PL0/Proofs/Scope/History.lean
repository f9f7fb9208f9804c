import PL0.Proofs.Scope.Entries
import PL0.Proofs.Scope.Operations
import PL0.Proofs.Scope.Texts

/-!
# What a table remembers

A scope holds the definitions that were made while it was the current one,
each name once and in the order in which they were made; a definition of a name
that is taken leaves no trace.  What the names stand for and their order are
kept apart in a scope, and no operation lets the two drift apart.  A scope that
has been left is never open again, and from then on nothing about it changes.
-/

namespace PL0

namespace ScopeTable

section Definitions

/-- The definition that an operation makes in a scope, if it makes one there. -/
def definition? (table : ScopeTable) (id : ScopeId) :
    Operation → Option (String × Binding)
  | .define name binding =>
    if table.current = id ∧ (table.perform (.define name binding)).1 = .done
    then some (name, binding) else none
  | _ => none

/-- The definitions that operations make in a scope, in order. -/
def definitions (table : ScopeTable) (id : ScopeId) :
    List Operation → List (String × Binding)
  | [] => []
  | first :: others =>
    (table.definition? id first).toList ++
      (table.perform first).2.definitions id others

/-- The entries of a scope in order, none if it has not been opened. -/
def entriesIn (table : ScopeTable) (id : ScopeId) : List (String × Binding) :=
  (table.scope? id).elim [] Scope.entries

/-- The open scopes are well formed, and in every scope the order has just the
names that stand for something. -/
structure Consistent (table : ScopeTable) : Prop where
  wellFormed : table.WellFormed
  scopes : ∀ id scope, table.scope? id = some scope → scope.Consistent

variable {table : ScopeTable} {id : ScopeId}

theorem Consistent.initial : ScopeTable.initial.Consistent where
  wellFormed := wellFormed_initial
  scopes := by
    intro id scope isScope
    cases id with
    | zero =>
        cases isScope
        exact Scope.consistent_empty .global none
    | succ id => cases isScope

theorem Consistent.push (consistent : table.Consistent) (kind : ScopeKind) :
    (table.push kind).Consistent where
  wellFormed := consistent.wellFormed.push kind
  scopes := by
    intro id scope isScope
    rw [scope?_push] at isScope
    split at isScope
    · cases isScope
      exact Scope.consistent_empty kind _
    · exact consistent.scopes id scope isScope

theorem Consistent.pop (consistent : table.Consistent) :
    table.pop.Consistent where
  wellFormed := consistent.wellFormed.pop
  scopes := by
    intro id scope isScope
    rw [scope?_pop] at isScope
    exact consistent.scopes id scope isScope

/-- Only a change of the current scope could let its order and its meanings
drift apart. -/
theorem Consistent.modifyCurrent (consistent : table.Consistent)
    {change : Scope → Scope}
    (keeps : ∀ scope, table.scope? table.current = some scope →
      scope.Consistent → (change scope).Consistent) :
    (table.modifyCurrent change).Consistent where
  wellFormed := consistent.wellFormed.modifyCurrent change
  scopes := by
    intro id scope isScope
    rw [scope?_modifyCurrent] at isScope
    split at isScope
    · next isCurrent =>
        obtain ⟨before, isBefore, rfl⟩ := Option.map_eq_some_iff.mp isScope
        exact keeps before (isCurrent ▸ isBefore)
          (consistent.scopes id before isBefore)
    · exact consistent.scopes id scope isScope

theorem find?_eq_none_of_resolveLocal? {name : String} {scope : Scope}
    (missing : table.resolveLocal? name = none)
    (isScope : table.scope? table.current = some scope) :
    scope.find? name = none := by
  rwa [resolveLocal?, findIn?, isScope] at missing

theorem Consistent.perform (consistent : table.Consistent)
    (operation : Operation) : (table.perform operation).2.Consistent := by
  cases operation with
  | push kind => exact consistent.push kind
  | pop => exact consistent.pop
  | define name binding =>
      cases found : table.resolveLocal? name with
      | some existing =>
          rw [perform_define_of_taken found]
          exact consistent
      | none =>
          rw [perform_define_of_new found]
          refine consistent.modifyCurrent ?_
          intro scope isScope scopeConsistent
          exact scopeConsistent.add
            (find?_eq_none_of_resolveLocal? found isScope) binding
  | resolve name => exact consistent
  | resolveLocal name => exact consistent
  | enterLoop position =>
      exact consistent.modifyCurrent fun _ _ kept =>
        ⟨kept.distinct, kept.complete⟩
  | exitLoop =>
      exact consistent.modifyCurrent fun _ _ kept =>
        ⟨kept.distinct, kept.complete⟩
  | inLoop => exact consistent

theorem consistent_after (operations : List Operation) :
    (ScopeTable.initial.after operations).Consistent :=
  after_induction (fun _ operation consistent => consistent.perform operation)
    .initial operations

theorem entriesIn_initial (id : ScopeId) : initial.entriesIn id = [] := by
  cases id <;> rfl

theorem entriesIn_modifyCurrent {change : Scope → Scope}
    (keeps : ∀ scope, (change scope).entries = scope.entries) :
    (table.modifyCurrent change).entriesIn id = table.entriesIn id := by
  rw [entriesIn, scope?_modifyCurrent, entriesIn]
  split
  · cases table.scope? id with
    | none => rfl
    | some scope => exact keeps scope
  · rfl

theorem entriesIn_push (table : ScopeTable) (kind : ScopeKind) (id : ScopeId) :
    (table.push kind).entriesIn id = table.entriesIn id := by
  rw [entriesIn, scope?_push, entriesIn]
  split
  · next isNew =>
      rw [isNew, scope?, List.getElem?_eq_none (Nat.le_refl _)]
      rfl
  · rfl

/-- A definition that succeeds is the last entry of the current scope. -/
theorem entriesIn_define (consistent : table.Consistent) (name : String)
    (binding : Binding) :
    (table.perform (.define name binding)).2.entriesIn id =
      table.entriesIn id ++
        (table.definition? id (.define name binding)).toList := by
  cases found : table.resolveLocal? name with
  | some existing => simp [definition?, perform_define_of_taken found]
  | none =>
      simp only [definition?, perform_define_of_new found, and_true]
      rw [entriesIn, scope?_modifyCurrent, entriesIn]
      split
      · next isCurrent =>
          subst isCurrent
          obtain ⟨scope, isScope⟩ :
            ∃ scope, table.scope? table.current = some scope :=
            ⟨_, List.getElem?_eq_getElem consistent.wellFormed.current_lt⟩
          rw [isScope]
          exact (consistent.scopes _ scope isScope).entries_add
            (find?_eq_none_of_resolveLocal? found isScope) binding
      · simp

/-- An operation adds to each scope the definition that it makes there, and
nothing else. -/
theorem entriesIn_perform (consistent : table.Consistent) (id : ScopeId)
    (operation : Operation) :
    (table.perform operation).2.entriesIn id =
      table.entriesIn id ++ (table.definition? id operation).toList := by
  cases operation with
  | push kind => simpa [perform, definition?] using table.entriesIn_push kind id
  | pop => simp [perform, definition?, entriesIn, scope?_pop]
  | define name binding => exact entriesIn_define consistent name binding
  | resolve name => simp [perform, definition?]
  | resolveLocal name => simp [perform, definition?]
  | enterLoop position =>
      simp only [definition?, Option.toList_none, List.append_nil]
      exact entriesIn_modifyCurrent fun _ => rfl
  | exitLoop =>
      simp only [definition?, Option.toList_none, List.append_nil]
      exact entriesIn_modifyCurrent fun _ => rfl
  | inLoop => simp [perform, definition?]

theorem entriesIn_after (consistent : table.Consistent) (id : ScopeId)
    (operations : List Operation) :
    (table.after operations).entriesIn id =
      table.entriesIn id ++ table.definitions id operations := by
  induction operations generalizing table with
  | nil => simp [definitions]
  | cons first others ih =>
      rw [after_cons, ih (consistent.perform first),
        entriesIn_perform consistent, definitions, List.append_assoc]

/-- The entries of a scope in order are the definitions that have been made in
it. -/
theorem entries_eq_definitions {operations : List Operation} {scope : Scope}
    (isScope : (initial.after operations).scope? id = some scope) :
    scope.entries = initial.definitions id operations := by
  have entriesEq := entriesIn_after Consistent.initial id operations
  rw [entriesIn_initial, List.nil_append, entriesIn, isScope] at entriesEq
  exact entriesEq

end Definitions

section Closed

/-- The scope has been opened, and it has been left. -/
structure Closed (table : ScopeTable) (id : ScopeId) : Prop where
  lt : id < table.scopes.length
  left : id ∉ table.current :: table.outer

variable {table : ScopeTable} {id : ScopeId}

/-- The current scope is left when another one takes its place. -/
theorem closed_pop (wellFormed : table.WellFormed)
    (leaves : table.pop.current ≠ table.current) :
    table.pop.Closed table.current where
  lt := by
    rw [scopes_pop]
    exact wellFormed.current_lt
  left := by
    cases outerEq : table.outer with
    | nil => simp [pop, outerEq] at leaves
    | cons parent around =>
        have below := (List.pairwise_cons.mp wellFormed.nested).1
        simp only [pop, outerEq] at below ⊢
        exact fun isOpen => Nat.lt_irrefl _ (below _ isOpen)

/-- An operation leaves a closed scope closed and as it is. -/
theorem Closed.perform (closed : table.Closed id) (operation : Operation) :
    (table.perform operation).2.Closed id ∧
      (table.perform operation).2.scope? id = table.scope? id := by
  have notNew := Nat.ne_of_lt closed.lt
  have notCurrent : table.current ≠ id :=
    fun same => closed.left (same ▸ List.mem_cons_self)
  rcases table.perform_cases operation with same | ⟨kind, pushed⟩ | popped |
    ⟨change, changed, _⟩
  · rw [same]
    exact ⟨closed, rfl⟩
  -- A new scope has a number of its own, and only the current scope is ever
  -- changed.
  · rw [pushed, scope?_push, if_neg notNew]
    refine ⟨⟨?_, ?_⟩, rfl⟩
    · exact Nat.lt_of_lt_of_le closed.lt (by simp [push])
    · rw [List.mem_cons, not_or]
      exact ⟨notNew, closed.left⟩
  · rw [popped, scope?_pop]
    refine ⟨⟨by simpa using closed.lt, ?_⟩, rfl⟩
    cases outerEq : table.outer with
    | nil => simpa [pop, outerEq] using closed.left
    | cons parent around =>
        have left := closed.left
        rw [outerEq] at left
        simpa [pop, outerEq] using (List.not_mem_of_not_mem_cons left)
  · rw [changed, scope?_modifyCurrent, if_neg notCurrent]
    exact ⟨⟨by simpa [modifyCurrent] using closed.lt, closed.left⟩, rfl⟩

theorem Closed.scope?_after (closed : table.Closed id)
    (operations : List Operation) :
    (table.after operations).scope? id = table.scope? id := by
  induction operations generalizing table with
  | nil => rfl
  | cons first others ih =>
      obtain ⟨stillClosed, same⟩ := closed.perform first
      rw [after_cons, ih stillClosed, same]

end Closed

/-- The listing of a table shows the scopes in the order in which they were
opened, and under each the definitions that have been made in it, in order. -/
theorem listing_after (operations : List Operation) :
    (initial.after operations).listing =
      String.join
        ((initial.after operations).scopes.zipIdx.map fun (scope, id) =>
        "scope " ++ toString id ++ " (" ++ scope.kind.text ++
          (scope.parent?.elim "" fun parent =>
            ", parent " ++ toString parent) ++ ")\n" ++
          String.join
            ((initial.definitions id operations).map fun (name, binding) =>
            "  " ++ name ++ ": " ++ binding.text ++ "\n")) := by
  rw [listing]
  congr 1
  apply List.map_congr_left
  rintro ⟨scope, id⟩ member
  have isScope : (initial.after operations).scope? id = some scope :=
    List.mem_zipIdx_iff_getElem?.mp member
  change scope.listing id = _
  rw [Scope.listing, entries_eq_definitions isScope]
  simp only [Scope.entryText, String.append_assoc]

/-- What holds of a table after any operations.  Scope zero has no parent, and
every other scope has one with a smaller number.  In a scope no name comes twice
in the order, which has just the names that stand for something, and in this
order they are the definitions that have been made in that scope.  The listing
shows just these under the number, the kind and the parent of their scope, each
by its name and a text that tells all but the column of its declaration.  When
a scope is left, it stays as it is then, whatever is done later. -/
theorem after_arena (operations : List Operation) :
    let table := initial.after operations
    (∃ outermost, table.scope? 0 = some outermost ∧ outermost.parent? = none) ∧
    (∀ id scope, 0 < id → table.scope? id = some scope →
      ∃ parent < id, scope.parent? = some parent) ∧
    (∀ id scope, table.scope? id = some scope →
      scope.order.Nodup ∧ (∀ name, name ∈ scope.order ↔ name ∈ scope.meanings) ∧
        scope.order = (initial.definitions id operations).map Prod.fst ∧
        scope.entries = initial.definitions id operations) ∧
    table.listing = String.join (table.scopes.zipIdx.map fun (scope, id) =>
      "scope " ++ toString id ++ " (" ++ scope.kind.text ++
        (scope.parent?.elim "" fun parent => ", parent " ++ toString parent) ++
        ")\n" ++
        String.join
          ((initial.definitions id operations).map fun (name, binding) =>
            "  " ++ name ++ ": " ++ binding.text ++ "\n")) ∧
    (∀ kind other : ScopeKind, kind.text = other.text → kind = other) ∧
    (∀ binding other : Binding, binding.text = other.text →
      binding.dropColumn = other.dropColumn) ∧
    ∀ later, table.pop.current ≠ table.current →
      (initial.after (operations ++ .pop :: later)).scope? table.current =
        table.scope? table.current := by
  intro table
  have rooted : table.Rooted := rooted_after operations
  refine ⟨?_, ?_, ?_, listing_after operations,
    fun _ _ => ScopeKind.text_injective, fun _ _ => Binding.text_injective, ?_⟩
  · exact Option.map_eq_some_iff.mp rooted.outermost
  · intro id scope positive isScope
    have lt : id < table.scopes.length :=
      (List.getElem?_eq_some_iff.mp isScope).1
    obtain ⟨parent, below, parentEq⟩ := rooted.earlier id positive lt
    rw [parentOf?, isScope] at parentEq
    exact ⟨parent, below, Option.some.inj parentEq⟩
  · intro id scope isScope
    have consistent := (consistent_after operations).scopes id scope isScope
    have made := entries_eq_definitions isScope
    refine ⟨consistent.distinct, consistent.complete, ?_, made⟩
    rw [← made, consistent.map_fst_entries]
  · intro later leaves
    have closed := closed_pop rooted.wellFormed leaves
    rw [after_append, after_cons]
    exact (closed.scope?_after later).trans (table.scope?_pop table.current)

/-- Inside the scope of a function a variable is declared, and then once more
in vain; a loop is entered and not left. -/
def declaredTwice : List Operation :=
  [.define "f" (.function [] ⟨1, 5⟩), .push (.function "f"),
    .define "x" (.var .int .localVar ⟨2, 3⟩),
    .define "x" (.var .float .localVar ⟨3, 3⟩),
    .enterLoop ⟨4, 1⟩]

/-- The scope is left as it is at the end of its use.  Later definitions go
elsewhere, also those in another scope for the same function. -/
theorem after_arena_declaredTwice :
    let later : List Operation := [.define "x" (.function [] ⟨5, 5⟩), .exitLoop,
      .push (.function "f"), .define "y" (.var .int .localVar ⟨6, 3⟩),
      .pop, .pop]
    (initial.after declaredTwice).pop.current ≠
      (initial.after declaredTwice).current ∧
      ∃ scope, (initial.after (declaredTwice ++ .pop :: later)).scope? 1 =
        some scope ∧
        scope.kind = .function "f" ∧ scope.parent? = some 0 ∧
          scope.order = ["x"] ∧
        scope.entries = [("x", .var .int .localVar ⟨2, 3⟩)] ∧
          scope.loops = [⟨4, 1⟩] := by
  intro later
  have leaves : (initial.after declaredTwice).pop.current ≠
      (initial.after declaredTwice).current := by decide
  obtain ⟨-, -, made, -, -, -, stays⟩ := after_arena declaredTwice
  obtain ⟨-, -, order, entries⟩ := made 1 _ rfl
  exact ⟨leaves, _, stays later leaves, rfl, rfl, order, entries, rfl⟩

end ScopeTable

end PL0
