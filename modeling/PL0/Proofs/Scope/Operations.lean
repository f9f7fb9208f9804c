import PL0.Proofs.Scope.Frames

/-!
# Using a table of scopes

A table is used by one operation after another.  An operation opens a scope,
leaves one, changes the current one, or only looks something up; none of them
changes the kind or the parent of a scope that exists.  So in every table that
is reached from the initial one the first scope has no parent, every other
scope has a parent that was opened before it, and from the current scope the
parents lead through the open scopes, one after the other, to the first.
-/

namespace PL0.ScopeTable

/-- Something to do with a table. -/
inductive Operation where
  | push (kind : ScopeKind)
  | pop
  | define (name : String) (binding : Binding)
  | resolve (name : String)
  | resolveLocal (name : String)
  | enterLoop (position : Position)
  | exitLoop
  | inLoop
deriving DecidableEq

/-- What is answered. -/
inductive Answer where
  | done
  /-- The name has been declared before, at the position. -/
  | taken (previous : Position)
  | meaning (binding? : Option Binding)
  | looping (inside : Bool)
deriving DecidableEq

/-- Do something with a table. -/
def perform (table : ScopeTable) : Operation → Answer × ScopeTable
  | .push kind => (.done, table.push kind)
  | .pop => (.done, table.pop)
  | .define name binding =>
    match table.define name binding with
    | .ok changed => (.done, changed)
    | .error existing => (.taken existing.position, table)
  | .resolve name => (.meaning (table.resolve? name), table)
  | .resolveLocal name => (.meaning (table.resolveLocal? name), table)
  | .enterLoop position => (.done, table.enterLoop position)
  | .exitLoop => (.done, table.exitLoop)
  | .inLoop => (.looping table.inLoop, table)

/-- The table after some operations. -/
def after (table : ScopeTable) (operations : List Operation) : ScopeTable :=
  operations.foldl (fun table operation => (table.perform operation).2) table

@[simp]
theorem after_nil (table : ScopeTable) : table.after [] = table :=
  rfl

@[simp]
theorem after_cons (table : ScopeTable) (first : Operation)
    (others : List Operation) :
    table.after (first :: others) = (table.perform first).2.after others :=
  rfl

theorem after_append (table : ScopeTable) (first second : List Operation) :
    table.after (first ++ second) = (table.after first).after second :=
  List.foldl_append

/-- What every operation keeps is kept by all of them together. -/
theorem after_induction {Holds : ScopeTable → Prop}
    (keeps : ∀ table operation, Holds table → Holds (table.perform operation).2)
    {table : ScopeTable} (holds : Holds table) (operations : List Operation) :
    Holds (table.after operations) := by
  induction operations generalizing table with
  | nil => exact holds
  | cons first others ih => exact ih (keeps table first holds)

section Steps

variable (table : ScopeTable)

theorem scope?_push (kind : ScopeKind) (id : ScopeId) :
    (table.push kind).scope? id =
      if id = table.scopes.length
        then some (Scope.empty kind (some table.current))
      else table.scope? id := by
  change (table.scopes ++ [_])[id]? = _
  split
  · next isNew => simp [isNew]
  · next isOld =>
      rcases Nat.lt_or_gt_of_ne isOld with below | above
      · rw [List.getElem?_append_left below]
        rfl
      · rw [List.getElem?_eq_none (by simp; omega), scope?,
          List.getElem?_eq_none (by omega)]

@[simp]
theorem scopes_pop : table.pop.scopes = table.scopes := by
  unfold pop
  split <;> rfl

theorem scope?_pop (id : ScopeId) : table.pop.scope? id = table.scope? id := by
  rw [scope?, scopes_pop, scope?]

theorem scope?_modifyCurrent (change : Scope → Scope) (id : ScopeId) :
    (table.modifyCurrent change).scope? id =
      if table.current = id then (table.scope? id).map change
        else table.scope? id := by
  change (table.scopes.modify table.current change)[id]? = _
  rw [List.getElem?_modify, scope?]
  split
  · rfl
  · cases table.scopes[id]? <;> rfl

variable {table} in
theorem perform_define_of_taken {name : String} {existing : Binding}
    (found : table.resolveLocal? name = some existing) (binding : Binding) :
    table.perform (.define name binding) = (.taken existing.position,
      table) := by
  simp [perform, ScopeTable.define, found]

variable {table} in
theorem perform_define_of_new {name : String}
    (missing : table.resolveLocal? name = none) (binding : Binding) :
    table.perform (.define name binding) =
      (.done, table.modifyCurrent fun scope => scope.add name binding) := by
  simp [perform, ScopeTable.define, missing]

/-- What can become of a table. -/
theorem perform_cases (operation : Operation) :
    (table.perform operation).2 = table ∨
      (∃ kind, (table.perform operation).2 = table.push kind) ∨
      (table.perform operation).2 = table.pop ∨
      ∃ change, (table.perform operation).2 = table.modifyCurrent change ∧
        ∀ scope, (change scope).parent? = scope.parent? := by
  cases operation with
  | push kind => exact .inr (.inl ⟨kind, rfl⟩)
  | pop => exact .inr (.inr (.inl rfl))
  | define name binding =>
      cases found : table.resolveLocal? name with
      | some existing =>
          rw [perform_define_of_taken found]
          exact .inl rfl
      | none =>
          rw [perform_define_of_new found]
          exact .inr (.inr (.inr ⟨_, rfl, fun _ => rfl⟩))
  | resolve name => exact .inl rfl
  | resolveLocal name => exact .inl rfl
  | enterLoop position => exact .inr (.inr (.inr ⟨_, rfl, fun _ => rfl⟩))
  | exitLoop => exact .inr (.inr (.inr ⟨_, rfl, fun _ => rfl⟩))
  | inLoop => exact .inl rfl

end Steps

section Parents

/-- The parent of a scope, or that it has none. -/
def parentOf? (table : ScopeTable) (id : ScopeId) : Option (Option ScopeId) :=
  (table.scope? id).map Scope.parent?

/-- The parents lead from a scope through the given ones to the end of the
chain. -/
def Leads (table : ScopeTable) : Option ScopeId → List ScopeId → Prop
  | id?, [] => id? = none
  | id?, id :: others =>
    id? = some id ∧ ∃ parent?, table.parentOf? id = some parent? ∧
      table.Leads parent? others

variable {table other : ScopeTable}

theorem parentOf?_push_of_lt (kind : ScopeKind) {id : ScopeId}
    (lt : id < table.scopes.length) :
    (table.push kind).parentOf? id = table.parentOf? id := by
  rw [parentOf?, scope?_push, if_neg (Nat.ne_of_lt lt), parentOf?]

theorem parentOf?_push_new (table : ScopeTable) (kind : ScopeKind) :
    (table.push kind).parentOf? table.scopes.length =
      some (some table.current) := by
  rw [parentOf?, scope?_push, if_pos rfl]
  rfl

theorem parentOf?_pop (table : ScopeTable) (id : ScopeId) :
    table.pop.parentOf? id = table.parentOf? id := by
  rw [parentOf?, scope?_pop, parentOf?]

theorem parentOf?_modifyCurrent {change : Scope → Scope}
    (keeps : ∀ scope, (change scope).parent? = scope.parent?) (id : ScopeId) :
    (table.modifyCurrent change).parentOf? id = table.parentOf? id := by
  rw [parentOf?, scope?_modifyCurrent, parentOf?]
  split
  · simp [Function.comp_def, keeps]
  · rfl

theorem Leads.congr {path : List ScopeId} {id? : Option ScopeId}
    (leads : table.Leads id? path)
    (same : ∀ id ∈ path, other.parentOf? id = table.parentOf? id) :
    other.Leads id? path := by
  induction path generalizing id? with
  | nil => exact leads
  | cons id others ih =>
      obtain ⟨isFirst, parent?, parentEq, further⟩ := leads
      obtain ⟨sameFirst, sameOthers⟩ := List.forall_mem_cons.mp same
      exact ⟨isFirst, parent?, sameFirst.trans parentEq, ih further sameOthers⟩

/-- The first scope has no parent, every other one has a parent that was
opened before it, and the parents lead from the current scope through the open
ones. -/
structure Rooted (table : ScopeTable) : Prop where
  wellFormed : table.WellFormed
  outermost : table.parentOf? 0 = some none
  earlier : ∀ id, 0 < id → id < table.scopes.length →
    ∃ parent < id, table.parentOf? id = some (some parent)
  chain : table.Leads (some table.current) (table.current :: table.outer)

namespace Rooted

theorem initial : ScopeTable.initial.Rooted where
  wellFormed := wellFormed_initial
  outermost := rfl
  earlier := by
    intro id positive lt
    simp only [ScopeTable.initial, List.length_singleton] at lt
    omega
  chain := ⟨rfl, none, rfl, rfl⟩

theorem push (rooted : table.Rooted) (kind : ScopeKind) :
    (table.push kind).Rooted where
  wellFormed := rooted.wellFormed.push kind
  outermost := by
    have zero_lt :=
      Nat.lt_of_le_of_lt (Nat.zero_le _) rooted.wellFormed.current_lt
    rw [parentOf?_push_of_lt kind zero_lt]
    exact rooted.outermost
  earlier := by
    intro id positive lt
    have lengthEq :
        (table.push kind).scopes.length = table.scopes.length + 1 := by
      simp [ScopeTable.push]
    rcases Nat.lt_succ_iff_lt_or_eq.mp (lengthEq ▸ lt) with isOld | rfl
    · rw [parentOf?_push_of_lt kind isOld]
      exact rooted.earlier id positive isOld
    · exact ⟨table.current, rooted.wellFormed.current_lt,
        table.parentOf?_push_new kind⟩
  chain := by
    refine ⟨rfl, some table.current, table.parentOf?_push_new kind, ?_⟩
    apply rooted.chain.congr
    intro id isOpen
    exact parentOf?_push_of_lt kind (rooted.wellFormed.open_lt isOpen)

theorem pop (rooted : table.Rooted) : table.pop.Rooted where
  wellFormed := rooted.wellFormed.pop
  outermost := (parentOf?_pop table 0).trans rooted.outermost
  earlier := by
    intro id positive lt
    rw [parentOf?_pop]
    exact rooted.earlier id positive (by rwa [scopes_pop] at lt)
  chain := by
    have samePath :
        table.pop.Leads (some table.current) (table.current :: table.outer) :=
      rooted.chain.congr fun id _ => parentOf?_pop table id
    cases outerEq : table.outer with
    | nil =>
        have stays : table.pop = table := by simp [ScopeTable.pop, outerEq]
        rw [stays]
        exact rooted.chain
    | cons parent around =>
        -- The chain is the same, without its first scope.
        rw [outerEq] at samePath
        obtain ⟨_, parent?, _, further⟩ := samePath
        have parentEq : parent? = some parent := further.1
        have openEq : table.pop.current = parent ∧
            table.pop.outer = around := by
          simp [ScopeTable.pop, outerEq]
        rw [openEq.1, openEq.2, ← parentEq]
        exact further

theorem modifyCurrent (rooted : table.Rooted) {change : Scope → Scope}
    (keeps : ∀ scope, (change scope).parent? = scope.parent?) :
    (table.modifyCurrent change).Rooted where
  wellFormed := rooted.wellFormed.modifyCurrent change
  outermost := (parentOf?_modifyCurrent keeps 0).trans rooted.outermost
  earlier := by
    intro id positive lt
    rw [parentOf?_modifyCurrent keeps]
    exact rooted.earlier id positive (by simpa [ScopeTable.modifyCurrent]
      using lt)
  chain := rooted.chain.congr fun id _ => parentOf?_modifyCurrent keeps id

theorem perform (rooted : table.Rooted) (operation : Operation) :
    (table.perform operation).2.Rooted := by
  rcases table.perform_cases operation with same | ⟨kind, pushed⟩ | popped |
    ⟨change, changed, keeps⟩
  · rwa [same]
  · rw [pushed]
    exact rooted.push kind
  · rw [popped]
    exact rooted.pop
  · rw [changed]
    exact rooted.modifyCurrent keeps

end Rooted

/-- Every table that is used from the beginning on is rooted. -/
theorem rooted_after (operations : List Operation) :
    (ScopeTable.initial.after operations).Rooted :=
  after_induction (fun _ operation rooted => rooted.perform operation) .initial
    operations

end Parents

end PL0.ScopeTable
