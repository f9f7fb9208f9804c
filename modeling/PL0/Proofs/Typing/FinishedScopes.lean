import Mathlib.Data.List.Induction
import PL0.Proofs.Typing.Scopes
import PL0.Typing.Analysis

/-!
# The scopes that checking leaves behind

Faults leave no trace in the table of scopes.  A declaration is entered unless
its name is taken, a scope is left again at the end of its function, and a
loop at the end of its body, whatever was found wrong in between.  So the
table in the end can be read off the program: a global scope with the
functions, and behind it a scope for each function with its parameters and
locals, of each name the first declaration.
-/

namespace PL0

section Entering

/-- A scope with one more entry, unless the name is taken. -/
def Scope.enter (scope : Scope) (entry : String × Binding) : Scope :=
  if (scope.find? entry.1).isSome then scope else scope.add entry.1 entry.2

/-- A scope in which the given names are defined in order, and no loop is
open. -/
def Scope.holding (kind : ScopeKind) (parent? : Option ScopeId)
    (listed : List (String × Binding)) : Scope where
  kind
  parent?
  meanings :=
    listed.foldl (fun meanings entry => meanings.insert entry.1 entry.2) ∅
  order := listed.map Prod.fst
  loops := []

section Holding

variable (kind : ScopeKind) (parent? : Option ScopeId)

theorem Scope.holding_concat (listed : List (String × Binding))
    (entry : String × Binding) :
    Scope.holding kind parent? (listed ++ [entry]) =
      (Scope.holding kind parent? listed).add entry.1 entry.2 := by
  simp [Scope.holding, Scope.add]

theorem Scope.isSome_find?_holding (listed : List (String × Binding))
    (name : String) :
    ((Scope.holding kind parent? listed).find? name).isSome ↔
      name ∈ listed.map Prod.fst := by
  induction listed using List.reverseRecOn with
  | nil => exact iff_of_false (by simp [Scope.find?, Scope.holding]) (by simp)
  | append_singleton listed entry ih =>
      rw [Scope.holding_concat, Scope.find?_add, List.map_append,
        List.mem_append, ← ih]
      by_cases same : entry.1 = name
      · simp [same]
      · simp [same, Ne.symm same]

/-- Of the entries that are made in an empty scope, the first for each name
are there. -/
theorem Scope.foldl_enter (listed : List (String × Binding)) :
    listed.foldl Scope.enter (Scope.empty kind parent?) =
      Scope.holding kind parent? (firstEntries listed) := by
  -- Entries are made at the end, so the list is taken apart there.
  induction listed using List.reverseRecOn with
  | nil => rfl
  | append_singleton listed entry ih =>
      rw [List.foldl_append, ih, firstEntries_concat, List.foldl_cons,
        List.foldl_nil, Scope.enter]
      simp only [Scope.isSome_find?_holding, mem_map_fst_firstEntries]
      split
      · rfl
      · rw [Scope.holding_concat]

/-- A scope lists the names that are defined in it, if they are different. -/
theorem Scope.holding_lists {listed : List (String × Binding)}
    (distinct : (listed.map Prod.fst).Nodup) :
    (Scope.holding kind parent? listed).Consistent ∧
      (Scope.holding kind parent? listed).entries = listed := by
  induction listed using List.reverseRecOn with
  | nil => exact ⟨Scope.consistent_empty kind parent?, rfl⟩
  | append_singleton listed entry ih =>
      rw [List.map_append, List.nodup_append] at distinct
      obtain ⟨consistent, listedEq⟩ := ih distinct.1
      have missing :
          (Scope.holding kind parent? listed).find? entry.1 = none := by
        rw [← Option.not_isSome_iff_eq_none, Scope.isSome_find?_holding]
        exact fun member => distinct.2.2 _ member _ (by simp) rfl
      rw [Scope.holding_concat]
      refine ⟨consistent.add missing entry.2, ?_⟩
      rw [consistent.entries_add missing, listedEq]

end Holding

/-- The scope of a function at its end, with its parameters and locals. -/
def Function.scope (definition : Function) (parent : ScopeId) : Scope :=
  .holding (.function definition.name) (some parent)
    (firstEntries definition.entries)

/-- A table whose last scope is the current one. -/
def ScopeTable.inLast (earlier : List Scope) (last : Scope)
    (outer : List ScopeId) : ScopeTable :=
  ⟨earlier ++ [last], earlier.length, outer⟩

variable {earlier : List Scope} {last : Scope} {outer : List ScopeId}

theorem ScopeTable.resolveLocal?_inLast (name : String) :
    (inLast earlier last outer).resolveLocal? name = last.find? name := by
  simp [inLast, resolveLocal?, findIn?, scope?]

theorem ScopeTable.modifyCurrent_inLast (change : Scope → Scope) :
    (inLast earlier last outer).modifyCurrent change =
      inLast earlier (change last) outer := by
  simp [inLast, modifyCurrent, List.modify_eq_set_getElem?]

end Entering

namespace Checked

section Declarations

variable {earlier : List Scope} {outer : List ScopeId}

theorem value_define_inLast (last : Scope) (kind : NameKind) (name : String)
    (binding : Binding) :
    (define (.inLast earlier last outer) kind name binding).value =
      .inLast earlier (last.enter (name, binding)) outer := by
  unfold define ScopeTable.define
  rw [ScopeTable.resolveLocal?_inLast, Scope.enter]
  cases found : last.find? name with
  | some existing => rfl
  | none => exact ScopeTable.modifyCurrent_inLast _

theorem value_declarations_inLast (role : VariableRole)
    (declared : List Declaration) (last : Scope) :
    (declarations role (.inLast earlier last outer) declared).value =
      .inLast earlier
        ((declared.map (Declaration.entry role)).foldl Scope.enter last)
          outer := by
  induction declared generalizing last with
  | nil => rfl
  | cons first others ih =>
      simp only [declarations, value_bind, value_define_inLast, ih]
      rfl

theorem value_signatures_inLast (definitions : List Function) (last : Scope) :
    (signatures (.inLast earlier last outer) definitions).value =
      .inLast earlier ((definitions.map Function.entry).foldl Scope.enter last)
        outer := by
  induction definitions generalizing last with
  | nil => rfl
  | cons first others ih =>
      simp only [signatures, value_bind, value_define_inLast, ih]
      rfl

/-- A function adds its scope to the table. -/
theorem value_function (table : ScopeTable) (definition : Function) :
    (function table definition).value =
      { table with scopes := table.scopes ++
        [definition.scope table.current] } := by
  have pushed : table.push (.function definition.name) =
      .inLast table.scopes
        (Scope.empty (.function definition.name) (some table.current))
        (table.current :: table.outer) := rfl
  simp only [function, value_bind, value_pure, pushed,
    value_declarations_inLast, ← List.foldl_append]
  rw [← Function.entries, Scope.foldl_enter]
  rfl

theorem value_functions (table : ScopeTable) (definitions : List Function) :
    (functions table definitions).value =
      { table with scopes := table.scopes ++
        definitions.map fun definition => definition.scope table.current } := by
  induction definitions generalizing table with
  | nil => simp [functions]
  | cons first others ih =>
      simp only [functions, value_bind, ih, value_function, List.map_cons,
        List.append_assoc, List.singleton_append]

end Declarations

end Checked

/-- The table of scopes after a program of functions, whatever is wrong with
it. -/
theorem analyse_scopes_eq (definitions : List Function) :
    (analyse (.functions definitions)).scopes =
      ⟨.holding .global none (firstEntries (definitions.map Function.entry)) ::
        definitions.map fun definition => definition.scope 0, 0, []⟩ := by
  have globals : (Checked.signatures .initial definitions).value =
      .inLast []
        (.holding .global none (firstEntries (definitions.map Function.entry)))
          [] := by
    have signed :
        (Checked.signatures (.inLast [] (Scope.empty .global none) [])
          definitions).value =
        .inLast [] _ [] := Checked.value_signatures_inLast definitions _
    rwa [Scope.foldl_enter] at signed
  change (Checked.functions (Checked.signatures .initial definitions).value
    definitions).value = _
  rw [globals, Checked.value_functions]
  rfl

section Loops

namespace ScopeTable

/-- A loop that is entered and left again leaves no trace. -/
theorem exitLoop_enterLoop (table : ScopeTable) (position : Position) :
    (table.enterLoop position).exitLoop = table := by
  have undone : (table.scopes.modify table.current fun scope =>
        { scope with loops := position :: scope.loops }).modify table.current
        (fun scope => { scope with loops := scope.loops.tail }) =
          table.scopes := by
    apply List.ext_getElem?
    intro index
    rw [List.getElem?_modify, List.getElem?_modify]
    cases table.scopes[index]? with
    | none => rfl
    | some scope =>
        by_cases isCurrent : table.current = index <;> simp [isCurrent]
  unfold exitLoop enterLoop modifyCurrent
  rw [undone]

end ScopeTable

namespace Checked

mutual

/-- Check a statement and hand the table on, with each loop entered on it
before its body and left after it. -/
def stmtOn (table : ScopeTable) : Stmt → Checked ScopeTable
  | .ifThen _ test thenBranch => do
    condition table test
    stmtOn table thenBranch
  | .ifElse _ test thenBranch elseBranch => do
    condition table test
    let table ← stmtOn table thenBranch
    stmtOn table elseBranch
  | .whileDo position test body => do
    condition table test
    let table ← stmtOn (table.enterLoop position) body
    return table.exitLoop
  | .block _ statements => stmtsOn table statements
  | other => do
    stmt table other
    return table

/-- Check statements in order, each with the table that the one before it
hands on. -/
def stmtsOn (table : ScopeTable) : List Stmt → Checked ScopeTable
  | [] => pure table
  | first :: others => do
    let table ← stmtOn table first
    stmtsOn table others

end

/-- A result that hands a table on, and otherwise is the given one. -/
structure HandsOn (table : ScopeTable) (plain : Checked Unit)
    (handing : Checked ScopeTable) : Prop where
  value : handing.value = table
  errors : handing.errors = plain.errors
  types : handing.types = plain.types

mutual

/-- A statement hands on the table that it was given. -/
theorem stmtOn_handsOn : ∀ (table : ScopeTable) (s : Stmt),
    HandsOn table (stmt table s) (stmtOn table s)
  | table, .ifThen position test thenBranch => by
      have branch := stmtOn_handsOn table thenBranch
      constructor <;> simp [stmtOn, stmt, branch.value, branch.errors,
        branch.types]
  | table, .ifElse position test thenBranch elseBranch => by
      have first := stmtOn_handsOn table thenBranch
      have second := stmtOn_handsOn table elseBranch
      constructor <;> simp [stmtOn, stmt, first.value, first.errors,
        first.types, second.value, second.errors, second.types]
  | table, .whileDo position test body => by
      have inside := stmtOn_handsOn (table.enterLoop position) body
      constructor <;> simp [stmtOn, stmt, inside.value, inside.errors,
        inside.types, ScopeTable.exitLoop_enterLoop]
  | table, .block position statements => by
      have inside := stmtsOn_handsOn table statements
      constructor <;> simp [stmtOn, stmt, inside.value, inside.errors,
        inside.types]
  | table, .assign .. => by constructor <;> simp [stmtOn]
  | table, .breakLoop _ => by constructor <;> simp [stmtOn]
  | table, .skip _ => by constructor <;> simp [stmtOn]
  | table, .returnValue .. => by constructor <;> simp [stmtOn]
  | table, .read .. => by constructor <;> simp [stmtOn]
  | table, .write .. => by constructor <;> simp [stmtOn]
  | table, .print .. => by constructor <;> simp [stmtOn]
  | table, .call .. => by constructor <;> simp [stmtOn]

theorem stmtsOn_handsOn : ∀ (table : ScopeTable) (statements : List Stmt),
    HandsOn table (stmts table statements) (stmtsOn table statements)
  | table, [] => by constructor <;> simp [stmtsOn, stmts]
  | table, first :: others => by
      have head := stmtOn_handsOn table first
      have tail := stmtsOn_handsOn table others
      constructor <;> simp [stmtsOn, stmts, head.value, head.errors, head.types,
        tail.value, tail.errors, tail.types]

end

end Checked

end Loops

/-- Checking leaves a faithful table of scopes behind, whatever it finds
wrong.  The global scope is the current one again, no loop is open, and there
is one scope more than there are functions.  The global scope lists the
functions and the scope of a function its parameters and then its locals, each
name once, in the order of the first declarations and as declared there.
Statements leave no trace: if the table is handed on from one to the next,
with loops entered and left on it, each hands on the table that it was given,
with the same faults and types. -/
theorem analyse_scopes_faithful (definitions : List Function) :
    let table := (analyse (.functions definitions)).scopes
    table.current = 0 ∧ table.outer = [] ∧
    (∀ scope ∈ table.scopes, scope.loops = [] ∧ scope.Consistent) ∧
    table.scopes.length = 1 + definitions.length ∧
    (∃ globals, table.scope? 0 = some globals ∧ globals.kind = .global ∧
      globals.parent? = none ∧
      globals.entries = firstEntries (definitions.map Function.entry)) ∧
    (∀ index definition, definitions[index]? = some definition →
      ∃ scope, table.scope? (index + 1) = some scope ∧
        scope.kind = .function definition.name ∧ scope.parent? = some 0 ∧
        scope.entries = firstEntries definition.entries) ∧
    ∀ given statements, Checked.HandsOn given (Checked.stmts given statements)
      (Checked.stmtsOn given statements) := by
  intro table
  have tableEq : table = _ := analyse_scopes_eq definitions
  have lists (kind : ScopeKind) (parent? : Option ScopeId)
      (listed : List (String × Binding)) :=
    Scope.holding_lists kind parent? (nodup_map_fst_firstEntries listed)
  rw [tableEq]
  refine ⟨rfl, rfl, ?_, ?_, ⟨_, rfl, rfl, rfl, (lists _ _ _).2⟩, ?_,
    Checked.stmtsOn_handsOn⟩
  · intro scope member
    rcases List.mem_cons.mp member with rfl | isLater
    · exact ⟨rfl, (lists _ _ _).1⟩
    · obtain ⟨definition, _, rfl⟩ := List.mem_map.mp isLater
      exact ⟨rfl, (lists _ _ _).1⟩
  · rw [List.length_cons, List.length_map, Nat.add_comm]
  · intro index definition isDefinition
    rw [ScopeTable.scope?, List.getElem?_cons_succ, List.getElem?_map,
      isDefinition]
    exact ⟨_, rfl, rfl, rfl, (lists _ _ _).2⟩

/-- Two functions with one name, of which the first declares a name three
times and the second has a `break` behind its loop:
`fun f(a: int, a: float) b: int; a: int[2]; begin skip end
fun f() begin begin while 1 < g do skip; break end end`. -/
def repeatedNames : List Function :=
  let declare (name : String) (type : DeclaredType) (column : Nat) :
      Declaration :=
    ⟨name, type, ⟨1, column⟩⟩
  let test : Condition := .rel ⟨2, 29⟩ .lt (.int ⟨0, ⟨2, 27⟩⟩ 1)
    (.valueOf ⟨2, ⟨2, 31⟩⟩ (.var ⟨1, ⟨2, 31⟩⟩ "g"))
  [⟨"f", [declare "a" ⟨.int, none⟩ 7, declare "a" ⟨.float, none⟩ 15],
      [declare "b" ⟨.int, none⟩ 25, declare "a" ⟨.int, some (.fixed 2)⟩ 33],
      [.skip ⟨1, 50⟩], ⟨1, 5⟩⟩,
    ⟨"f", [], [],
      [.block ⟨2, 15⟩ [.whileDo ⟨2, 21⟩ test (.skip ⟨2, 36⟩),
        .breakLoop ⟨2, 42⟩]], ⟨2, 5⟩⟩]

theorem analyse_scopes_faithful_repeatedNames :
    let analysis := analyse (.functions repeatedNames)
    analysis.isAccepted = false ∧ analysis.scopes.scopes.length = 3 ∧
      (∃ globals, analysis.scopes.scope? 0 = some globals ∧
        globals.kind = .global ∧ globals.parent? = none ∧
        globals.entries = [("f", .function [.int, .float] ⟨1, 5⟩)]) ∧
      (∃ first, analysis.scopes.scope? 1 = some first ∧
        first.kind = .function "f" ∧ first.parent? = some 0 ∧
        first.entries =
          [("a", .var .int .param ⟨1, 7⟩),
            ("b", .var .int .localVar ⟨1, 25⟩)]) ∧
      ∃ second, analysis.scopes.scope? 2 = some second ∧
        second.kind = .function "f" ∧
        second.parent? = some 0 ∧ second.entries = [] := by
  intro analysis
  obtain ⟨_, _, _, count, globals, each, _⟩ :=
    analyse_scopes_faithful repeatedNames
  exact ⟨by decide +kernel, count, globals, each 0 _ rfl, each 1 _ rfl⟩

end PL0
