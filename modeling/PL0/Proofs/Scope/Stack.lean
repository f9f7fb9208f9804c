import Mathlib.Data.List.Forall2
import PL0.Proofs.Scope.Entries
import PL0.Proofs.Scope.Operations
import Std.Data.TreeMap

/-!
# A table is a stack of frames

To its user a table is a stack that is never empty.  A frame has the meanings
of some names and counts the loops that are open in it.  A scope that is
opened puts an empty frame on top, one that is left takes the top frame away
unless it is the last, names are defined in the top frame and looked up from
the top down.  A table answers every operation as the stack does, although it
keeps all scopes that were ever opened and knows the way from one to the next
only by their parents.
-/

namespace PL0

/-- The meanings of names, and how many loops are open. -/
structure Frame where
  meanings : Std.TreeMap String Binding
  loopDepth : Nat

/-- A frame without names and loops. -/
def Frame.empty : Frame :=
  ⟨∅, 0⟩

/-- Frames on top of each other, at least one. -/
structure FrameStack where
  top : Frame
  below : List Frame

namespace FrameStack

/-- One empty frame. -/
def initial : FrameStack :=
  ⟨Frame.empty, []⟩

/-- Do something with a stack. -/
def perform (stack : FrameStack) :
    ScopeTable.Operation → ScopeTable.Answer × FrameStack
  | .push _ => (.done, ⟨Frame.empty, stack.top :: stack.below⟩)
  | .pop =>
    match stack.below with
    | [] => (.done, stack)
    | next :: others => (.done, ⟨next, others⟩)
  | .define name binding =>
    match stack.top.meanings[name]? with
    | some existing => (.taken existing.position, stack)
    | none =>
      (.done, { stack with top :=
        { stack.top with meanings := stack.top.meanings.insert name binding } })
  | .resolve name =>
    (.meaning ((stack.top :: stack.below).findSome? fun frame =>
      frame.meanings[name]?), stack)
  | .resolveLocal name => (.meaning stack.top.meanings[name]?, stack)
  | .enterLoop _ =>
    (.done,
      { stack with
        top := { stack.top with loopDepth := stack.top.loopDepth + 1 } })
  | .exitLoop =>
    (.done,
      { stack with
        top := { stack.top with loopDepth := stack.top.loopDepth - 1 } })
  | .inLoop => (.looping (stack.top.loopDepth ≠ 0), stack)

end FrameStack

namespace ScopeTable

/-- The answers to operations, one after the other, of something that performs
them. -/
def answers {State : Type} (perform : State → Operation → Answer × State) :
    State → List Operation → List Answer
  | _, [] => []
  | state, first :: others =>
    (perform state first).1 :: answers perform (perform state first).2 others

/-- A search along the parents: a scope that does not have the name passes the
search on to its parent, and without a parent nothing is found. -/
inductive Sought (table : ScopeTable) (name : String) :
    Option ScopeId → Option Binding → Prop
  | nowhere : Sought table name none none
  | here {id : ScopeId} {scope : Scope} {binding : Binding}
    (isScope : table.scope? id = some scope)
      (found : scope.find? name = some binding) :
    Sought table name (some id) (some binding)
  | further {id : ScopeId} {scope : Scope} {result : Option Binding}
    (isScope : table.scope? id = some scope) (missing : scope.find? name = none)
    (outside : Sought table name scope.parent? result) :
      Sought table name (some id) result

end ScopeTable

section Frames

/-- A frame shows a scope. -/
structure Frame.Shows (frame : Frame) (scope : Scope) : Prop where
  meanings : ∀ name, frame.meanings[name]? = scope.find? name
  loopDepth : frame.loopDepth = scope.loops.length

theorem Frame.empty_shows (kind : ScopeKind) (parent? : Option ScopeId) :
    Frame.empty.Shows (Scope.empty kind parent?) where
  meanings := by
    intro name
    rw [Scope.find?_empty]
    exact Std.TreeMap.getElem?_emptyc
  loopDepth := rfl

/-- A name is defined in a frame as it is in a scope. -/
theorem Frame.Shows.define {frame : Frame} {scope : Scope}
    (shown : frame.Shows scope) (name : String) (binding : Binding) :
    ({ frame with meanings := frame.meanings.insert name binding } :
      Frame).Shows (scope.add name binding) where
  meanings := by
    intro other
    rw [Std.TreeMap.getElem?_insert, shown.meanings, Scope.find?_add]
    simp
  loopDepth := shown.loopDepth

/-- A name has the same meaning in frames as in the scopes that they show. -/
theorem findSome?_eq_of_shows {frames : List Frame} {scopes : List Scope}
    (shown : List.Forall₂ Frame.Shows frames scopes) (name : String) :
    (frames.findSome? fun frame => frame.meanings[name]?) =
      scopes.findSome? fun scope => scope.find? name := by
  induction shown with
  | nil => rfl
  | cons first _ ih => rw [List.findSome?_cons, List.findSome?_cons,
      first.meanings, ih]

end Frames

namespace FrameStack

/-- A stack shows the open scopes of a table. -/
structure Shows (stack : FrameStack) (table : ScopeTable) : Prop where
  wellFormed : table.WellFormed
  frames : List.Forall₂ Frame.Shows (stack.top :: stack.below) table.frames

variable {stack : FrameStack} {table : ScopeTable}

/-- The top frame shows the current scope, the others show the scopes around
it. -/
theorem Shows.exists_frames (shown : stack.Shows table) :
    ∃ inner others, table.frames = inner :: others ∧ stack.top.Shows inner ∧
      List.Forall₂ Frame.Shows stack.below others := by
  obtain ⟨inner, others, framesEq⟩ := shown.wellFormed.exists_frames
  have frames := shown.frames
  rw [framesEq] at frames
  exact ⟨inner, others, framesEq, List.forall₂_cons.mp frames⟩

theorem initial_shows : initial.Shows .initial where
  wellFormed := ScopeTable.wellFormed_initial
  frames := .cons (Frame.empty_shows .global none) .nil

/-- A change of the current scope is shown by a change of the top frame. -/
theorem Shows.modifyCurrent (shown : stack.Shows table) {top : Frame}
    {change : Scope → Scope}
    (topShown : ∀ scope, stack.top.Shows scope → top.Shows (change scope)) :
    FrameStack.Shows ⟨top, stack.below⟩ (table.modifyCurrent change) where
  wellFormed := shown.wellFormed.modifyCurrent change
  frames := by
    obtain ⟨inner, others, framesEq, innerShown, othersShown⟩ :=
      shown.exists_frames
    rw [ScopeTable.frames_modifyCurrent shown.wellFormed framesEq]
    exact .cons (topShown inner innerShown) othersShown

/-- The last frame is not taken away. -/
theorem Shows.pop (shown : stack.Shows table) :
    (stack.perform .pop).1 = (table.perform .pop).1 ∧
      (stack.perform .pop).2.Shows (table.perform .pop).2 := by
  obtain ⟨inner, others, framesEq, _, belowShown⟩ := shown.exists_frames
  cases belowEq : stack.below with
  | nil =>
      rw [belowEq, List.forall₂_nil_left_iff] at belowShown
      subst belowShown
      have stackStays : stack.perform .pop = (.done, stack) := by
        simp [perform, belowEq]
      have tableStays := shown.wellFormed.pop_eq_self framesEq
      rw [stackStays, ScopeTable.perform, tableStays]
      exact ⟨rfl, shown⟩
  | cons next rest =>
      rw [belowEq] at belowShown
      obtain ⟨outer, around, _, _, rfl⟩ :=
        List.forall₂_cons_left_iff.mp belowShown
      have popped : stack.perform .pop = (.done, ⟨next, rest⟩) := by
        simp [perform, belowEq]
      rw [popped, ScopeTable.perform]
      refine ⟨rfl, shown.wellFormed.pop, ?_⟩
      rwa [ScopeTable.frames_pop shown.wellFormed framesEq]

theorem Shows.define (shown : stack.Shows table) (name : String)
    (binding : Binding) :
    (stack.perform (.define name binding)).1 =
      (table.perform (.define name binding)).1 ∧
      (stack.perform (.define name binding)).2.Shows
        (table.perform (.define name binding)).2 := by
  obtain ⟨inner, others, framesEq, topShown, _⟩ := shown.exists_frames
  have localEq :=
    ScopeTable.resolveLocal?_eq_find? shown.wellFormed framesEq name
  have topEq := topShown.meanings name
  cases found : inner.find? name with
  | some existing =>
      rw [found] at localEq topEq
      have refused : stack.perform (.define name binding) =
          (.taken existing.position, stack) := by
        simp [perform, topEq]
      rw [ScopeTable.perform_define_of_taken localEq, refused]
      exact ⟨rfl, shown⟩
  | none =>
      rw [found] at localEq topEq
      have defined : stack.perform (.define name binding) =
          (.done, { stack with
            top := { stack.top with
              meanings := stack.top.meanings.insert name binding } }) := by
        simp [perform, topEq]
      rw [ScopeTable.perform_define_of_new localEq, defined]
      exact ⟨rfl,
        shown.modifyCurrent fun scope scopeShown =>
          scopeShown.define name binding⟩

/-- One operation has the same answer, and afterwards the stack shows the
table again. -/
theorem Shows.perform (shown : stack.Shows table)
    (operation : ScopeTable.Operation) :
    (stack.perform operation).1 = (table.perform operation).1 ∧
      (stack.perform operation).2.Shows (table.perform operation).2 := by
  obtain ⟨inner, others, framesEq, topShown, _⟩ := shown.exists_frames
  cases operation with
  | push kind =>
      refine ⟨rfl, shown.wellFormed.push kind, ?_⟩
      change List.Forall₂ _ _ (table.push kind).frames
      rw [ScopeTable.frames_push shown.wellFormed]
      exact .cons (Frame.empty_shows kind _) shown.frames
  | pop => exact shown.pop
  | define name binding => exact shown.define name binding
  | resolve name =>
      refine ⟨?_, shown⟩
      change ScopeTable.Answer.meaning _ = .meaning (table.resolve? name)
      rw [ScopeTable.resolve?_eq_findSome?, findSome?_eq_of_shows shown.frames]
  | resolveLocal name =>
      refine ⟨?_, shown⟩
      change ScopeTable.Answer.meaning _ = .meaning (table.resolveLocal? name)
      rw [ScopeTable.resolveLocal?_eq_find? shown.wellFormed framesEq,
        topShown.meanings]
  | enterLoop position =>
      refine ⟨rfl,
        shown.modifyCurrent fun scope scopeShown => ⟨scopeShown.meanings, ?_⟩⟩
      simp [scopeShown.loopDepth]
  | exitLoop =>
      refine ⟨rfl,
        shown.modifyCurrent fun scope scopeShown => ⟨scopeShown.meanings, ?_⟩⟩
      simp [scopeShown.loopDepth]
  | inLoop =>
      refine ⟨?_, shown⟩
      have sameLoop : decide (stack.top.loopDepth ≠ 0) = table.inLoop := by
        rw [Bool.eq_iff_iff,
          ScopeTable.inLoop_eq_true_iff shown.wellFormed framesEq,
          topShown.loopDepth]
        simp
      exact congrArg ScopeTable.Answer.looping sameLoop

theorem Shows.answers_eq (shown : stack.Shows table)
    (operations : List ScopeTable.Operation) :
    ScopeTable.answers ScopeTable.perform table operations =
      ScopeTable.answers FrameStack.perform stack operations := by
  induction operations generalizing stack table with
  | nil => rfl
  | cons first others ih =>
      obtain ⟨sameAnswer, next⟩ := shown.perform first
      rw [ScopeTable.answers, ScopeTable.answers, ih next, sameAnswer]

end FrameStack

namespace ScopeTable

variable {table : ScopeTable}

/-- A search along the parents goes through the scopes to which they lead. -/
theorem Leads.sought {id? : Option ScopeId} {path : List ScopeId}
    (leads : table.Leads id? path) (name : String) :
    table.Sought name id? (path.findSome? (table.findIn? name)) := by
  induction path generalizing id? with
  | nil =>
      obtain rfl : id? = none := leads
      exact .nowhere
  | cons id others ih =>
      -- The parents come one by one, so each step of the search takes one
      -- scope off the path.
      obtain ⟨rfl, parent?, parentEq, further⟩ := leads
      obtain ⟨scope, isScope, rfl⟩ := Option.map_eq_some_iff.mp parentEq
      have foundHere : table.findIn? name id = scope.find? name := by
        simp [findIn?, isScope]
      rw [List.findSome?_cons, foundHere]
      cases found : scope.find? name with
      | some binding => exact .here isScope found
      | none => exact .further isScope found (ih further)

/-- Leaving the current scope goes to its parent. -/
theorem Rooted.pop_current (rooted : table.Rooted) :
    table.pop.current = ((table.scope? table.current).bind Scope.parent?).getD
      table.current := by
  obtain ⟨_, parent?, parentEq, further⟩ := rooted.chain
  obtain ⟨scope, isScope, rfl⟩ := Option.map_eq_some_iff.mp parentEq
  rw [isScope, Option.bind_some]
  cases outerEq : table.outer with
  | nil =>
      rw [outerEq] at further
      rw [show scope.parent? = none from further]
      simp [ScopeTable.pop, outerEq]
  | cons parent around =>
      rw [outerEq] at further
      rw [further.1]
      simp [ScopeTable.pop, outerEq]

/-- Whether an operation opens a scope. -/
def Operation.isPush : Operation → Bool
  | .push _ => true
  | _ => false

theorem length_scopes_perform (table : ScopeTable) (operation : Operation) :
    (table.perform operation).2.scopes.length =
      table.scopes.length + if operation.isPush then 1 else 0 := by
  cases operation with
  | define name binding =>
      cases found : table.resolveLocal? name with
      | some existing => rw [perform_define_of_taken found]; rfl
      | none =>
          rw [perform_define_of_new found]
          simp [modifyCurrent, Operation.isPush]
  | _ => simp [perform, push, enterLoop, exitLoop, modifyCurrent,
      Operation.isPush]

theorem length_scopes_after (table : ScopeTable) (operations : List Operation) :
    (table.after operations).scopes.length =
      table.scopes.length + operations.countP Operation.isPush := by
  induction operations generalizing table with
  | nil => rfl
  | cons first others ih =>
      rw [after_cons, ih, length_scopes_perform, List.countP_cons]
      omega

/-- A table is a stack of frames: it answers any operations as the stack does.
The parents of its scopes are enough for that: whatever has been done before,
a search along the parents of the current scope comes to an end and finds what
is looked up, leaving the current scope goes to its parent, if it has one, and
the next scope to be opened gets the number of scopes opened so far. -/
theorem answers_eq_stack (operations : List Operation) :
    answers perform initial operations =
        answers FrameStack.perform FrameStack.initial operations ∧
      let table := initial.after operations
      (∀ name, table.Sought name (some table.current) (table.resolve? name)) ∧
        table.pop.current =
          ((table.scope? table.current).bind Scope.parent?).getD table.current ∧
        ∀ kind, (table.push kind).current =
          1 + operations.countP Operation.isPush := by
  refine ⟨FrameStack.initial_shows.answers_eq operations, ?_⟩
  intro table
  have rooted : table.Rooted := rooted_after operations
  exact ⟨rooted.chain.sought, rooted.pop_current,
    fun _ => length_scopes_after initial operations⟩

end ScopeTable

end PL0
