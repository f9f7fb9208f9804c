import Mathlib.Logic.Function.Basic
import PL0.Tree.Basic

/-!
# Values and actions

What a program does depends on what its primitive operations do, and nothing
is assumed of these: values, arrays and input and output are whatever an
interpretation says they are.  Variables are kept apart from the rest of the
world.  A variable that is declared as an array holds a value by which the
world knows the contents of the array, so arrays can be passed on, while no
primitive operation can change a variable.
-/

namespace PL0

/-- What the primitive operations do.  An operation without a result has
failed. -/
structure Interpretation where
  /-- Numbers, and what stands for arrays. -/
  Value : Type
  /-- The contents of arrays, what is left of the input, what was put out. -/
  World : Type
  int : Int64 → Value
  float : Binary64 → Value
  arith : ArithOp → BaseType → Value → Value → Option Value
  negate : BaseType → Value → Option Value
  convert : BaseType → Value → Option Value
  compare : RelOp → BaseType → Value → Value → Option Bool
  /-- Change a value of a type to what a variable or element of this type
  holds. -/
  move : BaseType → Value → Option Value
  /-- An element of an array. -/
  load : BaseType → Value → Value → World → Option Value
  /-- Change an element of an array. -/
  store : Value → Value → Value → World → Option Unit × World
  /-- Make room for an array of a size. -/
  alloc : BaseType → Value → World → Option Value × World
  call : String → List Value → World → Option Value × World
  read : World → Option Value × World
  write : Value → World → Option Unit × World
  print : String → World → Option Unit × World

/-- The values of the variables of a function, and the world around it. -/
@[ext]
structure State (I : Interpretation) where
  vars : String → I.Value
  world : I.World

/-- Something that changes a state and gives a result, unless it fails. -/
def Action (I : Interpretation) (α : Type) := State I → Option α × State I

namespace Action

variable {I : Interpretation} {α β : Type}

instance : Monad (Action I) where
  pure value := fun state => (some value, state)
  bind first next := fun state =>
    match first state with
    | (none, failed) => (none, failed)
    | (some value, between) => next value between

@[simp]
theorem pure_apply (value : α) (state : State I) :
    (pure value : Action I α) state = (some value, state) :=
  rfl

theorem bind_apply (first : Action I α) (next : α → Action I β)
    (state : State I) :
    (first >>= next) state =
      match first state with
      | (none, failed) => (none, failed)
      | (some value, between) => next value between :=
  rfl

/-- A result that the state has no part in. -/
def ofOption (result : Option α) : Action I α :=
  fun state => (result, state)

/-- Something done to the world. -/
def onWorld (effect : I.World → Option α × I.World) : Action I α :=
  fun state => ((effect state.world).1,
    { state with world := (effect state.world).2 })

/-- The value of a variable. -/
def getVar (name : String) : Action I I.Value :=
  fun state => (some (state.vars name), state)

/-- Change a variable. -/
def setVar (name : String) (value : I.Value) : Action I Unit :=
  fun state =>
    (some (), { state with vars := Function.update state.vars name value })

/-- An element of an array. -/
def load (type : BaseType) (array : String) (index : I.Value) :
    Action I I.Value :=
  fun state => (I.load type (state.vars array) index state.world, state)

/-- Make room for an array. -/
def alloc (type : BaseType) (array : String) (size : I.Value) :
    Action I Unit := do
  setVar array (← onWorld (I.alloc type size))

/-- Call a function and forget its result. -/
def callOnly (callee : String) (values : List I.Value) : Action I Unit := do
  let _ ← onWorld (I.call callee values)

/-- An action leaves all variables as they are. -/
def KeepsVars (action : Action I α) : Prop :=
  ∀ state, (action state).2.vars = state.vars

theorem keepsVars_pure (value : α) : (pure value : Action I α).KeepsVars :=
  fun _ => rfl

theorem keepsVars_ofOption (result : Option α) :
    (ofOption result : Action I α).KeepsVars :=
  fun _ => rfl

theorem keepsVars_onWorld (effect : I.World → Option α × I.World) :
    (onWorld effect : Action I α).KeepsVars :=
  fun _ => rfl

theorem keepsVars_load (type : BaseType) (array : String) (index : I.Value) :
    (load type array index : Action I I.Value).KeepsVars :=
  fun _ => rfl

end Action

/-- A variable, or an element of an array at an index that is already known. -/
inductive Slot (I : Interpretation) where
  | var (name : String)
  | element (array : String) (index : I.Value)

/-- Change what a slot holds. -/
def Slot.set {I : Interpretation} : Slot I → I.Value → Action I Unit
  | .var name, value => Action.setVar name value
  | .element array index, value => do
    let reference ← Action.getVar array
    Action.onWorld (I.store reference index value)

/-- Put a value of a type into a slot. -/
def Slot.move {I : Interpretation} (slot : Slot I) (type : BaseType)
    (value : I.Value) : Action I Unit := do
  slot.set (← Action.ofOption (I.move type value))

/-- Put the next value of the input into a slot. -/
def Slot.read {I : Interpretation} (slot : Slot I) : Action I Unit := do
  slot.set (← Action.onWorld I.read)

end PL0
