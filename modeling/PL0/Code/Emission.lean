import PL0.Code.Instr

/-!
# Emitting code

Code is emitted piece by piece.  Registers and labels come from a supply that
only grows, so no two of them are ever the same.
-/

namespace PL0

/-- The next unused register and the next unused label number. -/
structure Supply where
  register : Nat
  label : Nat
deriving DecidableEq, Inhabited

/-- The supply from which nothing has been taken. -/
def Supply.initial : Supply := ⟨0, 0⟩

/-- Why no code can be made for a program. -/
inductive InternalError where
  | breakOutsideLoop (position : Position)
  | missingType (node : Node)
deriving DecidableEq

namespace InternalError

/-- Where the fault is. -/
def position : InternalError → Position
  | .breakOutsideLoop position => position
  | .missingType node => node.position

/-- The message for a fault. -/
def message : InternalError → String
  | .breakOutsideLoop position =>
    "internal error: line " ++ toString position.line ++
      ": 'break' reached lowering outside of a loop"
  | .missingType node =>
    "internal error: line " ++ toString node.position.line ++
      ": no type recorded for node " ++ toString node.id

end InternalError

/-- A value, the code emitted for it, and what is left of the supply. -/
structure Emitted (α : Type) where
  value : α
  code : List Instr
  supply : Supply

/-- A step that emits code, or finds that it cannot. -/
def Emission (α : Type) := Supply → Except InternalError (Emitted α)

namespace Emission

variable {α β : Type}

instance : Monad Emission where
  pure value := fun supply => .ok ⟨value, [], supply⟩
  bind first next := fun supply =>
    match first supply with
    | .error error => .error error
    | .ok before =>
      match next before.value before.supply with
      | .error error => .error error
      | .ok after => .ok ⟨after.value, before.code ++ after.code, after.supply⟩

/-- Give up. -/
def fail (error : InternalError) : Emission α :=
  fun _ => .error error

/-- Emit an instruction. -/
def emit (instr : Instr) : Emission Unit :=
  fun supply => .ok ⟨(), [instr], supply⟩

/-- A register that was never used before. -/
def freshRegister : Emission Register :=
  fun supply => .ok ⟨⟨supply.register⟩, [],
    { supply with register := supply.register + 1 }⟩

/-- A number for labels that was never used before. -/
def freshLabel : Emission Nat :=
  fun supply => .ok ⟨supply.label, [],
    { supply with label := supply.label + 1 }⟩

end Emission

end PL0
