import PL0.Tree.Basic

/-!
# Instructions

Code is a flat list of instructions over registers, variables and arrays.  Each
instruction does one thing; control moves by jumps to labels.
-/

namespace PL0

/-- A register.  There are as many as needed. -/
structure Register where
  index : Nat
deriving DecidableEq, Inhabited

/-- What an instruction works on. -/
inductive Operand where
  | int (value : Int64)
  | float (value : Binary64)
  | var (name : String)
  | reg (register : Register)
deriving DecidableEq

/-- Where an instruction leaves a value other than in a register. -/
inductive Target where
  | var (name : String)
  | element (array : String) (index : Operand)
deriving DecidableEq

/-- The points of a branch that jumps lead to. -/
inductive BranchPart where
  | thenPart | elsePart | endPart
deriving DecidableEq, Inhabited

/-- The points of a loop that jumps lead to. -/
inductive LoopPart where
  | startPart | bodyPart | exitPart
deriving DecidableEq, Inhabited

/-- A label.  Those of branches and loops are told apart by the number of the
branch or loop; any other label is known by its name. -/
inductive Label where
  | branch (id : Nat) (part : BranchPart)
  | loop (id : Nat) (part : LoopPart)
  | named (name : String)
deriving DecidableEq

/-- An instruction. -/
inductive Instr where
  | enter (function : String) (params : List String)
  | leave (function : String)
  /-- Make room for an array. -/
  | alloc (type : BaseType) (array : String) (size : Operand)
  | binary (op : ArithOp) (type : BaseType) (left right : Operand)
    (dest : Register)
  | negate (type : BaseType) (source : Operand) (dest : Register)
  /-- Change to the other base type. -/
  | convert (target : BaseType) (source : Operand) (dest : Register)
  | load (type : BaseType) (array : String) (index : Operand) (dest : Register)
  | compare (op : RelOp) (type : BaseType) (left right : Operand)
    (dest : Register)
  | logic (op : LogicOp) (left right : Register) (dest : Register)
  | not (source : Register) (dest : Register)
  | move (type : BaseType) (source : Operand) (dest : Target)
  | label (point : Label)
  | jump (target : Label)
  | jumpIf (condition : Register) (target : Label)
  | call (callee : String) (args : List Operand) (dest? : Option Register)
  | returnValue (value : Operand)
  | read (dest : Target)
  | write (value : Operand)
  | print (text : String)
deriving DecidableEq

end PL0
