import PL0.Binary64.Text
import PL0.Code.Instr
import PL0.Text.Quoted

/-!
# The listing of code

Each instruction is a line.  Labels and the borders of functions start at the
left margin, everything else is set in by four columns.
-/

namespace PL0

/-- How a register is written. -/
def Register.text (register : Register) : String :=
  "R" ++ toString register.index

/-- How an operand is written. -/
def Operand.text : Operand → String
  | .int value => toString value.toInt
  | .float value => value.text
  | .var name => name
  | .reg register => register.text

/-- How a target is written. -/
def Target.text : Target → String
  | .var name => name
  | .element array index => array ++ "[" ++ index.text ++ "]"

/-- How a point of a branch is written. -/
def BranchPart.text : BranchPart → String
  | .thenPart => "THEN"
  | .elsePart => "ELSE"
  | .endPart => "END"

/-- How a point of a loop is written. -/
def LoopPart.text : LoopPart → String
  | .startPart => "START"
  | .bodyPart => "BODY"
  | .exitPart => "EXIT"

/-- How a label is written. -/
def Label.text : Label → String
  | .branch id part => "IF" ++ toString id ++ "_" ++ part.text
  | .loop id part => "WHILE" ++ toString id ++ "_" ++ part.text
  | .named name => name

/-- The letter for a base type at the end of an operation. -/
def BaseType.letter : BaseType → String
  | .int => "I"
  | .float => "F"

/-- The operation for an arithmetic operator. -/
def ArithOp.mnemonic : ArithOp → String
  | .add => "ADD"
  | .sub => "SUB"
  | .mul => "MUL"
  | .div => "DIV"

/-- The operation for a comparison. -/
def RelOp.mnemonic : RelOp → String
  | .lt => "LT"
  | .le => "LE"
  | .gt => "GT"
  | .ge => "GE"
  | .eq => "EQ"
  | .ne => "NE"

/-- The operation for a connective. -/
def LogicOp.mnemonic : LogicOp → String
  | .and => "AND"
  | .or => "OR"

/-- The operation that changes a value to a base type. -/
def BaseType.conversion : BaseType → String
  | .int => "FTOI"
  | .float => "ITOF"

namespace Instr

/-- How an instruction is written, without the margin. -/
def text : Instr → String
  | .enter function params =>
    "FUNC " ++ function ++ "(" ++ ", ".intercalate params ++ ")"
  | .leave function => "ENDFUNC " ++ function
  | .alloc type array size =>
    "ALLOC" ++ type.letter ++ " " ++ array ++ ", " ++ size.text
  | .binary op type left right dest =>
    op.mnemonic ++ type.letter ++ " " ++ left.text ++ ", " ++ right.text ++
      " -> " ++ dest.text
  | .negate type source dest =>
    "NEG" ++ type.letter ++ " " ++ source.text ++ " -> " ++ dest.text
  | .convert target source dest =>
    target.conversion ++ " " ++ source.text ++ " -> " ++ dest.text
  | .load type array index dest =>
    "LOAD" ++ type.letter ++ " " ++ array ++ ", " ++ index.text ++
      " -> " ++ dest.text
  | .compare op type left right dest =>
    op.mnemonic ++ type.letter ++ " " ++ left.text ++ ", " ++ right.text ++
      " -> " ++ dest.text
  | .logic op left right dest =>
    op.mnemonic ++ " " ++ left.text ++ ", " ++ right.text ++ " -> " ++ dest.text
  | .not source dest => "NOT " ++ source.text ++ " -> " ++ dest.text
  | .move type source dest =>
    "MOV" ++ type.letter ++ " " ++ source.text ++ " -> " ++ dest.text
  | .label point => point.text ++ ":"
  | .jump target => "GOTO " ++ target.text
  | .jumpIf condition target =>
    "IF " ++ condition.text ++ " GOTO " ++ target.text
  | .call callee args dest? =>
    "CALL " ++ callee ++ String.join (args.map fun arg => ", " ++ arg.text) ++
      dest?.elim "" fun dest => " -> " ++ dest.text
  | .returnValue value => "RETURN " ++ value.text
  | .read dest => "READ " ++ dest.text
  | .write value => "WRITE " ++ value.text
  | .print output => "PRINT " ++ Text.quoted output

/-- Whether an instruction is written at the left margin. -/
def isFlushLeft : Instr → Bool
  | .label _ | .enter .. | .leave _ => true
  | _ => false

/-- The line of an instruction. -/
def line (instr : Instr) : String :=
  (if instr.isFlushLeft then "" else "    ") ++ instr.text ++ "\n"

/-- The listing of a list of instructions. -/
def listing (code : List Instr) : String :=
  String.join (code.map line)

end Instr

end PL0
