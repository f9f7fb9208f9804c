import PL0.Binary64.Basic
import PL0.Position

/-!
# Syntax trees

A program is a list of functions, or a single statement that stands for the
body of `main`.  Places and expressions carry a number of their own besides
their position, so that what is found out about one of them can be kept in a
table on the side.
-/

namespace PL0

/-- The types a value can have, arrays apart. -/
inductive BaseType where
  | int
  | float
deriving DecidableEq, Inhabited

/-- How a base type is written. -/
def BaseType.text : BaseType → String
  | .int => "int"
  | .float => "float"

/-- The arithmetic operators between two operands. -/
inductive ArithOp where
  | add | sub | mul | div
deriving DecidableEq, Inhabited

/-- How an arithmetic operator is written. -/
def ArithOp.text : ArithOp → String
  | .add => "+"
  | .sub => "-"
  | .mul => "*"
  | .div => "/"

/-- The signs before an operand. -/
inductive SignOp where
  | neg | plus
deriving DecidableEq, Inhabited

/-- The comparisons. -/
inductive RelOp where
  | lt | le | gt | ge | eq | ne
deriving DecidableEq, Inhabited

/-- How a comparison is written. -/
def RelOp.text : RelOp → String
  | .lt => "<"
  | .le => "<="
  | .gt => ">"
  | .ge => ">="
  | .eq => "=="
  | .ne => "!="

/-- The connectives between two conditions. -/
inductive LogicOp where
  | and | or
deriving DecidableEq, Inhabited

/-- How a connective is written. -/
def LogicOp.text : LogicOp → String
  | .and => "and"
  | .or => "or"

/-- The number by which a place or an expression is known. -/
abbrev NodeId := Nat

/-- The number and the position of a place or an expression. -/
structure Node where
  id : NodeId
  position : Position
deriving DecidableEq, Inhabited

mutual

/-- Something that holds a value: a variable or an element of an array. -/
inductive Place where
  | var (node : Node) (name : String)
  | element (node : Node) (name : String) (index : Expr)

/-- An expression. -/
inductive Expr where
  | int (node : Node) (value : Int64)
  | float (node : Node) (value : Binary64)
  /-- The value that a place holds. -/
  | valueOf (node : Node) (place : Place)
  | binary (node : Node) (op : ArithOp) (left right : Expr)
  | signed (node : Node) (op : SignOp) (operand : Expr)
  | call (node : Node) (callee : String) (args : List Expr)
  | cast (node : Node) (target : BaseType) (operand : Expr)

end

/-- The number and the position of a place. -/
def Place.node : Place → Node
  | .var node _ => node
  | .element node _ _ => node

/-- The number and the position of an expression. -/
def Expr.node : Expr → Node
  | .int node _ => node
  | .float node _ => node
  | .valueOf node _ => node
  | .binary node .. => node
  | .signed node .. => node
  | .call node .. => node
  | .cast node .. => node

/-- A condition. -/
inductive Condition where
  | rel (position : Position) (op : RelOp) (left right : Expr)
  | logic (position : Position) (op : LogicOp) (left right : Condition)
  | not (position : Position) (operand : Condition)

/-- The position of a condition. -/
def Condition.position : Condition → Position
  | .rel position .. => position
  | .logic position .. => position
  | .not position _ => position

/-- A statement. -/
inductive Stmt where
  | assign (position : Position) (target : Place) (value : Expr)
  | ifThen (position : Position) (condition : Condition) (thenBranch : Stmt)
  | ifElse (position : Position) (condition : Condition)
    (thenBranch elseBranch : Stmt)
  | whileDo (position : Position) (condition : Condition) (body : Stmt)
  | block (position : Position) (statements : List Stmt)
  /-- Leave the innermost loop. -/
  | breakLoop (position : Position)
  | skip (position : Position)
  | returnValue (position : Position) (value : Expr)
  | read (position : Position) (target : Place)
  | write (position : Position) (value : Expr)
  | print (position : Position) (text : String)
  | call (position : Position) (callee : String) (args : List Expr)

/-- The position of a statement. -/
def Stmt.position : Stmt → Position
  | .assign position .. => position
  | .ifThen position .. => position
  | .ifElse position .. => position
  | .whileDo position .. => position
  | .block position _ => position
  | .breakLoop position => position
  | .skip position => position
  | .returnValue position _ => position
  | .read position _ => position
  | .write position _ => position
  | .print position _ => position
  | .call position .. => position

/-- The size of an array: a number, or an expression for when the function is
entered. -/
inductive ArraySize where
  | fixed (count : UInt64)
  | dynamic (count : Expr)

/-- The type in a declaration. -/
structure DeclaredType where
  base : BaseType
  size? : Option ArraySize

/-- The declaration of a parameter or a local variable. -/
structure Declaration where
  name : String
  type : DeclaredType
  position : Position

/-- A function.  Its position is that of its name. -/
structure Function where
  name : String
  params : List Declaration
  locals : List Declaration
  body : List Stmt
  position : Position

/-- The name of the function in which a program starts. -/
def entryPoint : String := "main"

/-- A program. -/
inductive Program where
  | functions (all : List Function)
  /-- A statement on its own: the body of `main`. -/
  | statement (body : Stmt)

end PL0
