import PL0.Binary64.Text
import PL0.Text.Quoted
import PL0.Tree.Basic

/-!
# The outline of a syntax tree

A tree is shown as nested records, lists and named variants, each part on a
line of its own and four columns further in than the whole.
-/

namespace PL0

/-- Structured data to be shown: a word, or something with parts. -/
inductive Outline where
  | word (text : String)
  /-- A record with named fields. -/
  | record (name : String) (fields : List (String × Outline))
  /-- A variant that holds one value. -/
  | variant (name : String) (value : Outline)
  | list (items : List Outline)

namespace Outline

/-- The blanks before a line at a depth. -/
def indent (depth : Nat) : String :=
  String.ofList (List.replicate (4 * depth) ' ')

mutual

/-- The text of an outline whose first line is already indented to `depth`. -/
def text (depth : Nat) : Outline → String
  | .word text => text
  | .record name fields =>
    name ++ " \x7b\n" ++ fieldLines (depth + 1) fields ++ indent depth ++ "\x7d"
  | .variant name value =>
    name ++ "(\n" ++ indent (depth + 1) ++ value.text (depth + 1) ++ ",\n" ++
      indent depth ++ ")"
  | .list [] => "[]"
  | .list (item :: items) =>
    "[\n" ++ itemLines (depth + 1) (item :: items) ++ indent depth ++ "]"

/-- The lines of the fields of a record. -/
def fieldLines (depth : Nat) : List (String × Outline) → String
  | [] => ""
  | (name, value) :: fields =>
    indent depth ++ name ++ ": " ++ value.text depth ++ ",\n" ++
      fieldLines depth fields

/-- The lines of the items of a list. -/
def itemLines (depth : Nat) : List Outline → String
  | [] => ""
  | item :: items =>
    indent depth ++ item.text depth ++ ",\n" ++ itemLines depth items

end

/-- A value that may be absent. -/
def option : Option Outline → Outline
  | none => .word "None"
  | some value => .variant "Some" value

end Outline

/-- The outline of a position. -/
def Position.outline (position : Position) : Outline :=
  .record "SourceLocation"
    [("line", .word (toString position.line)),
      ("column", .word (toString position.column))]

/-- The outline of a base type. -/
def BaseType.outline : BaseType → Outline
  | .int => .word "Int"
  | .float => .word "Float"

/-- The outline of an arithmetic operator. -/
def ArithOp.outline : ArithOp → Outline
  | .add => .word "Add"
  | .sub => .word "Sub"
  | .mul => .word "Mul"
  | .div => .word "Div"

/-- The outline of a sign. -/
def SignOp.outline : SignOp → Outline
  | .neg => .word "Neg"
  | .plus => .word "Plus"

/-- The outline of a comparison. -/
def RelOp.outline : RelOp → Outline
  | .lt => .word "Lt"
  | .le => .word "Le"
  | .gt => .word "Gt"
  | .ge => .word "Ge"
  | .eq => .word "Eq"
  | .ne => .word "Ne"

/-- The outline of a connective. -/
def LogicOp.outline : LogicOp → Outline
  | .and => .word "And"
  | .or => .word "Or"

/-- The outline of a name or another text. -/
def Outline.quoted (text : String) : Outline :=
  .word (Text.quoted text)

/-- The outline of an expression, from what it holds. -/
def Node.exprOutline (node : Node) (kind : Outline) : Outline :=
  .record "Expr"
    [("id", .word (toString node.id)), ("kind", kind),
      ("location", node.position.outline)]

/-- The outline of a place, from its name and its index. -/
def Node.placeOutline (node : Node) (name : String) (index : Option Outline) :
    Outline :=
  .record "Location"
    [("id", .word (toString node.id)), ("name", .quoted name),
      ("index", .option index), ("location", node.position.outline)]

mutual

/-- The outline of a place. -/
def Place.outline : Place → Outline
  | .var node name => node.placeOutline name none
  | .element node name index => node.placeOutline name (some index.outline)

/-- The outline of an expression. -/
def Expr.outline : Expr → Outline
  | .int node value =>
    node.exprOutline (.variant "IntegerLiteral" (.word (toString value.toInt)))
  | .float node value =>
    node.exprOutline (.variant "FloatLiteral" (.word value.text))
  | .valueOf node place => node.exprOutline (.variant "Location" place.outline)
  | .binary node op left right =>
    node.exprOutline (.record "Binary"
      [("op", op.outline), ("left", left.outline), ("right", right.outline)])
  | .signed node op operand =>
    node.exprOutline (.record "Unary" [("op", op.outline),
      ("operand", operand.outline)])
  | .call node callee args =>
    node.exprOutline (.record "Call" [("name", .quoted callee),
      ("args", .list (exprOutlines args))])
  | .cast node target operand =>
    node.exprOutline (.record "Cast" [("target", target.outline),
      ("expr", operand.outline)])

/-- The outlines of expressions in order. -/
def exprOutlines : List Expr → List Outline
  | [] => []
  | expr :: exprs => expr.outline :: exprOutlines exprs

end

/-- The outline of a condition. -/
def Condition.outline : Condition → Outline
  | .rel position op left right =>
    .record "Relational"
      [("op", op.outline), ("left", left.outline), ("right", right.outline),
        ("location", position.outline)]
  | .logic position op left right =>
    .record "Logical"
      [("op", op.outline), ("left", left.outline), ("right", right.outline),
        ("location", position.outline)]
  | .not position operand =>
    .record "Not" [("operand", operand.outline), ("location", position.outline)]

mutual

/-- The outline of a statement. -/
def Stmt.outline : Stmt → Outline
  | .assign position target value =>
    .record "Assignment"
      [("target", target.outline), ("value", value.outline),
        ("location", position.outline)]
  | .ifThen position condition thenBranch =>
    .record "If"
      [("condition", condition.outline), ("then_branch", thenBranch.outline),
        ("location", position.outline)]
  | .ifElse position condition thenBranch elseBranch =>
    .record "IfElse"
      [("condition", condition.outline), ("then_branch", thenBranch.outline),
        ("else_branch", elseBranch.outline), ("location", position.outline)]
  | .whileDo position condition body =>
    .record "While"
      [("condition", condition.outline), ("body", body.outline),
        ("location", position.outline)]
  | .block position statements =>
    .record "Block"
      [("statements", .list (stmtOutlines statements)),
        ("location", position.outline)]
  | .breakLoop position => .record "Break" [("location", position.outline)]
  | .skip position => .record "Skip" [("location", position.outline)]
  | .returnValue position value =>
    .record "Return" [("value", value.outline), ("location", position.outline)]
  | .read position target =>
    .record "Read" [("target", target.outline), ("location", position.outline)]
  | .write position value =>
    .record "Write" [("value", value.outline), ("location", position.outline)]
  | .print position text =>
    .record "Print" [("text", .quoted text), ("location", position.outline)]
  | .call position callee args =>
    .record "Call"
      [("name", .quoted callee), ("args", .list (exprOutlines args)),
        ("location", position.outline)]

/-- The outlines of statements in order. -/
def stmtOutlines : List Stmt → List Outline
  | [] => []
  | stmt :: stmts => stmt.outline :: stmtOutlines stmts

end

/-- The outline of the size of an array. -/
def ArraySize.outline : ArraySize → Outline
  | .fixed count => .variant "Fixed" (.word (toString count.toNat))
  | .dynamic count => .variant "Dynamic" count.outline

/-- The outline of a declaration. -/
def Declaration.outline (declaration : Declaration) : Outline :=
  .record "VarDecl"
    [("name", .quoted declaration.name),
      ("type_name", .record "TypeName"
        [("base", declaration.type.base.outline),
          ("array_size",
            .option (declaration.type.size?.map ArraySize.outline))]),
      ("location", declaration.position.outline)]

/-- The outline of a function. -/
def Function.outline (function : Function) : Outline :=
  .record "FunctionDef"
    [("name", .quoted function.name),
      ("params", .list (function.params.map Declaration.outline)),
      ("locals", .list (function.locals.map Declaration.outline)),
      ("body", .list (stmtOutlines function.body)),
      ("location", function.position.outline)]

/-- The outline of a program. -/
def Program.outline : Program → Outline
  | .functions all => .variant "Functions" (.list (all.map Function.outline))
  | .statement body => .variant "Statement" body.outline

end PL0
