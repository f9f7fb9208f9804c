import Mathlib.Data.List.Forall2
import PL0.Proofs.Tree.Occurrences
import PL0.Scope.ValueType

/-!
# Well-typed programs

The rules of names and types as a judgement.  An environment lists what is
declared; nothing is said of scopes, of an order of checking or of what
happens after a mistake.

A variable hides a function of the same name.  An array is used by its
elements, except that its bare name can be passed for a parameter that is an
array of the same base type.
-/

namespace PL0

/-- What is declared where a part of a program stands. -/
structure Environment where
  /-- All functions, with the types of their parameters. -/
  functions : List (String × List ValueType)
  /-- The variables of the function around. -/
  vars : List (String × ValueType)

/-- A function is called by its name unless a variable hides it. -/
def Environment.Calls (environment : Environment) (callee : String)
    (params : List ValueType) : Prop :=
  (callee, params) ∈ environment.functions ∧
    ∀ type, (callee, type) ∉ environment.vars

mutual

/-- A place holds values of a base type. -/
inductive Place.HasType (environment : Environment) :
    Place → BaseType → Prop where
  | var {node : Node} {name : String} {base : BaseType}
      (declared : (name, .scalar base) ∈ environment.vars) :
      Place.HasType environment (.var node name) base
  | element {node : Node} {name : String} {index : Expr} {base : BaseType}
      (declared : (name, .array base) ∈ environment.vars)
      (indexTyped : Expr.HasType environment index .int) :
      Place.HasType environment (.element node name index) base

/-- An expression has values of a base type. -/
inductive Expr.HasType (environment : Environment) :
    Expr → BaseType → Prop where
  | int {node : Node} {value : Int64} :
      Expr.HasType environment (.int node value) .int
  | float {node : Node} {value : Binary64} :
      Expr.HasType environment (.float node value) .float
  | valueOf {node : Node} {place : Place} {base : BaseType}
      (placeTyped : Place.HasType environment place base) :
      Expr.HasType environment (.valueOf node place) base
  | binary {node : Node} {op : ArithOp} {left right : Expr} {base : BaseType}
      (leftTyped : Expr.HasType environment left base)
      (rightTyped : Expr.HasType environment right base) :
      Expr.HasType environment (.binary node op left right) base
  | signed {node : Node} {op : SignOp} {operand : Expr} {base : BaseType}
      (operandTyped : Expr.HasType environment operand base) :
      Expr.HasType environment (.signed node op operand) base
  /-- Every function yields an integer. -/
  | call {node : Node} {callee : String} {args : List Expr}
      {params : List ValueType} (calls : environment.Calls callee params)
      (argsTyped : List.Forall₂ (Expr.PassesAs environment) args params) :
      Expr.HasType environment (.call node callee args) .int
  | cast {node : Node} {target base : BaseType} {operand : Expr}
      (operandTyped : Expr.HasType environment operand base) :
      Expr.HasType environment (.cast node target operand) target

/-- An expression can be passed for a parameter of a type. -/
inductive Expr.PassesAs (environment : Environment) :
    Expr → ValueType → Prop where
  | scalar {arg : Expr} {base : BaseType}
      (argTyped : Expr.HasType environment arg base) :
      Expr.PassesAs environment arg (.scalar base)
  | array {node placeNode : Node} {name : String} {base : BaseType}
      (declared : (name, .array base) ∈ environment.vars) :
      Expr.PassesAs environment (.valueOf node (.var placeNode name))
        (.array base)

end

/-- The two sides of each comparison in a condition have the same type. -/
inductive Condition.WellTyped (environment : Environment) :
    Condition → Prop where
  | rel {position : Position} {op : RelOp} {left right : Expr} {base : BaseType}
      (leftTyped : left.HasType environment base)
      (rightTyped : right.HasType environment base) :
      Condition.WellTyped environment (.rel position op left right)
  | logic {position : Position} {op : LogicOp} {left right : Condition}
      (leftTyped : Condition.WellTyped environment left)
      (rightTyped : Condition.WellTyped environment right) :
      Condition.WellTyped environment (.logic position op left right)
  | not {position : Position} {operand : Condition}
      (operandTyped : Condition.WellTyped environment operand) :
      Condition.WellTyped environment (.not position operand)

/-- A statement keeps to the rules, inside a loop or outside. -/
inductive Stmt.WellTyped (environment : Environment) :
    (inLoop : Bool) → Stmt → Prop where
  | assign {inLoop : Bool} {position : Position} {target : Place} {value : Expr}
      {base : BaseType}
      (targetTyped : target.HasType environment base)
      (valueTyped : value.HasType environment base) :
      Stmt.WellTyped environment inLoop (.assign position target value)
  | ifThen {inLoop : Bool} {position : Position} {test : Condition}
      {thenBranch : Stmt} (testTyped : test.WellTyped environment)
      (thenTyped : Stmt.WellTyped environment inLoop thenBranch) :
      Stmt.WellTyped environment inLoop (.ifThen position test thenBranch)
  | ifElse {inLoop : Bool} {position : Position} {test : Condition}
      {thenBranch elseBranch : Stmt}
      (testTyped : test.WellTyped environment)
      (thenTyped : Stmt.WellTyped environment inLoop thenBranch)
      (elseTyped : Stmt.WellTyped environment inLoop elseBranch) :
      Stmt.WellTyped environment inLoop
        (.ifElse position test thenBranch elseBranch)
  | whileDo {inLoop : Bool} {position : Position} {test : Condition}
      {body : Stmt} (testTyped : test.WellTyped environment)
      (bodyTyped : Stmt.WellTyped environment true body) :
      Stmt.WellTyped environment inLoop (.whileDo position test body)
  | block {inLoop : Bool} {position : Position} {statements : List Stmt}
      (allTyped : ∀ statement ∈ statements,
        Stmt.WellTyped environment inLoop statement) :
      Stmt.WellTyped environment inLoop (.block position statements)
  | breakLoop {position : Position} :
      Stmt.WellTyped environment true (.breakLoop position)
  | skip {inLoop : Bool} {position : Position} :
      Stmt.WellTyped environment inLoop (.skip position)
  | returnValue {inLoop : Bool} {position : Position} {value : Expr}
      (valueTyped : value.HasType environment .int) :
      Stmt.WellTyped environment inLoop (.returnValue position value)
  | read {inLoop : Bool} {position : Position} {target : Place}
      {base : BaseType} (targetTyped : target.HasType environment base) :
      Stmt.WellTyped environment inLoop (.read position target)
  | write {inLoop : Bool} {position : Position} {value : Expr} {base : BaseType}
      (valueTyped : value.HasType environment base) :
      Stmt.WellTyped environment inLoop (.write position value)
  | print {inLoop : Bool} {position : Position} {text : String} :
      Stmt.WellTyped environment inLoop (.print position text)
  | call {inLoop : Bool} {position : Position} {callee : String}
      {args : List Expr} {params : List ValueType}
      (calls : environment.Calls callee params)
      (argsTyped : List.Forall₂ (Expr.PassesAs environment) args params) :
      Stmt.WellTyped environment inLoop (.call position callee args)

/-- A declaration as a variable of an environment. -/
def Declaration.asVariable (declaration : Declaration) : String × ValueType :=
  (declaration.name, declaration.type.valueType)

namespace Function

/-- The name of a function with the types of its parameters. -/
def signature (function : Function) : String × List ValueType :=
  (function.name, function.params.map fun param => param.type.valueType)

/-- What is declared in the body of a function. -/
def environment (function : Function)
    (functions : List (String × List ValueType)) : Environment :=
  ⟨functions, function.declarations.map Declaration.asVariable⟩

/-- A function keeps to the rules among the given functions.  The size of an
array may speak of the names declared before it and of no others. -/
structure WellTyped (functions : List (String × List ValueType))
    (function : Function) : Prop where
  distinct : (function.declarations.map Declaration.name).Nodup
  sizes : ∀ before declaration after count,
    function.declarations = before ++ declaration :: after →
    declaration.type.size? = some (.dynamic count) →
    count.HasType ⟨functions, before.map Declaration.asVariable⟩ .int
  body : ∀ statement ∈ function.body,
    statement.WellTyped (function.environment functions) false

end Function

namespace Program

/-- The functions of a program with the types of their parameters. -/
def signatures (program : Program) : List (String × List ValueType) :=
  program.definitions.map Function.signature

/-- A program keeps to the rules. -/
structure WellTyped (program : Program) : Prop where
  distinct : (program.definitions.map Function.name).Nodup
  start : entryPoint ∈ program.definitions.map Function.name
  functions : ∀ function ∈ program.definitions,
    function.WellTyped program.signatures

end Program

end PL0
