import PL0.Scope.Table
import PL0.Typing.Checked

/-!
# Checking

Names are resolved and types compared, part by part in the order of the text.
A part whose type cannot be told has none, and nothing is reported of it that
would only follow from an earlier fault.  All functions are declared before
any of them is checked, so a call may come before the function it calls.
-/

namespace PL0

namespace ScopeTable

/-- The type of a place with the given name, with or without an index.  A
whole array has a type only where `allowArray` says so. -/
def placeType (table : ScopeTable) (allowArray : Bool) (name : String)
    (isIndexed : Bool) : Except SemanticFault ValueType :=
  match table.resolve? name with
  | none => .error (.undefined .var name)
  | some (.function ..) => .error (.misuse name .functionAsValue)
  | some (.var (.scalar base) ..) =>
    if isIndexed then .error (.misuse name .indexedScalar)
      else .ok (.scalar base)
  | some (.var (.array base) ..) =>
    if isIndexed then .ok (.scalar base)
    else if allowArray then .ok (.array base)
    else .error (.misuse name .unindexedArray)

/-- The types of the parameters of a function that is called with `count`
arguments. -/
def callParams (table : ScopeTable) (callee : String) (count : Nat) :
    Except SemanticFault (List ValueType) :=
  match table.resolve? callee with
  | some (.function params _) =>
    if params.length = count then .ok params
      else .error (.arity callee params.length count)
  | _ => .error (.undefined .function callee)

/-- The type of a call, whatever its arguments. -/
def callType (table : ScopeTable) (callee : String) : Option ValueType :=
  match table.resolve? callee with
  | some (.function ..) => some .int
  | _ => none

end ScopeTable

namespace Checked

/-- Report two known types that differ. -/
def compare (context : TypeContext) (position : Position)
    (expected? found? : Option ValueType) : Checked Unit :=
  match expected?, found? with
  | some expected, some found =>
    if expected = found then pure ()
    else report (.typeMismatch context expected found) position
  | _, _ => pure ()

/-- The type of an operation on two operands of one type. -/
def commonType (left? right? : Option ValueType) : Option ValueType :=
  match left?, right? with
  | some left, some right => if left = right then some left else none
  | _, _ => none

mutual

/-- Check a place and find its type. -/
def place (table : ScopeTable) (allowArray : Bool) :
    Place → Checked (Option ValueType)
  | .var node name =>
    match table.placeType allowArray name false with
    | .error fault => do
      report fault node.position
      return none
    | .ok type => record node (some type)
  | .element node name index =>
    match table.placeType allowArray name true with
    | .error fault => do
      report fault node.position
      let _ ← expr table false index
      return none
    | .ok type => do
      let found? ← expr table false index
      compare (.indexOf name) index.node.position (some .int) found?
      record node (some type)

/-- Check an expression and find its type.  Only a place can be a whole
array. -/
def expr (table : ScopeTable) (allowArray : Bool) :
    Expr → Checked (Option ValueType)
  | .int node _ => record node (some .int)
  | .float node _ => record node (some .float)
  | .valueOf node held => do
    record node (← place table allowArray held)
  | .binary node op left right => do
    let left? ← expr table false left
    let right? ← expr table false right
    compare (.arithmetic op) node.position left? right?
    record node (commonType left? right?)
  | .signed node _ operand => do
    record node (← expr table false operand)
  | .call node callee args => do
    match table.callParams callee args.length with
    | .ok params => arguments table callee 1 params args
    | .error fault => do
      report fault node.position
      exprs table args
    record node (table.callType callee)
  | .cast node target operand => do
    let _ ← expr table false operand
    record node (some (.scalar target))

/-- Check expressions of which nothing is known; arrays are let pass. -/
def exprs (table : ScopeTable) : List Expr → Checked Unit
  | [] => pure ()
  | first :: others => do
    let _ ← expr table true first
    exprs table others

/-- Check the arguments of a call against the types of the parameters, the
first of them being argument `number`. -/
def arguments (table : ScopeTable) (callee : String) (number : Nat) :
    List ValueType → List Expr → Checked Unit
  | param :: params, arg :: args => do
    let found? ← expr table param.isArray arg
    compare (.argument number callee) arg.node.position (some param) found?
    arguments table callee (number + 1) params args
  | _, _ => pure ()

end

/-- Check a call. -/
def call (table : ScopeTable) (position : Position) (callee : String)
    (args : List Expr) : Checked Unit :=
  match table.callParams callee args.length with
  | .ok params => arguments table callee 1 params args
  | .error fault => do
    report fault position
    exprs table args

/-- Check a condition. -/
def condition (table : ScopeTable) : Condition → Checked Unit
  | .rel position op left right => do
    let left? ← expr table false left
    let right? ← expr table false right
    compare (.comparison op) position left? right?
  | .logic _ _ left right => do
    condition table left
    condition table right
  | .not _ operand => condition table operand

mutual

/-- Check a statement. -/
def stmt (table : ScopeTable) : Stmt → Checked Unit
  | .assign position target value => do
    let target? ← place table false target
    let value? ← expr table false value
    compare .assignment position target? value?
  | .ifThen _ test thenBranch => do
    condition table test
    stmt table thenBranch
  | .ifElse _ test thenBranch elseBranch => do
    condition table test
    stmt table thenBranch
    stmt table elseBranch
  | .whileDo position test body => do
    condition table test
    stmt (table.enterLoop position) body
  | .block _ statements => stmts table statements
  | .breakLoop position =>
    if table.inLoop then pure () else report .breakOutsideLoop position
  | .skip _ => pure ()
  | .returnValue position value => do
    let value? ← expr table false value
    compare .returnValue position (some .int) value?
  | .read _ target => do
    let _ ← place table false target
    return ()
  | .write _ value => do
    let _ ← expr table false value
    return ()
  | .print .. => pure ()
  | .call position callee args => call table position callee args

/-- Check statements in order. -/
def stmts (table : ScopeTable) : List Stmt → Checked Unit
  | [] => pure ()
  | first :: others => do
    stmt table first
    stmts table others

end

/-- Define a name in the current scope, or report that it is taken. -/
def define (table : ScopeTable) (kind : NameKind) (name : String)
    (binding : Binding) : Checked ScopeTable :=
  match table.define name binding with
  | .ok table => pure table
  | .error existing => do
    report (.duplicate kind name existing.position) binding.position
    return table

/-- The kind of name that a variable of a role has. -/
def nameKind : VariableRole → NameKind
  | .param => .parameter
  | .localVar => .var

/-- Check the size in a declaration. -/
def size (table : ScopeTable) (declaration : Declaration) : Checked Unit :=
  match declaration.type.size? with
  | some (.dynamic count) => do
    let count? ← expr table false count
    compare (.sizeOf declaration.name) count.node.position (some .int) count?
  | _ => pure ()

/-- Check declarations and define their names, in order.  A size may speak of
the names declared before it. -/
def declarations (role : VariableRole) (table : ScopeTable) :
    List Declaration → Checked ScopeTable
  | [] => pure table
  | first :: others => do
    size table first
    let table ← define table (nameKind role) first.name
      (.var first.type.valueType role first.position)
    declarations role table others

/-- Define the names of functions, in order. -/
def signatures (table : ScopeTable) : List Function → Checked ScopeTable
  | [] => pure table
  | first :: others => do
    let params := first.params.map fun param => param.type.valueType
    let table ← define table .function first.name
        (.function params first.position)
    signatures table others

/-- Check a function in a scope of its own. -/
def function (table : ScopeTable) (function : Function) :
    Checked ScopeTable := do
  let table := table.push (.function function.name)
  let table ← declarations .param table function.params
  let table ← declarations .localVar table function.locals
  stmts table function.body
  return table.pop

/-- Check functions in order. -/
def functions (table : ScopeTable) : List Function → Checked ScopeTable
  | [] => pure table
  | first :: others => do
    let table ← function table first
    functions table others

/-- Report that there is no function to start in, at the last function there
is. -/
def start (table : ScopeTable) (all : List Function) : Checked Unit :=
  if (table.resolveLocal? entryPoint).isSome then pure ()
  else report .missingMain (all.getLast?.elim Position.first Function.position)

/-- Check a program.  A statement on its own is checked as the body of the
function in which a program starts. -/
def program : Program → Checked ScopeTable
  | .functions all => do
    let table ← signatures .initial all
    start table all
    functions table all
  | .statement body => do
    let table ← define .initial .function entryPoint
        (.function [] body.position)
    let table := table.push (.function entryPoint)
    stmt table body
    return table.pop

end Checked

end PL0
