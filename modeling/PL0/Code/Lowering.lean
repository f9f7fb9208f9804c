import PL0.Code.Emission
import PL0.Typing.Analysis

/-!
# From trees to code

Operands are computed from left to right, each into a register of its own;
literals and plain variables need no code.  Which of the two forms of an
operation is meant is read off the table of types.  Both sides of a connective
are always computed.
-/

namespace PL0.Emission

/-- The type of a node. -/
def typeOf (types : TypeTable) (node : Node) : Emission ValueType :=
  match types[node.id]? with
  | some type => pure type
  | none => fail (.missingType node)

/-- Emit an instruction that leaves its result in a new register. -/
def emitInto (instr : Register → Instr) : Emission Register := do
  let dest ← freshRegister
  emit (instr dest)
  return dest

/-- Emit an instruction that leaves its result in a new register, and use it. -/
def result (instr : Register → Instr) : Emission Operand := do
  return .reg (← emitInto instr)

mutual

/-- Code for an expression. -/
def expr (types : TypeTable) : Expr → Emission Operand
  | .int _ value => pure (.int value)
  | .float _ value => pure (.float value)
  | .valueOf _ (.var _ name) => pure (.var name)
  | .valueOf node (.element _ name index) => do
    let type ← typeOf types node
    let index ← expr types index
    result (.load type.base name index)
  | .binary node op left right => do
    let type ← typeOf types node
    let left ← expr types left
    let right ← expr types right
    result (.binary op type.base left right)
  | .signed node op operand => do
    let type ← typeOf types node
    let source ← expr types operand
    match op with
    | .plus => return source
    | .neg => result (.negate type.base source)
  | .call _ callee args => do
    let args ← exprs types args
    result fun dest => .call callee args (some dest)
  | .cast _ target operand => do
    let type ← typeOf types operand.node
    let source ← expr types operand
    if type.base = target then return source
      else result (.convert target source)

/-- Code for expressions in order. -/
def exprs (types : TypeTable) : List Expr → Emission (List Operand)
  | [] => pure []
  | first :: others => do
    let operand ← expr types first
    return operand :: (← exprs types others)

end

/-- Code for a place that is to be changed, and the type of its value. -/
def target (types : TypeTable) : Place → Emission (Target × BaseType)
  | .var node name => do
    let type ← typeOf types node
    return (.var name, type.base)
  | .element node name index => do
    let type ← typeOf types node
    let index ← expr types index
    return (.element name index, type.base)

/-- Code for a condition. -/
def condition (types : TypeTable) : Condition → Emission Register
  | .rel _ op left right => do
    let type ← typeOf types left.node
    let left ← expr types left
    let right ← expr types right
    emitInto (.compare op type.base left right)
  | .logic _ op left right => do
    let left ← condition types left
    let right ← condition types right
    emitInto (.logic op left right)
  | .not _ operand => do
    let source ← condition types operand
    emitInto (.not source)

mutual

/-- Code for a statement.  `exit?` is where the innermost loop is left. -/
def stmt (types : TypeTable) (exit? : Option Label) : Stmt → Emission Unit
  | .assign _ place value => do
    let (dest, type) ← target types place
    let source ← expr types value
    emit (.move type source dest)
  | .ifThen _ test thenBranch => do
    let id ← freshLabel
    let test ← condition types test
    emit (.jumpIf test (.branch id .thenPart))
    emit (.jump (.branch id .endPart))
    emit (.label (.branch id .thenPart))
    stmt types exit? thenBranch
    emit (.label (.branch id .endPart))
  | .ifElse _ test thenBranch elseBranch => do
    let id ← freshLabel
    let test ← condition types test
    emit (.jumpIf test (.branch id .thenPart))
    emit (.jump (.branch id .elsePart))
    emit (.label (.branch id .thenPart))
    stmt types exit? thenBranch
    emit (.jump (.branch id .endPart))
    emit (.label (.branch id .elsePart))
    stmt types exit? elseBranch
    emit (.label (.branch id .endPart))
  | .whileDo _ test body => do
    let id ← freshLabel
    emit (.label (.loop id .startPart))
    let test ← condition types test
    emit (.jumpIf test (.loop id .bodyPart))
    emit (.jump (.loop id .exitPart))
    emit (.label (.loop id .bodyPart))
    stmt types (some (.loop id .exitPart)) body
    emit (.jump (.loop id .startPart))
    emit (.label (.loop id .exitPart))
  | .block _ statements => stmts types exit? statements
  | .breakLoop position =>
    match exit? with
    | some exit => emit (.jump exit)
    | none => fail (.breakOutsideLoop position)
  | .skip _ => pure ()
  | .returnValue _ value => do
    emit (.returnValue (← expr types value))
  | .read _ place => do
    let (dest, _) ← target types place
    emit (.read dest)
  | .write _ value => do
    emit (.write (← expr types value))
  | .print _ text => emit (.print text)
  | .call _ callee args => do
    emit (.call callee (← exprs types args) none)

/-- Code for statements in order. -/
def stmts (types : TypeTable) (exit? : Option Label) : List Stmt → Emission Unit
  | [] => pure ()
  | first :: others => do
    stmt types exit? first
    stmts types exit? others

end

/-- Code for the size of an array. -/
def arraySize (types : TypeTable) : ArraySize → Emission Operand
  | .fixed count => pure (.int count.toInt64)
  | .dynamic count => expr types count

/-- Code that makes room for the arrays among local variables. -/
def locals (types : TypeTable) : List Declaration → Emission Unit
  | [] => pure ()
  | first :: others => do
    if let some size := first.type.size? then
      emit (.alloc first.type.base first.name (← arraySize types size))
    locals types others

/-- Code for a function. -/
def function (types : TypeTable) (function : Function) : Emission Unit := do
  emit (.enter function.name (function.params.map Declaration.name))
  locals types function.locals
  stmts types none function.body
  emit (.leave function.name)

/-- Code for functions in order. -/
def functions (types : TypeTable) : List Function → Emission Unit
  | [] => pure ()
  | first :: others => do
    function types first
    functions types others

/-- Code for a program. -/
def program (types : TypeTable) : Program → Emission Unit
  | .functions all => functions types all
  | .statement body => do
    emit (.enter entryPoint [])
    stmt types none body
    emit (.leave entryPoint)

end PL0.Emission

namespace PL0

/-- The code of a program, by the types of its nodes. -/
def lower (program : Program) (types : TypeTable) :
    Except InternalError (List Instr) :=
  (Emission.program types program .initial).map Emitted.code

end PL0
