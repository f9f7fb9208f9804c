import PL0.Grammar.Program

/-!
# Reading by index

The rules of the language once more, for a walk over a whole sequence of
tokens: an index says where the walk stands, and every look at a token goes
through it.  A look outside of the tokens or behind a token for the end of the
input is stuck, and so is every loop and every recursion that runs out of
fuel.  Nothing here knows how many tokens are left.
-/

namespace PL0

/-- Why a walk stops. -/
inductive Halt where
  /-- A token does not fit. -/
  | refused (error : SyntaxError)
  /-- A token was looked for where there is none to be seen, or the fuel ran
  out. -/
  | stuck

/-- The tokens with the place in them, the next free node number and the
errors so far. -/
structure Walker where
  tokens : List Token
  index : Nat
  nextId : NodeId
  errors : List SyntaxError
  recovering : Bool

namespace Walker

/-- The token at the index, if no token before it is the end of the input. -/
def current? (walker : Walker) : Option Token :=
  if (walker.tokens.take walker.index).any fun earlier =>
    earlier.kind = .endOfInput then none
  else walker.tokens[walker.index]?

/-- The token before the index, or the one at the index if that is the first. -/
def previous? (walker : Walker) : Option Token :=
  walker.tokens[walker.index - 1]?

/-- Add an error, unless it is to be kept quiet. -/
def report (walker : Walker) (error : SyntaxError) : Walker :=
  let quiet :=
    if error.isAtEnd then walker.errors.any SyntaxError.isAtEnd
      else walker.recovering
  if quiet then walker
  else { walker with errors := walker.errors ++ [error], recovering := true }

end Walker

/-- A walk over tokens. -/
abbrev Walk := EStateM Halt Walker

namespace Walk

/-- A token that must be there. -/
def found : Option Token → Walk Token
  | some token => return token
  | none => throw .stuck

/-- The token at the index. -/
def peek : Walk Token := do
  found (← get).current?

/-- The kind of the next token, none at the end of the input. -/
def next? : Walk (Option Token.Kind) := do
  let token ← peek
  return if token.kind = .endOfInput then none else some token.kind

/-- The kind of the token after the next one, if there is one. -/
def second? : Walk (Option Token.Kind) := do
  let walker ← get
  return walker.tokens[walker.index + 1]?.map Token.kind

/-- The position of the next token. -/
def position : Walk Position := do
  return (← peek).position

/-- Pass over the next token, except at the end of the input, and return the
token before the index. -/
def take : Walk Token := do
  if (← next?).isSome then
    modify fun walker => { walker with index := walker.index + 1 }
  found (← get).previous?

/-- Pass over the next token. -/
def advance : Walk Unit := do
  let _ ← take
  return ()

/-- Pass over the next token if it is of the given kind, and tell whether it
is. -/
def accept (kind : Token.Kind) : Walk Bool := do
  if (← next?) = some kind then
    advance
    return true
  else
    return false

/-- The error that the next token does not fit. -/
def unexpected (expected : Expectation) : Walk SyntaxError := do
  return ⟨← next?, expected, ← position⟩

/-- Stop at a token that does not fit. -/
def refuse {α : Type} (expected : Expectation) : Walk α := do
  throw (.refused (← unexpected expected))

/-- Pass over a token that must be of the given kind. -/
def expect (kind : Token.Kind) (expected : Expectation) : Walk Unit := do
  unless ← accept kind do
    refuse expected

/-- An identifier and its position. -/
def identifier (expected : Expectation) : Walk (String × Position) := do
  match ← next? with
  | some (.identifier name) =>
    let token ← take
    return (name, token.position)
  | _ => refuse expected

/-- Number a node that starts at `position`. -/
def newNode (position : Position) : Walk Node :=
  modifyGet fun walker =>
    (⟨walker.nextId, position⟩, { walker with nextId := walker.nextId + 1 })

/-- Try a walk.  Where a token does not fit, go back to where it started. -/
def speculate {α : Type} (walk : Walk α) : Walk (Option α) :=
  fun walker =>
    match walk walker with
    | .ok value rest => .ok (some value) rest
    | .error (.refused _) rest =>
      .ok none { rest with index := walker.index, nextId := walker.nextId }
    | .error .stuck rest => .error .stuck rest

/-- Let a walk try, and stay where it ended if a token does not fit. -/
def attempt {α : Type} (walk : Walk α) : Walk (Except SyntaxError α) :=
  fun walker =>
    match walk walker with
    | .ok value rest => .ok (.ok value) rest
    | .error (.refused error) rest => .ok (.error error) rest
    | .error .stuck rest => .error .stuck rest

/-- Report an error. -/
def report (error : SyntaxError) : Walk Unit :=
  modify fun walker => walker.report error

/-- The next error is reported again. -/
def recovered : Walk Unit :=
  modify fun walker => { walker with recovering := false }

/-- Go on with a chain of operands while the next token is an operator. -/
def chainFrom {α ω : Type} (operand : Walk α) (op? : Token.Kind → Option ω)
    (join : ω → α → α → Walk α) : Nat → α → Walk α
  | 0, _ => throw .stuck
  | fuel + 1, left => do
    match (← next?).bind op? with
    | none => return left
    | some op =>
      advance
      let right ← operand
      let joined ← join op left right
      chainFrom operand op? join fuel joined

/-- A chain of operands, joined from the left. -/
def chain {α ω : Type} (fuel : Nat) (operand : Walk α)
    (op? : Token.Kind → Option ω) (join : ω → α → α → Walk α) : Walk α := do
  let first ← operand
  chainFrom operand op? join fuel first

/-- Items between commas, at least one. -/
def commaList {α : Type} (item : Walk α) : Nat → Walk (List α)
  | 0 => throw .stuck
  | fuel + 1 => do
    let first ← item
    if ← accept (.symbol .comma) then
      return first :: (← commaList item fuel)
    else
      return [first]

/-- Join two operands by an operator, at the position of the first. -/
def joinBy (op : ArithOp) (left right : Expr) : Walk Expr := do
  return .binary (← newNode left.node.position) op left right

/-- The operators of a sum. -/
def sumOp? : Token.Kind → Option ArithOp
  | .symbol .plus => some .add
  | .symbol .minus => some .sub
  | _ => none

/-- The operators of a product. -/
def productOp? : Token.Kind → Option ArithOp
  | .symbol .times => some .mul
  | .symbol .divide => some .div
  | _ => none

/-- A sum of products of factors. -/
def sum (fuel : Nat) (factor : Walk Expr) : Walk Expr :=
  chain fuel (chain fuel factor productOp? joinBy) sumOp? joinBy

/-- A variable, or an element of an array with its index. -/
def placeWith (expr : Walk Expr) : Walk Place := do
  let (name, position) ← identifier .variableName
  if ← accept (.symbol .openBracket) then
    let index ← expr
    expect (.symbol .closeBracket) .closeAfterIndex
    return .element (← newNode position) name index
  else
    return .var (← newNode position) name

/-- The arguments of a call after its opening parenthesis. -/
def argumentsWith (fuel : Nat) (expr : Walk Expr) : Walk (List Expr) := do
  if ← accept (.symbol .closeParen) then
    return []
  else
    let args ← commaList expr fuel
    expect (.symbol .closeParen) .closeAfterArguments
    return args

/-- The operand of a cast, in parentheses or in brackets. -/
def castOperand (expr : Walk Expr) : Walk Expr := do
  if ← accept (.symbol .openParen) then
    let operand ← expr
    expect (.symbol .closeParen) .closeParenAfterCast
    return operand
  else if ← accept (.symbol .openBracket) then
    let operand ← expr
    expect (.symbol .closeBracket) .closeBracketAfterCast
    return operand
  else
    refuse .openAfterType

/-- A literal, a place, a call, a cast, or an expression in parentheses. -/
def primary (fuel : Nat) (expr : Walk Expr) : Walk Expr := do
  let position ← position
  match ← next? with
  | some (.integer value) =>
    advance
    return .int (← newNode position) value
  | some (.float value) =>
    advance
    return .float (← newNode position) value
  | some (.identifier name) =>
    if (← second?) = some (.symbol .openParen) then
      advance
      advance
      let args ← argumentsWith fuel expr
      return .call (← newNode position) name args
    else
      let place ← placeWith expr
      return .valueOf (← newNode position) place
  | some (.keyword .intWord) =>
    advance
    let operand ← castOperand expr
    return .cast (← newNode position) .int operand
  | some (.keyword .floatWord) =>
    advance
    let operand ← castOperand expr
    return .cast (← newNode position) .float operand
  | some (.symbol .openParen) =>
    advance
    let inner ← expr
    expect (.symbol .closeParen) .closeAfterExpression
    return inner
  | _ => refuse .expression

/-- A primary with any number of signs before it. -/
def factor : Nat → Walk Expr
  | 0 => throw .stuck
  | fuel + 1 => do
    let position ← position
    if ← accept (.symbol .minus) then
      let operand ← factor fuel
      return .signed (← newNode position) .neg operand
    else if ← accept (.symbol .plus) then
      let operand ← factor fuel
      return .signed (← newNode position) .plus operand
    else
      primary fuel (sum fuel (factor fuel))

/-- An expression. -/
def expr (fuel : Nat) : Walk Expr :=
  sum fuel (factor fuel)

/-- A variable, or an element of an array. -/
def place (fuel : Nat) : Walk Place :=
  placeWith (expr fuel)

/-- Join two conditions by a connective, at the position of the first. -/
def connect (op : LogicOp) (left right : Condition) : Walk Condition :=
  return .logic left.position op left right

/-- The operator of a disjunction. -/
def orOp? : Token.Kind → Option LogicOp
  | .keyword .orWord => some .or
  | _ => none

/-- The operator of a conjunction. -/
def andOp? : Token.Kind → Option LogicOp
  | .keyword .andWord => some .and
  | _ => none

/-- A disjunction of conjunctions. -/
def disjunction (fuel : Nat) (literal : Walk Condition) : Walk Condition :=
  chain fuel (chain fuel literal andOp? connect) orOp? connect

/-- Two expressions with a comparison between them. -/
def relation (fuel : Nat) : Walk Condition := do
  let position ← position
  let left ← expr fuel
  match (← next?).bind Reader.relOp? with
  | none => refuse .relationalOperator
  | some op =>
    advance
    let right ← expr fuel
    if ((← next?).bind Reader.relOp?).isSome then
      refuse .endOfCondition
    else
      return .rel position op left right

/-- A condition in parentheses that no operator follows. -/
def group (condition : Walk Condition) : Walk Condition := do
  advance
  let inner ← condition
  expect (.symbol .closeParen) .closeAfterCondition
  if (← next?).any Reader.isOperator then
    refuse .endOfCondition
  else
    return inner

/-- A relation, a negation or a condition in parentheses. -/
def literal : Nat → Walk Condition
  | 0 => throw .stuck
  | fuel + 1 => do
    let position ← position
    if ← accept (.keyword .notWord) then
      return .not position (← literal fuel)
    else if (← next?) = some (.symbol .openParen) then
      match ← speculate (group (disjunction fuel (literal fuel))) with
      | some condition => return condition
      | none => relation (fuel + 1)
    else
      relation (fuel + 1)

/-- A condition. -/
def condition (fuel : Nat) : Walk Condition :=
  disjunction fuel (literal fuel)

/-- Whether the next token ends every statement list. -/
def atListEnd : Walk Bool := do
  match ← next? with
  | none => return true
  | some kind => return kind = .keyword .endWord || kind = .keyword .funWord

/-- One statement of a list, or none if it had to be given up. -/
def listItem (statement : Walk Stmt) : Walk (Option Stmt) := do
  match ← attempt statement with
  | .ok statement =>
    recovered
    return some statement
  | .error error =>
    report error
    unless ← atListEnd do
      advance
    return none

/-- What separates two statements of a list.  The answer tells whether the
list goes on. -/
def separator : Walk Bool := do
  if ← accept (.symbol .semicolon) then
    recovered
    return !(← atListEnd)
  else if ← atListEnd then
    return false
  else
    report (← unexpected .separatorOrEnd)
    return true

/-- A list of statements. -/
def statementList (statement : Walk Stmt) : Nat → Walk (List Stmt)
  | 0 => throw .stuck
  | fuel + 1 => do
    let first ← listItem statement
    if ← separator then
      return first.toList ++ (← statementList statement fuel)
    else
      return first.toList

/-- The statement that starts with an identifier: a call or an assignment. -/
def callOrAssignment (fuel : Nat) (position : Position) (name : String) :
    Walk Stmt := do
  if (← second?) = some (.symbol .openParen) then
    advance
    advance
    return .call position name (← argumentsWith fuel (expr fuel))
  else
    let target ← place fuel
    expect (.symbol .assign) .assignment
    return .assign position target (← expr fuel)

/-- The rest of a `read` statement. -/
def readTarget (fuel : Nat) (position : Position) : Walk Stmt := do
  expect (.symbol .openParen) .openAfterRead
  let target ← place fuel
  expect (.symbol .closeParen) .closeAfterRead
  return .read position target

/-- The rest of a `write` statement. -/
def writeValue (fuel : Nat) (position : Position) : Walk Stmt := do
  expect (.symbol .openParen) .openAfterWrite
  let value ← expr fuel
  expect (.symbol .closeParen) .closeAfterWrite
  return .write position value

/-- The rest of a `print` statement. -/
def printText (position : Position) : Walk Stmt := do
  expect (.symbol .openParen) .openAfterPrint
  match ← next? with
  | some (.string text) =>
    advance
    expect (.symbol .closeParen) .closeAfterString
    return .print position text
  | _ => refuse .string

/-- A statement. -/
def statement : Nat → Walk Stmt
  | 0 => throw .stuck
  | fuel + 1 => do
    let position ← position
    match ← next? with
    | some (.keyword .ifWord) =>
      advance
      let condition ← condition fuel
      expect (.keyword .thenWord) .thenAfterCondition
      let thenBranch ← statement fuel
      if ← accept (.keyword .elseWord) then
        return .ifElse position condition thenBranch (← statement fuel)
      else
        return .ifThen position condition thenBranch
    | some (.keyword .whileWord) =>
      advance
      let condition ← condition fuel
      expect (.keyword .doWord) .doAfterCondition
      return .whileDo position condition (← statement fuel)
    | some (.keyword .beginWord) =>
      advance
      let statements ← statementList (statement fuel) fuel
      expect (.keyword .endWord) .endOfBlock
      return .block position statements
    | some (.keyword .breakWord) =>
      advance
      return .breakLoop position
    | some (.keyword .skipWord) =>
      advance
      return .skip position
    | some (.keyword .returnWord) =>
      advance
      return .returnValue position (← expr fuel)
    | some (.keyword .readWord) =>
      advance
      readTarget fuel position
    | some (.keyword .writeWord) =>
      advance
      writeValue fuel position
    | some (.keyword .printWord) =>
      advance
      printText position
    | some (.identifier name) => callOrAssignment (fuel + 1) position name
    | _ => refuse .statement

/-- The size of an array after its opening bracket. -/
def arraySize (fuel : Nat) : Walk ArraySize := do
  match ← next?, ← second? with
  | some (.integer value), some (.symbol .closeBracket) =>
    if 0 ≤ value then
      advance
      return .fixed value.toUInt64
    else
      return .dynamic (← expr fuel)
  | _, _ => return .dynamic (← expr fuel)

/-- A base type. -/
def baseType : Walk BaseType := do
  match ← next? with
  | some (.keyword .intWord) =>
    advance
    return .int
  | some (.keyword .floatWord) =>
    advance
    return .float
  | _ => refuse .typeName

/-- The type in a declaration. -/
def declaredType (fuel : Nat) : Walk DeclaredType := do
  let base ← baseType
  if ← accept (.symbol .openBracket) then
    let size ← arraySize fuel
    expect (.symbol .closeBracket) .closeAfterSize
    return ⟨base, some size⟩
  else
    return ⟨base, none⟩

/-- A declaration; `expected` says what its name is for. -/
def declaration (fuel : Nat) (expected : Expectation) : Walk Declaration := do
  let (name, position) ← identifier expected
  expect (.symbol .colon) .colonAfterName
  return ⟨name, ← declaredType fuel, position⟩

/-- The parameters of a function, up to the closing parenthesis. -/
def parameters (fuel : Nat) : Walk (List Declaration) := do
  if (← next?) = some (.symbol .closeParen) then
    return []
  else
    commaList (declaration fuel .parameterName) fuel

/-- The local variables of a function, where the fuel for one of them is
`enough`. -/
def localsWith (enough : Nat) : Nat → Walk (List Declaration)
  | 0 => throw .stuck
  | fuel + 1 => do
    match ← next? with
    | some (.identifier _) =>
      let first ← declaration enough .variableName
      if ← accept (.symbol .semicolon) then
        return first :: (← localsWith enough fuel)
      else
        return [first]
    | _ => return []

/-- A function after its `fun`. -/
def functionRest (fuel : Nat) : Walk Function := do
  let (name, position) ← identifier .functionName
  expect (.symbol .openParen) .openAfterFunctionName
  let params ← parameters fuel
  expect (.symbol .closeParen) .closeAfterParameters
  let locals ← localsWith fuel fuel
  expect (.keyword .beginWord) .beginBeforeBody
  let body ← statementList (statement fuel) fuel
  expect (.keyword .endWord) .endAfterBody
  return { name, params, locals, body, position }

/-- A function. -/
def function (fuel : Nat) : Walk Function := do
  expect (.keyword .funWord) .function
  functionRest fuel

/-- The functions of a program. -/
def functions : Nat → Walk (List Function)
  | 0 => throw .stuck
  | fuel + 1 => do
    match ← next? with
    | none => return []
    | some (.keyword .funWord) =>
      recovered
      match ← attempt (function (fuel + 1)) with
      | .ok function => return function :: (← functions fuel)
      | .error error =>
        report error
        unless (← next?) = some (.keyword .funWord) do
          advance
        functions fuel
    | some _ =>
      report (← unexpected .function)
      advance
      functions fuel

/-- Go on to the end of the input. -/
def skipRest : Nat → Walk Unit
  | 0 => throw .stuck
  | fuel + 1 => do
    if (← next?).isSome then
      advance
      skipRest fuel

/-- What comes after the only statement of a program: at most a semicolon. -/
def ending (fuel : Nat) (program : Program) : Walk Program := do
  let _ ← accept (.symbol .semicolon)
  if (← next?).isSome then
    report (← unexpected .endOfInput)
    skipRest fuel
  return program

/-- A program that is a single statement. -/
def statementProgram (fuel : Nat) : Walk Program := do
  match ← attempt (statement fuel) with
  | .ok statement => ending fuel (.statement statement)
  | .error error =>
    report error
    advance
    ending fuel (.functions [])

/-- A program. -/
def program (fuel : Nat) : Walk Program := do
  match ← next? with
  | none =>
    report (← unexpected .functionOrStatement)
    return .functions []
  | some (.keyword .funWord) => return .functions (← functions fuel)
  | some _ => statementProgram fuel

end Walk

end PL0
