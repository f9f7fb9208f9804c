import PL0.Grammar.Cursor

/-!
# Reading expressions

An expression is a sum of products of factors; a factor has any number of
signs before a primary.  Sums and products group from the left.  Every bound
in this file counts tokens: a part nested in another has fewer tokens left to
it.
-/

namespace PL0.Reader

/-- Join two operands by an operator, at the position of the first. -/
def joinBy (op : ArithOp) (left right : Expr) : Reader Expr := do
  return .binary (← newNode left.node.position) op left right

/-- The operators of a sum. -/
def sumJoin? : Token.Kind → Option (Expr → Expr → Reader Expr)
  | .symbol .plus => some (joinBy .add)
  | .symbol .minus => some (joinBy .sub)
  | _ => none

/-- The operators of a product. -/
def productJoin? : Token.Kind → Option (Expr → Expr → Reader Expr)
  | .symbol .times => some (joinBy .mul)
  | .symbol .divide => some (joinBy .div)
  | _ => none

/-- A sum of products of factors. -/
def sum (limit : Nat) (factor : Reader Expr) : Reader Expr :=
  chain limit (chain limit factor productJoin?) sumJoin?

/-- A variable, or an element of an array with its index. -/
def placeWith (expr : Reader Expr) : Reader Place := do
  let (name, position) ← identifier .variableName
  if ← accept (.symbol .openBracket) then
    let index ← expr
    expect (.symbol .closeBracket) .closeAfterIndex
    return .element (← newNode position) name index
  else
    return .var (← newNode position) name

/-- The arguments of a call after its opening parenthesis. -/
def argumentsWith (limit : Nat) (expr : Reader Expr) : Reader (List Expr) := do
  if ← accept (.symbol .closeParen) then
    return []
  else
    let args ← commaList expr limit
    expect (.symbol .closeParen) .closeAfterArguments
    return args

/-- The operand of a cast, in parentheses or in brackets. -/
def castOperand (expr : Reader Expr) : Reader Expr := do
  if ← accept (.symbol .openParen) then
    let operand ← expr
    expect (.symbol .closeParen) .closeParenAfterCast
    return operand
  else if ← accept (.symbol .openBracket) then
    let operand ← expr
    expect (.symbol .closeBracket) .closeBracketAfterCast
    return operand
  else
    throw .openAfterType

/-- An expression without operators around it: a literal, a place, a call, a
cast, or an expression in parentheses, which is no node of its own. -/
def primary (limit : Nat) (expr : Reader Expr) : Reader Expr := do
  let position ← position
  match ← next? with
  | some (.integer value) =>
    advance
    return .int (← newNode position) value
  | some (.float value) =>
    advance
    return .float (← newNode position) value
  | some (.identifier name) =>
    if (← second?) = some (.symbol .openParen) then
      advance
      advance
      let args ← argumentsWith limit expr
      return .call (← newNode position) name args
    else
      let place ← placeWith expr
      return .valueOf (← newNode position) place
  | some (.keyword .intWord) =>
    advance
    let operand ← castOperand expr
    return .cast (← newNode position) .int operand
  | some (.keyword .floatWord) =>
    advance
    let operand ← castOperand expr
    return .cast (← newNode position) .float operand
  | some (.symbol .openParen) =>
    advance
    let inner ← expr
    expect (.symbol .closeParen) .closeAfterExpression
    return inner
  | _ => throw .expression

/-- A primary with any number of signs before it, where at most `limit` tokens
are left. -/
def factor : Nat → Reader Expr
  | 0 => throw .expression
  | limit + 1 => do
    let position ← position
    if ← accept (.symbol .minus) then
      let operand ← factor limit
      return .signed (← newNode position) .neg operand
    else if ← accept (.symbol .plus) then
      let operand ← factor limit
      return .signed (← newNode position) .plus operand
    else
      primary limit (sum limit (factor limit))

/-- An expression. -/
def expr : Reader Expr := do
  let limit ← remaining
  sum limit (factor limit)

/-- A variable, or an element of an array. -/
def place : Reader Place :=
  placeWith expr

/-- The arguments of a call after its opening parenthesis. -/
def arguments : Reader (List Expr) := do
  argumentsWith (← remaining) expr

end PL0.Reader
