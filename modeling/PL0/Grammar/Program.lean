import PL0.Grammar.Stmt

/-!
# Reading programs

A program whose first token is `fun` is a list of functions; any other is a
single statement.  Reading always returns a program, together with the errors
on the way.  Each `fun` starts afresh: the functions after a broken one are
read as if nothing had happened.
-/

namespace PL0

namespace Reader

/-- The size of an array after its opening bracket.  Only a single number is
fixed. -/
def arraySize : Reader ArraySize := do
  match ← next?, ← second? with
  | some (.integer value), some (.symbol .closeBracket) =>
    if 0 ≤ value then
      advance
      return .fixed value.toUInt64
    else
      return .dynamic (← expr)
  | _, _ => return .dynamic (← expr)

/-- A base type. -/
def baseType : Reader BaseType := do
  match ← next? with
  | some (.keyword .intWord) =>
    advance
    return .int
  | some (.keyword .floatWord) =>
    advance
    return .float
  | _ => throw .typeName

/-- The type in a declaration. -/
def declaredType : Reader DeclaredType := do
  let base ← baseType
  if ← accept (.symbol .openBracket) then
    let size ← arraySize
    expect (.symbol .closeBracket) .closeAfterSize
    return ⟨base, some size⟩
  else
    return ⟨base, none⟩

/-- A declaration; `expected` says what its name is for. -/
def declaration (expected : Expectation) : Reader Declaration := do
  let (name, position) ← identifier expected
  expect (.symbol .colon) .colonAfterName
  return ⟨name, ← declaredType, position⟩

/-- The parameters of a function, up to the closing parenthesis. -/
def parameters : Reader (List Declaration) := do
  if (← next?) = some (.symbol .closeParen) then
    return []
  else
    commaList (declaration .parameterName) (← remaining)

/-- The local variables of a function, each with a semicolon after it that may
be left out at the end; at most `limit` of them. -/
def localsWithin : Nat → Reader (List Declaration)
  | 0 => pure []
  | limit + 1 => do
    match ← next? with
    | some (.identifier _) =>
      let first ← declaration .variableName
      if ← accept (.symbol .semicolon) then
        return first :: (← localsWithin limit)
      else
        return [first]
    | _ => return []

/-- The local variables of a function. -/
def locals : Reader (List Declaration) := do
  localsWithin (← remaining)

end Reader

namespace Attempt

/-- A function. -/
def function : Attempt Function := do
  Reader.expect (.keyword .funWord) .function
  let (name, position) ← Reader.identifier .functionName
  Reader.expect (.symbol .openParen) .openAfterFunctionName
  let params ← Reader.parameters
  Reader.expect (.symbol .closeParen) .closeAfterParameters
  let locals ← Reader.locals
  Reader.expect (.keyword .beginWord) .beginBeforeBody
  let body ← statements
  Reader.expect (.keyword .endWord) .endAfterBody
  return { name, params, locals, body, position }

end Attempt

namespace Recoverer

/-- The functions of a program, where at most `limit` tokens are left. -/
def functionsWithin : Nat → Recoverer (List Function)
  | 0 => pure []
  | limit + 1 => do
    match ← next? with
    | none => return []
    | some (.keyword .funWord) =>
      recovered
      match ← attempt Attempt.function with
      | .ok function => return function :: (← functionsWithin limit)
      | .error expected =>
        report expected
        unless (← next?) = some (.keyword .funWord) do
          advance
        functionsWithin limit
    | some _ =>
      report .function
      advance
      functionsWithin limit

/-- A program that is a single statement, with an optional semicolon after
it. -/
def statementProgram : Recoverer Program := do
  let result ← attempt Attempt.statement
  if let .error expected := result then
    report expected
    advance
  discard <| accept (.symbol .semicolon)
  if (← next?).isSome then
    report .endOfInput
    modify fun state =>
      { state with cursor := { state.cursor with tokens := [] } }
  match result with
  | .ok statement => return .statement statement
  | .error _ => return .functions []

/-- A program. -/
def program : Recoverer Program := do
  match ← next? with
  | none =>
    report .functionOrStatement
    return .functions []
  | some (.keyword .funWord) =>
    return .functions (← functionsWithin (← remaining))
  | some _ => statementProgram

end Recoverer

/-- A program as far as it could be read, and the errors that were found. -/
structure Reading where
  program : Program
  errors : List SyntaxError

/-- Read a program from its tokens. -/
def readProgram (tokens : List Token) : Reading :=
  let (program, state) := Recoverer.program ⟨Cursor.ofTokens tokens, [], false⟩
  ⟨program, state.errors⟩

end PL0
