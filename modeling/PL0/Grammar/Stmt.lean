import PL0.Grammar.Condition
import PL0.Grammar.Recovery

/-!
# Reading statements

The statements of a list are separated by semicolons, one of which may also
stand at the end.  A statement that cannot be read is reported and left out,
and the list goes on after the token that did not fit.
-/

namespace PL0.Attempt

/-- Whether the next token ends every statement list: `end`, the start of
another function, or the end of the input. -/
def atListEnd : Recoverer Bool := do
  match ← Recoverer.next? with
  | none => return true
  | some kind => return kind = .keyword .endWord || kind = .keyword .funWord

/-- One statement of a list, or none if it had to be given up. -/
def listItem (statement : Attempt Stmt) : Recoverer (Option Stmt) := do
  match ← Recoverer.attempt statement with
  | .ok statement =>
    Recoverer.recovered
    return some statement
  | .error expected =>
    Recoverer.report expected
    unless ← atListEnd do
      Recoverer.advance
    return none

/-- What separates two statements of a list.  The answer tells whether the
list goes on. -/
def separator : Recoverer Bool := do
  if ← Recoverer.accept (.symbol .semicolon) then
    Recoverer.recovered
    return !(← atListEnd)
  else if ← atListEnd then
    return false
  else
    Recoverer.report .separatorOrEnd
    return true

/-- A list of statements, of at most `limit` attempts.  Every attempt but the
last takes a token. -/
def statementList (statement : Attempt Stmt) : Nat → Recoverer (List Stmt)
  | 0 => pure []
  | limit + 1 => do
    let first ← listItem statement
    if ← separator then
      return first.toList ++ (← statementList statement limit)
    else
      return first.toList

/-- The statement that starts with an identifier: a call or an assignment. -/
def callOrAssignment (position : Position) (name : String) : Reader Stmt := do
  if (← Reader.second?) = some (.symbol .openParen) then
    Reader.advance
    Reader.advance
    return .call position name (← Reader.arguments)
  else
    let target ← Reader.place
    Reader.expect (.symbol .assign) .assignment
    return .assign position target (← Reader.expr)

/-- The rest of a `read` statement. -/
def readTarget (position : Position) : Reader Stmt := do
  Reader.expect (.symbol .openParen) .openAfterRead
  let target ← Reader.place
  Reader.expect (.symbol .closeParen) .closeAfterRead
  return .read position target

/-- The rest of a `write` statement. -/
def writeValue (position : Position) : Reader Stmt := do
  Reader.expect (.symbol .openParen) .openAfterWrite
  let value ← Reader.expr
  Reader.expect (.symbol .closeParen) .closeAfterWrite
  return .write position value

/-- The rest of a `print` statement. -/
def printText (position : Position) : Reader Stmt := do
  Reader.expect (.symbol .openParen) .openAfterPrint
  match ← Reader.next? with
  | some (.string text) =>
    Reader.advance
    Reader.expect (.symbol .closeParen) .closeAfterString
    return .print position text
  | _ => throw .string

/-- A statement, where at most `limit` tokens are left. -/
def statementWithin : Nat → Attempt Stmt
  | 0 => throw .statement
  | limit + 1 => do
    let position ← Reader.position
    match ← Reader.next? with
    | some (.keyword .ifWord) =>
      Reader.advance
      let condition ← Reader.condition
      Reader.expect (.keyword .thenWord) .thenAfterCondition
      let thenBranch ← statementWithin limit
      if ← Reader.accept (.keyword .elseWord) then
        return .ifElse position condition thenBranch (← statementWithin limit)
      else
        return .ifThen position condition thenBranch
    | some (.keyword .whileWord) =>
      Reader.advance
      let condition ← Reader.condition
      Reader.expect (.keyword .doWord) .doAfterCondition
      return .whileDo position condition (← statementWithin limit)
    | some (.keyword .beginWord) =>
      Reader.advance
      let statements ← statementList (statementWithin limit) (limit + 1)
      Reader.expect (.keyword .endWord) .endOfBlock
      return .block position statements
    | some (.keyword .breakWord) =>
      Reader.advance
      return .breakLoop position
    | some (.keyword .skipWord) =>
      Reader.advance
      return .skip position
    | some (.keyword .returnWord) =>
      Reader.advance
      return .returnValue position (← Reader.expr)
    | some (.keyword .readWord) =>
      Reader.advance
      readTarget position
    | some (.keyword .writeWord) =>
      Reader.advance
      writeValue position
    | some (.keyword .printWord) =>
      Reader.advance
      printText position
    | some (.identifier name) => callOrAssignment position name
    | _ => throw .statement

/-- A statement. -/
def statement : Attempt Stmt := do
  statementWithin (← Reader.remaining)

/-- A list of statements. -/
def statements : Recoverer (List Stmt) := do
  statementList statement ((← Recoverer.remaining) + 1)

end PL0.Attempt
