import PL0.Grammar.Expr

/-!
# Reading conditions

A condition is a disjunction of conjunctions of relations, negations and
conditions in parentheses.  An opening parenthesis can start a condition or
the left side of a relation; it is first tried as a condition, and the trial
counts only if neither an arithmetic nor a relational operator follows it.
-/

namespace PL0.Reader

/-- The comparison that a token stands for. -/
def relOp? : Token.Kind → Option RelOp
  | .symbol .less => some .lt
  | .symbol .lessEqual => some .le
  | .symbol .greater => some .gt
  | .symbol .greaterEqual => some .ge
  | .symbol .equal => some .eq
  | .symbol .notEqual => some .ne
  | .symbol .lessGreater => some .ne
  | _ => none

/-- Whether a token is an operator that continues an expression or a
relation. -/
def isOperator (kind : Token.Kind) : Bool :=
  (sumJoin? kind).isSome || (productJoin? kind).isSome || (relOp? kind).isSome

/-- Join two conditions by a connective, at the position of the first. -/
def connect (op : LogicOp) (left right : Condition) : Reader Condition :=
  return .logic left.position op left right

/-- The operator of a disjunction. -/
def orJoin? : Token.Kind → Option (Condition → Condition → Reader Condition)
  | .keyword .orWord => some (connect .or)
  | _ => none

/-- The operator of a conjunction. -/
def andJoin? : Token.Kind → Option (Condition → Condition → Reader Condition)
  | .keyword .andWord => some (connect .and)
  | _ => none

/-- A disjunction of conjunctions. -/
def disjunction (limit : Nat) (literal : Reader Condition) : Reader Condition :=
  chain limit (chain limit literal andJoin?) orJoin?

/-- Two expressions with a comparison between them; a second comparison may not
follow. -/
def relation : Reader Condition := do
  let position ← position
  let left ← expr
  match (← next?).bind relOp? with
  | none => throw .relationalOperator
  | some op =>
    advance
    let right ← expr
    if ((← next?).bind relOp?).isSome then
      throw .endOfCondition
    else
      return .rel position op left right

/-- A condition in parentheses that no operator follows. -/
def group (condition : Reader Condition) : Reader Condition := do
  advance
  let inner ← condition
  expect (.symbol .closeParen) .closeAfterCondition
  if (← next?).any isOperator then
    throw .endOfCondition
  else
    return inner

/-- A relation, a negation or a condition in parentheses, where at most
`limit` tokens are left. -/
def literal : Nat → Reader Condition
  | 0 => throw .expression
  | limit + 1 => do
    let position ← position
    if ← accept (.keyword .notWord) then
      return .not position (← literal limit)
    else if (← next?) = some (.symbol .openParen) then
      match ← speculate (group (disjunction limit (literal limit))) with
      | some condition => return condition
      | none => relation
    else
      relation

/-- A condition. -/
def condition : Reader Condition := do
  let limit ← remaining
  disjunction limit (literal limit)

end PL0.Reader
