import PL0.Proofs.Meaning.Interpretation
import PL0.Proofs.Tree.Occurrences

/-!
# What programs mean

Expressions and arguments are evaluated from left to right, the index of a
place before the value that is put there, and both sides of a connective
always.  Statements run to an ending: they are done, leave a loop, return a
value or fail.  Which of the two forms of an operation is meant is told by a
typing, which gives every occurrence a base type.
-/

namespace PL0

/-- The base type of the values of each place and expression. -/
abbrev Typing := Occurrence → BaseType

variable {I : Interpretation}

mutual

/-- The value of an expression.  A cast to the type that the operand already
has does nothing. -/
def Expr.eval (typing : Typing) : Expr → Action I I.Value
  | .int _ value => pure (I.int value)
  | .float _ value => pure (I.float value)
  | .valueOf _ (.var _ name) => Action.getVar name
  | .valueOf node (.element placeNode name index) => do
    let position ← index.eval typing
    Action.load (typing (.expr (.valueOf node (.element placeNode name index))))
      name position
  | .binary node op left right => do
    let leftValue ← left.eval typing
    let rightValue ← right.eval typing
    Action.ofOption
      (I.arith op (typing (.expr (.binary node op left right))) leftValue
        rightValue)
  | .signed _ .plus operand => operand.eval typing
  | .signed node .neg operand => do
    let value ← operand.eval typing
    Action.ofOption
      (I.negate (typing (.expr (.signed node .neg operand))) value)
  | .call _ callee args => do
    let values ← Expr.evalAll typing args
    Action.onWorld (I.call callee values)
  | .cast _ target operand => do
    let value ← operand.eval typing
    if typing (.expr operand) = target then return value
    else Action.ofOption (I.convert target value)

/-- The values of expressions in order. -/
def Expr.evalAll (typing : Typing) : List Expr → Action I (List I.Value)
  | [] => pure []
  | first :: others => do
    let value ← first.eval typing
    return value :: (← Expr.evalAll typing others)

end

/-- Apply a connective. -/
def LogicOp.apply : LogicOp → Bool → Bool → Bool
  | .and, left, right => left && right
  | .or, left, right => left || right

/-- The truth of a condition. -/
def Condition.eval (typing : Typing) : Condition → Action I Bool
  | .rel _ op left right => do
    let leftValue ← left.eval typing
    let rightValue ← right.eval typing
    Action.ofOption (I.compare op (typing (.expr left)) leftValue rightValue)
  | .logic _ op left right => do
    let leftTruth ← left.eval typing
    let rightTruth ← right.eval typing
    return op.apply leftTruth rightTruth
  | .not _ operand => do
    return !(← operand.eval typing)

/-- The slot that a place is. -/
def Place.locate (typing : Typing) : Place → Action I (Slot I)
  | .var _ name => pure (.var name)
  | .element _ name index => do
    return .element name (← index.eval typing)

/-- How a statement ends. -/
inductive Ending (Value : Type) where
  | normal
  /-- The innermost loop is left. -/
  | broke
  | returned (value : Value)
  | failed

/-- The ending ends the whole function. -/
inductive Ending.IsFinal {Value : Type} : Ending Value → Prop where
  | returned (value : Value) : Ending.IsFinal (.returned value)
  | failed : Ending.IsFinal .failed

/-- What a statement does that has no statements inside. -/
def Stmt.simple? (typing : Typing) : Stmt → Option (Action I (Ending I.Value))
  | .assign _ target value => some do
    let slot ← target.locate typing
    let source ← value.eval typing
    slot.move (typing (.place target)) source
    return .normal
  | .breakLoop _ => some (pure .broke)
  | .skip _ => some (pure .normal)
  | .returnValue _ value => some do
    return .returned (← value.eval typing)
  | .read _ target => some do
    let slot ← target.locate typing
    slot.read
    return .normal
  | .write _ value => some do
    Action.onWorld (I.write (← value.eval typing))
    return .normal
  | .print _ text => some do
    Action.onWorld (I.print text)
    return .normal
  | .call _ callee args => some do
    Action.callOnly callee (← Expr.evalAll typing args)
    return .normal
  | _ => none

mutual

/-- A statement, run from a state, ends in some way and in some state. -/
inductive Stmt.Exec (typing : Typing) :
    Stmt → State I → Ending I.Value → State I → Prop where
  | simple {s : Stmt} {action : Action I (Ending I.Value)}
      {start final : State I} {result : Option (Ending I.Value)}
      (isSimple : s.simple? typing = some action)
        (ran : action start = (result, final)) :
      Stmt.Exec typing s start (result.getD .failed) final
  | ifThenFailed {position : Position} {test : Condition} {thenBranch : Stmt}
      {start final : State I}
      (tested : test.eval typing start = (none, final)) :
      Stmt.Exec typing (.ifThen position test thenBranch) start .failed final
  | ifThenTrue {position : Position} {test : Condition} {thenBranch : Stmt}
      {start between final : State I} {ending : Ending I.Value}
      (tested : test.eval typing start = (some true, between))
      (ran : Stmt.Exec typing thenBranch between ending final) :
      Stmt.Exec typing (.ifThen position test thenBranch) start ending final
  | ifThenFalse {position : Position} {test : Condition} {thenBranch : Stmt}
      {start final : State I}
      (tested : test.eval typing start = (some false, final)) :
      Stmt.Exec typing (.ifThen position test thenBranch) start .normal final
  | ifElseFailed {position : Position} {test : Condition}
      {thenBranch elseBranch : Stmt} {start final : State I}
      (tested : test.eval typing start = (none, final)) :
      Stmt.Exec typing (.ifElse position test thenBranch elseBranch) start
        .failed final
  | ifElseTrue {position : Position} {test : Condition}
      {thenBranch elseBranch : Stmt}
      {start between final : State I} {ending : Ending I.Value}
      (tested : test.eval typing start = (some true, between))
      (ran : Stmt.Exec typing thenBranch between ending final) :
      Stmt.Exec typing (.ifElse position test thenBranch elseBranch) start
        ending final
  | ifElseFalse {position : Position} {test : Condition}
      {thenBranch elseBranch : Stmt}
      {start between final : State I} {ending : Ending I.Value}
      (tested : test.eval typing start = (some false, between))
      (ran : Stmt.Exec typing elseBranch between ending final) :
      Stmt.Exec typing (.ifElse position test thenBranch elseBranch) start
        ending final
  | whileFailed {position : Position} {test : Condition} {body : Stmt}
      {start final : State I}
      (tested : test.eval typing start = (none, final)) :
      Stmt.Exec typing (.whileDo position test body) start .failed final
  | whileFalse {position : Position} {test : Condition} {body : Stmt}
      {start final : State I}
      (tested : test.eval typing start = (some false, final)) :
      Stmt.Exec typing (.whileDo position test body) start .normal final
  | whileAgain {position : Position} {test : Condition} {body : Stmt}
      {start between next final : State I} {ending : Ending I.Value}
      (tested : test.eval typing start = (some true, between))
      (ran : Stmt.Exec typing body between .normal next)
      (again : Stmt.Exec typing (.whileDo position test body) next ending
        final) :
      Stmt.Exec typing (.whileDo position test body) start ending final
  | whileBroke {position : Position} {test : Condition} {body : Stmt}
      {start between final : State I}
      (tested : test.eval typing start = (some true, between))
      (ran : Stmt.Exec typing body between .broke final) :
      Stmt.Exec typing (.whileDo position test body) start .normal final
  | whileFinal {position : Position} {test : Condition} {body : Stmt}
      {start between final : State I} {ending : Ending I.Value}
      (tested : test.eval typing start = (some true, between))
      (ran : Stmt.Exec typing body between ending final)
        (isFinal : ending.IsFinal) :
      Stmt.Exec typing (.whileDo position test body) start ending final
  | block {position : Position} {statements : List Stmt} {start final : State I}
      {ending : Ending I.Value}
      (ran : Stmt.ExecAll typing statements start ending final) :
      Stmt.Exec typing (.block position statements) start ending final

/-- Statements in order.  One that does not end normally is the last to run. -/
inductive Stmt.ExecAll (typing : Typing) :
    List Stmt → State I → Ending I.Value → State I → Prop where
  | nil {state : State I} : Stmt.ExecAll typing [] state .normal state
  | next {first : Stmt} {others : List Stmt} {start between final : State I}
      {ending : Ending I.Value}
      (ran : Stmt.Exec typing first start .normal between)
      (rest : Stmt.ExecAll typing others between ending final) :
      Stmt.ExecAll typing (first :: others) start ending final
  | last {first : Stmt} {others : List Stmt} {start final : State I}
      {ending : Ending I.Value}
      (ran : Stmt.Exec typing first start ending final)
        (notNormal : ending ≠ .normal) :
      Stmt.ExecAll typing (first :: others) start ending final

end

/-- The size of an array. -/
def ArraySize.eval (typing : Typing) : ArraySize → Action I I.Value
  | .fixed count => pure (I.int count.toInt64)
  | .dynamic count => count.eval typing

/-- Make room for the arrays among local variables. -/
def Declaration.allocAll (typing : Typing) : List Declaration → Action I Unit
  | [] => pure ()
  | first :: others =>
    match first.type.size? with
    | none => Declaration.allocAll typing others
    | some size => do
      Action.alloc first.type.base first.name (← size.eval typing)
      Declaration.allocAll typing others

/-- How a function ends. -/
inductive Outcome (Value : Type) where
  /-- The end of the body was reached. -/
  | finished
  | returned (value : Value)
  | failed

/-- What the ending of its body makes of a function.  A body cannot leave a
loop. -/
def Ending.outcome? {Value : Type} : Ending Value → Option (Outcome Value)
  | .normal => some .finished
  | .broke => none
  | .returned value => some (.returned value)
  | .failed => some .failed

/-- A function, run from a state in which its parameters have their values,
ends in some way and in some state. -/
inductive Function.Runs (typing : Typing) (function : Function) :
    State I → Outcome I.Value → State I → Prop where
  | noRoom {start final : State I}
      (allocated : Declaration.allocAll typing function.locals start =
        (none, final)) :
      Function.Runs typing function start .failed final
  | body {start between final : State I} {ending : Ending I.Value}
      {outcome : Outcome I.Value}
      (allocated : Declaration.allocAll typing function.locals start =
        (some (), between))
      (ran : Stmt.ExecAll typing function.body between ending final)
      (ends : ending.outcome? = some outcome) :
      Function.Runs typing function start outcome final

end PL0
