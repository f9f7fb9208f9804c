import PL0.Proofs.Tree.Occurrences

/-!
# What a tree mentions

A tree uses names as places and as callees, and leaves loops.  Each such use
is listed once, in the order of the text: a place before its index, a call
before its arguments, the parts of everything else from left to right.  Of a
`break` the list tells whether a loop is around it.
-/

namespace PL0

/-- The use of a name, or a `break`. -/
inductive Mention where
  | place (position : Position) (name : String)
  | call (position : Position) (callee : String) (count : Nat)
  | breakLoop (position : Position) (inLoop : Bool)
deriving DecidableEq

/-- Where something is mentioned. -/
def Mention.position : Mention → Position
  | .place position _ => position
  | .call position _ _ => position
  | .breakLoop position _ => position

mutual

/-- What a place mentions. -/
def Place.mentions : Place → List Mention
  | .var node name => [.place node.position name]
  | .element node name index => .place node.position name :: index.mentions

/-- What an expression mentions. -/
def Expr.mentions : Expr → List Mention
  | .int .. => []
  | .float .. => []
  | .valueOf _ place => place.mentions
  | .binary _ _ left right => left.mentions ++ right.mentions
  | .signed _ _ operand => operand.mentions
  | .call node callee args =>
    .call node.position callee args.length :: Expr.allMentions args
  | .cast _ _ operand => operand.mentions

/-- What expressions mention in order. -/
def Expr.allMentions : List Expr → List Mention
  | [] => []
  | first :: others => first.mentions ++ Expr.allMentions others

end

/-- What a condition mentions. -/
def Condition.mentions : Condition → List Mention
  | .rel _ _ left right => left.mentions ++ right.mentions
  | .logic _ _ left right => left.mentions ++ right.mentions
  | .not _ operand => operand.mentions

mutual

/-- What a statement mentions, inside a loop or outside. -/
def Stmt.mentions (inLoop : Bool) : Stmt → List Mention
  | .assign _ target value => target.mentions ++ value.mentions
  | .ifThen _ test thenBranch => test.mentions ++ thenBranch.mentions inLoop
  | .ifElse _ test thenBranch elseBranch =>
    test.mentions ++ thenBranch.mentions inLoop ++ elseBranch.mentions inLoop
  | .whileDo _ test body => test.mentions ++ body.mentions true
  | .block _ statements => Stmt.allMentions inLoop statements
  | .breakLoop position => [.breakLoop position inLoop]
  | .skip _ => []
  | .returnValue _ value => value.mentions
  | .read _ target => target.mentions
  | .write _ value => value.mentions
  | .print .. => []
  | .call position callee args =>
    .call position callee args.length :: Expr.allMentions args

/-- What statements mention in order. -/
def Stmt.allMentions (inLoop : Bool) : List Stmt → List Mention
  | [] => []
  | first :: others => first.mentions inLoop ++ Stmt.allMentions inLoop others

end

/-- What the size of a declaration mentions. -/
def Declaration.mentions (declaration : Declaration) : List Mention :=
  match declaration.type.size? with
  | some (.dynamic count) => count.mentions
  | _ => []

end PL0
