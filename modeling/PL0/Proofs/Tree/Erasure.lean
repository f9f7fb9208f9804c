import PL0.Tree.Basic

/-!
# Trees without numbers and positions

What is left of a tree when nothing is said of where its parts stand and how
they are numbered.
-/

namespace PL0

mutual

/-- A place without numbers and positions. -/
def Place.erase : Place → Place
  | .var _ name => .var default name
  | .element _ name index => .element default name index.erase

/-- An expression without numbers and positions. -/
def Expr.erase : Expr → Expr
  | .int _ value => .int default value
  | .float _ value => .float default value
  | .valueOf _ place => .valueOf default place.erase
  | .binary _ op left right => .binary default op left.erase right.erase
  | .signed _ op operand => .signed default op operand.erase
  | .call _ callee args => .call default callee (args.map Expr.erase)
  | .cast _ target operand => .cast default target operand.erase

end

/-- A condition without numbers and positions. -/
def Condition.erase : Condition → Condition
  | .rel _ op left right => .rel default op left.erase right.erase
  | .logic _ op left right => .logic default op left.erase right.erase
  | .not _ operand => .not default operand.erase

/-- A statement without numbers and positions. -/
def Stmt.erase : Stmt → Stmt
  | .assign _ target value => .assign default target.erase value.erase
  | .ifThen _ test thenBranch => .ifThen default test.erase thenBranch.erase
  | .ifElse _ test thenBranch elseBranch =>
    .ifElse default test.erase thenBranch.erase elseBranch.erase
  | .whileDo _ test body => .whileDo default test.erase body.erase
  | .block _ statements => .block default (statements.map Stmt.erase)
  | .breakLoop _ => .breakLoop default
  | .skip _ => .skip default
  | .returnValue _ value => .returnValue default value.erase
  | .read _ target => .read default target.erase
  | .write _ value => .write default value.erase
  | .print _ text => .print default text
  | .call _ callee args => .call default callee (args.map Expr.erase)

/-- The size of an array without numbers and positions. -/
def ArraySize.erase : ArraySize → ArraySize
  | .fixed count => .fixed count
  | .dynamic count => .dynamic count.erase

/-- The type in a declaration without numbers and positions. -/
def DeclaredType.erase (type : DeclaredType) : DeclaredType :=
  ⟨type.base, type.size?.map ArraySize.erase⟩

/-- A declaration without numbers and positions. -/
def Declaration.erase (declaration : Declaration) : Declaration :=
  ⟨declaration.name, declaration.type.erase, default⟩

/-- A function without numbers and positions. -/
def Function.erase (function : Function) : Function :=
  ⟨function.name, function.params.map Declaration.erase,
    function.locals.map Declaration.erase, function.body.map Stmt.erase,
    default⟩

/-- A program without numbers and positions. -/
def Program.erase : Program → Program
  | .functions all => .functions (all.map Function.erase)
  | .statement body => .statement body.erase

end PL0
