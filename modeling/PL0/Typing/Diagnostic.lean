import PL0.Scope.ValueType

/-!
# Faults in the meaning of a program
-/

namespace PL0

/-- What kind of name is missing or given twice. -/
inductive NameKind where
  | function
  | parameter
  | var
deriving DecidableEq, Inhabited

/-- How a kind of name is written in messages. -/
def NameKind.text : NameKind → String
  | .function => "function"
  | .parameter => "parameter"
  | .var => "variable"

/-- How a name is used that does not allow it. -/
inductive Misuse where
  | indexedScalar
  | unindexedArray
  | functionAsValue
deriving DecidableEq, Inhabited

/-- The wording of a misuse. -/
def Misuse.text : Misuse → String
  | .indexedScalar => "scalar cannot be indexed"
  | .unindexedArray => "array used without an index"
  | .functionAsValue => "function used as a value"

/-- Where two types should agree. -/
inductive TypeContext where
  | assignment
  | returnValue
  | arithmetic (op : ArithOp)
  | comparison (op : RelOp)
  | sizeOf (array : String)
  | indexOf (array : String)
  /-- The arguments of a call are counted from one. -/
  | argument (number : Nat) (callee : String)
deriving DecidableEq

/-- The wording of a context. -/
def TypeContext.text : TypeContext → String
  | .assignment => "assignment"
  | .returnValue => "return value"
  | .arithmetic op => "operands of '" ++ op.text ++ "'"
  | .comparison op => "operands of '" ++ op.text ++ "'"
  | .sizeOf array => "size of array '" ++ array ++ "'"
  | .indexOf array => "index of '" ++ array ++ "'"
  | .argument number callee =>
    "argument " ++ toString number ++ " of '" ++ callee ++ "'"

/-- What is wrong with a program that keeps to the grammar. -/
inductive SemanticFault where
  | duplicate (kind : NameKind) (name : String) (previous : Position)
  | undefined (kind : NameKind) (name : String)
  | arity (callee : String) (expected got : Nat)
  | typeMismatch (context : TypeContext) (expected found : ValueType)
  | breakOutsideLoop
  | misuse (name : String) (usage : Misuse)
  | missingMain
deriving DecidableEq

/-- The wording of a fault, without its line. -/
def SemanticFault.text : SemanticFault → String
  | .duplicate kind name previous =>
    "duplicate " ++ kind.text ++ " '" ++ name ++ "' (first declared on line " ++
      toString previous.line ++ ")"
  | .undefined kind name => "undefined " ++ kind.text ++ " '" ++ name ++ "'"
  | .arity callee expected got =>
    "function '" ++ callee ++ "' expects " ++ toString expected ++
      " argument(s), got " ++ toString got
  | .typeMismatch context expected found =>
    "type mismatch in " ++ context.text ++ ": expected " ++ expected.text ++
      ", found " ++ found.text
  | .breakOutsideLoop => "'break' outside of a loop"
  | .misuse name usage => "invalid use of '" ++ name ++ "': " ++ usage.text
  | .missingMain => "program has no 'main' function"

/-- A fault and where it is. -/
structure SemanticError where
  fault : SemanticFault
  position : Position
deriving DecidableEq

/-- The message for a fault. -/
def SemanticError.message (error : SemanticError) : String :=
  "line " ++ toString error.position.line ++ ": " ++ error.fault.text

end PL0
