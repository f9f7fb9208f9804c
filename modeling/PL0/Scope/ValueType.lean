import PL0.Tree.Basic

/-!
# Types of values
-/

namespace PL0

/-- The type of a value or of a variable. -/
inductive ValueType where
  | scalar (base : BaseType)
  | array (base : BaseType)
deriving DecidableEq, Inhabited

namespace ValueType

/-- The type of integers, which is also that of every call. -/
def int : ValueType := .scalar .int

/-- The type of floating-point numbers. -/
def float : ValueType := .scalar .float

/-- The type of the value itself, or of the elements of an array. -/
def base : ValueType → BaseType
  | .scalar base => base
  | .array base => base

/-- Whether this is a type of arrays. -/
def isArray : ValueType → Bool
  | .scalar _ => false
  | .array _ => true

/-- How a type is written in messages and listings. -/
def text : ValueType → String
  | .scalar base => base.text
  | .array base => base.text ++ "[]"

end ValueType

/-- The type that a declaration gives its name. -/
def DeclaredType.valueType (type : DeclaredType) : ValueType :=
  match type.size? with
  | none => .scalar type.base
  | some _ => .array type.base

end PL0
