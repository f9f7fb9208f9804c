import PL0.Token.Basic

/-!
# Syntax errors

A syntax error says what was found, where, and what the grammar expected there.
-/

namespace PL0

/-- What the grammar asks for at a point of a program. -/
inductive Expectation where
  | functionOrStatement
  | function
  | endOfInput
  | functionName
  | openAfterFunctionName
  | closeAfterParameters
  | beginBeforeBody
  | endAfterBody
  | parameterName
  | variableName
  | colonAfterName
  | typeName
  | closeAfterSize
  | statement
  | separatorOrEnd
  | endOfBlock
  | thenAfterCondition
  | doAfterCondition
  | openAfterRead
  | closeAfterRead
  | openAfterWrite
  | closeAfterWrite
  | openAfterPrint
  | string
  | closeAfterString
  | assignment
  | relationalOperator
  | closeAfterCondition
  /-- A condition is complete, and nothing may be added to its last relation. -/
  | endOfCondition
  | expression
  | closeAfterExpression
  | openAfterType
  | closeParenAfterCast
  | closeBracketAfterCast
  | closeAfterIndex
  | closeAfterArguments
deriving DecidableEq, Inhabited

/-- The wording of an expectation. -/
def Expectation.text : Expectation → String
  | .functionOrStatement => "'fun' or a statement"
  | .function => "'fun'"
  | .endOfInput => "end of input"
  | .functionName => "function name"
  | .openAfterFunctionName => "'(' after function name"
  | .closeAfterParameters => "')' after parameters"
  | .beginBeforeBody => "'begin' before function body"
  | .endAfterBody => "'end' after function body"
  | .parameterName => "parameter name"
  | .variableName => "variable name"
  | .colonAfterName => "':' after name"
  | .typeName => "type name ('int' or 'float')"
  | .closeAfterSize => "']' after array size"
  | .statement => "statement"
  | .separatorOrEnd => "';' or 'end'"
  | .endOfBlock => "'end' to close block"
  | .thenAfterCondition => "'then' after condition"
  | .doAfterCondition => "'do' after condition"
  | .openAfterRead => "'(' after 'read'"
  | .closeAfterRead => "')' after read target"
  | .openAfterWrite => "'(' after 'write'"
  | .closeAfterWrite => "')' after write argument"
  | .openAfterPrint => "'(' after 'print'"
  | .string => "string literal"
  | .closeAfterString => "')' after string"
  | .assignment => "':=' in assignment"
  | .relationalOperator => "relational operator"
  | .closeAfterCondition => "')' after condition"
  | .endOfCondition => "'then', 'do', 'and' or 'or'"
  | .expression => "expression"
  | .closeAfterExpression => "')' after expression"
  | .openAfterType => "'(' or '[' after type name"
  | .closeParenAfterCast => "')' after cast operand"
  | .closeBracketAfterCast => "']' after cast operand"
  | .closeAfterIndex => "']' after index"
  | .closeAfterArguments => "')' after arguments"

/-- A place where a program leaves the grammar. -/
structure SyntaxError where
  /-- The offending token; none at the end of the input. -/
  found : Option Token.Kind
  expected : Expectation
  position : Position
deriving DecidableEq

namespace SyntaxError

/-- Whether the program stopped too early. -/
def isAtEnd (error : SyntaxError) : Bool :=
  error.found.isNone

/-- The message for a syntax error. -/
def message (error : SyntaxError) : String :=
  "line " ++ toString error.position.line ++ ": unexpected " ++
    (error.found.getD .endOfInput).description ++ ", expected " ++
      error.expected.text

end SyntaxError

end PL0
