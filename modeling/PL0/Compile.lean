import PL0.Code.Lowering
import PL0.Grammar.Program
import PL0.Token.Scan

/-!
# Compiling

A source text is scanned, read, checked and turned into code.  Each step is
taken only if the one before it found no fault.
-/

namespace PL0

/-- Why a source text has no code. -/
inductive CompileError where
  | scan (error : ScanError)
  | syntactic (errors : List SyntaxError)
  | semantic (errors : List SemanticError)
  | internal (error : InternalError)
deriving DecidableEq

namespace CompileError

/-- The messages for all faults. -/
def messages : CompileError → List String
  | .scan error => [error.message]
  | .syntactic errors => errors.map SyntaxError.message
  | .semantic errors => errors.map SemanticError.message
  | .internal error => [error.message]

/-- The messages, one to a line. -/
def message (error : CompileError) : String :=
  "\n".intercalate error.messages

/-- The number of faults. -/
def count (error : CompileError) : Nat :=
  error.messages.length

/-- Whether the fault is not the program's but the compiler's. -/
def isInternal : CompileError → Bool
  | .internal _ => true
  | _ => false

end CompileError

/-- The tokens of a source text. -/
def tokensOf (source : String) : Except CompileError (List Token) :=
  (scan source).mapError .scan

/-- The tree of a source text, if it has no syntax errors. -/
def treeOf (source : String) : Except CompileError Program := do
  let reading := readProgram (← tokensOf source)
  if reading.errors.isEmpty then return reading.program
  else throw (.syntactic reading.errors)

/-- The analysis of a tree that has no faults. -/
def analysisOf (tree : Program) : Except CompileError Analysis :=
  let analysis := analyse tree
  if analysis.isAccepted then .ok analysis
    else .error (.semantic analysis.errors)

/-- The code of a source text. -/
def compile (source : String) : Except CompileError (List Instr) := do
  let tree ← treeOf source
  let analysis ← analysisOf tree
  (lower tree analysis.types).mapError .internal

end PL0
