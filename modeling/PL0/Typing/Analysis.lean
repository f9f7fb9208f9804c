import PL0.Typing.Check
import Std.Data.TreeMap

/-!
# The analysis of a program

The types that checking found are kept in a table by the number of the node.
-/

namespace PL0

/-- The types of nodes, by their numbers. -/
abbrev TypeTable := Std.TreeMap NodeId ValueType

/-- All that checking found out about a program. -/
structure Analysis where
  errors : List SemanticError
  types : TypeTable
  scopes : ScopeTable

/-- Whether a program has no faults. -/
def Analysis.isAccepted (analysis : Analysis) : Bool :=
  analysis.errors.isEmpty

/-- Analyse a program.  Where a number is given to two nodes, the type found
last counts. -/
def analyse (program : Program) : Analysis :=
  let checked := Checked.program program
  ⟨checked.errors, .ofList checked.types, checked.value⟩

end PL0
