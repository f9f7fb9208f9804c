import PL0.Code.Listing
import PL0.Compile
import PL0.Scope.Listing
import PL0.Token.Table
import PL0.Tree.Outline

/-!
# Reports

What is known of a source text after each step can be shown as text.
-/

namespace PL0

/-- What is to be shown. -/
inductive Report where
  | tokens
  | tree
  | scopes
  | code
deriving DecidableEq, Inhabited

/-- Show a source text in one of the ways. -/
def Report.render (report : Report) (source : String) :
    Except CompileError String :=
  match report with
  | .tokens => return Token.table (← tokensOf source)
  | .tree => return (← treeOf source).outline.text 0 ++ "\n"
  | .scopes => return (← analysisOf (← treeOf source)).scopes.listing
  | .code => return Instr.listing (← compile source)

end PL0
