import PL0.Scope.Table

/-!
# The listing of a scope table

Scopes are listed in the order in which they were opened, and under each its
names in the order of their definition.
-/

namespace PL0

/-- A name and its meaning. -/
def Scope.entryText (entry : String × Binding) : String :=
  entry.1 ++ ": " ++ entry.2.text

/-- A scope with its number. -/
def Scope.listing (scope : Scope) (id : ScopeId) : String :=
  let parent := scope.parent?.elim "" fun parent =>
      ", parent " ++ toString parent
  "scope " ++ toString id ++ " (" ++ scope.kind.text ++ parent ++ ")\n" ++
    String.join (scope.entries.map fun entry => "  " ++ entryText entry ++ "\n")

/-- A whole table. -/
def ScopeTable.listing (table : ScopeTable) : String :=
  String.join (table.scopes.zipIdx.map fun (scope, id) => scope.listing id)

end PL0
