import PL0.Tree.Basic

/-!
# What occurs in a tree

The places and expressions of a tree are listed from the leaves up: the parts
of each from left to right, then itself.  The sizes in declarations come
before the body of their function.  What holds of a tree because it holds of
its parts can be said through this list.
-/

namespace PL0

/-- A place or an expression that occurs in a tree. -/
inductive Occurrence where
  | place (held : Place)
  | expr (e : Expr)

/-- The number and the position of what occurs. -/
def Occurrence.node : Occurrence → Node
  | .place held => held.node
  | .expr e => e.node

/-- The numbers of what occurs. -/
def Occurrence.ids (occurrences : List Occurrence) : List NodeId :=
  occurrences.map fun occurrence => occurrence.node.id

@[simp]
theorem Occurrence.ids_append (first second : List Occurrence) :
    Occurrence.ids (first ++ second) = Occurrence.ids first ++
      Occurrence.ids second :=
  List.map_append

theorem Occurrence.append_subset_ids {firstIds secondIds : List NodeId}
    {first second : List Occurrence}
    (firstSubset : firstIds ⊆ Occurrence.ids first)
    (secondSubset : secondIds ⊆ Occurrence.ids second) :
    firstIds ++ secondIds ⊆ Occurrence.ids (first ++ second) := by
  rw [Occurrence.ids_append]
  exact List.append_subset.mpr
    ⟨List.subset_append_of_subset_left _ firstSubset,
      List.subset_append_of_subset_right _ secondSubset⟩

mutual

/-- What occurs in a place. -/
def Place.occurrences : Place → List Occurrence
  | .var node name => [.place (.var node name)]
  | .element node name index =>
      index.occurrences ++ [.place (.element node name index)]

/-- What occurs in an expression. -/
def Expr.occurrences : Expr → List Occurrence
  | .int node value => [.expr (.int node value)]
  | .float node value => [.expr (.float node value)]
  | .valueOf node place => place.occurrences ++ [.expr (.valueOf node place)]
  | .binary node op left right =>
    left.occurrences ++ right.occurrences ++
      [.expr (.binary node op left right)]
  | .signed node op operand =>
      operand.occurrences ++ [.expr (.signed node op operand)]
  | .call node callee args =>
      Expr.allOccurrences args ++ [.expr (.call node callee args)]
  | .cast node target operand =>
      operand.occurrences ++ [.expr (.cast node target operand)]

/-- What occurs in expressions in order. -/
def Expr.allOccurrences : List Expr → List Occurrence
  | [] => []
  | first :: others => first.occurrences ++ Expr.allOccurrences others

end

/-- What occurs in a condition. -/
def Condition.occurrences : Condition → List Occurrence
  | .rel _ _ left right => left.occurrences ++ right.occurrences
  | .logic _ _ left right => left.occurrences ++ right.occurrences
  | .not _ operand => operand.occurrences

mutual

/-- What occurs in a statement. -/
def Stmt.occurrences : Stmt → List Occurrence
  | .assign _ target value => target.occurrences ++ value.occurrences
  | .ifThen _ test thenBranch => test.occurrences ++ thenBranch.occurrences
  | .ifElse _ test thenBranch elseBranch =>
    test.occurrences ++ thenBranch.occurrences ++ elseBranch.occurrences
  | .whileDo _ test body => test.occurrences ++ body.occurrences
  | .block _ statements => Stmt.allOccurrences statements
  | .breakLoop _ => []
  | .skip _ => []
  | .returnValue _ value => value.occurrences
  | .read _ target => target.occurrences
  | .write _ value => value.occurrences
  | .print .. => []
  | .call _ _ args => Expr.allOccurrences args

/-- What occurs in statements in order. -/
def Stmt.allOccurrences : List Stmt → List Occurrence
  | [] => []
  | first :: others => first.occurrences ++ Stmt.allOccurrences others

end

theorem Expr.allOccurrences_eq (args : List Expr) :
    Expr.allOccurrences args = args.flatMap Expr.occurrences := by
  induction args with
  | nil => rfl
  | cons first others ih => rw [Expr.allOccurrences, List.flatMap_cons, ih]

theorem Stmt.allOccurrences_eq (statements : List Stmt) :
    Stmt.allOccurrences statements = statements.flatMap Stmt.occurrences := by
  induction statements with
  | nil => rfl
  | cons first others ih => rw [Stmt.allOccurrences, List.flatMap_cons, ih]

/-- What occurs in the size of a declaration. -/
def Declaration.occurrences (declaration : Declaration) : List Occurrence :=
  match declaration.type.size? with
  | some (.dynamic count) => count.occurrences
  | _ => []

/-- The declarations of a function, its parameters first. -/
def Function.declarations (function : Function) : List Declaration :=
  function.params ++ function.locals

/-- What occurs in a function. -/
def Function.occurrences (function : Function) : List Occurrence :=
  function.declarations.flatMap Declaration.occurrences ++
    Stmt.allOccurrences function.body

/-- The functions of a program.  A statement on its own is the body of a
`main` without parameters. -/
def Program.definitions : Program → List Function
  | .functions all => all
  | .statement body => [⟨entryPoint, [], [], [body], body.position⟩]

/-- What occurs in a program. -/
def Program.occurrences (program : Program) : List Occurrence :=
  program.definitions.flatMap Function.occurrences

/-- The numbers of the nodes of a program. -/
def Program.ids (program : Program) : List NodeId :=
  Occurrence.ids program.occurrences

theorem Occurrence.id_mem_ids {occurrence : Occurrence}
    {occurrences : List Occurrence} (member : occurrence ∈ occurrences) :
    occurrence.node.id ∈ Occurrence.ids occurrences :=
  List.mem_map.mpr ⟨occurrence, member, rfl⟩

theorem Place.mem_occurrences (held : Place) :
    .place held ∈ held.occurrences := by
  cases held <;> simp [Place.occurrences]

theorem Expr.mem_occurrences (e : Expr) : .expr e ∈ e.occurrences := by
  cases e <;> simp [Expr.occurrences]

theorem Place.id_mem_ids (held : Place) :
    held.node.id ∈ Occurrence.ids held.occurrences :=
  Occurrence.id_mem_ids held.mem_occurrences

theorem Expr.id_mem_ids (e : Expr) : e.node.id ∈ Occurrence.ids e.occurrences :=
  Occurrence.id_mem_ids e.mem_occurrences

end PL0
