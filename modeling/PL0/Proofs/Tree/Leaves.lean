import PL0.Proofs.Token.Names
import PL0.Proofs.Tree.Erasure
import PL0.Proofs.Tree.Occurrences

/-!
# The leaves of a tree

The names and the numbers with a point in a tree, from left to right, as the
tokens from which they were read.  They do not depend on where the parts of
the tree stand and how they are numbered.
-/

namespace PL0

mutual

/-- The leaves of a place. -/
def Place.leaves : Place → List Token.Kind
  | .var _ name => [.identifier name]
  | .element _ name index => .identifier name :: index.leaves

/-- The leaves of an expression. -/
def Expr.leaves : Expr → List Token.Kind
  | .int .. => []
  | .float _ value => [.float value]
  | .valueOf _ held => held.leaves
  | .binary _ _ left right => left.leaves ++ right.leaves
  | .signed _ _ operand => operand.leaves
  | .call _ callee args => .identifier callee :: Expr.allLeaves args
  | .cast _ _ operand => operand.leaves

/-- The leaves of expressions in order. -/
def Expr.allLeaves : List Expr → List Token.Kind
  | [] => []
  | first :: others => first.leaves ++ Expr.allLeaves others

end

/-- The leaves of a condition. -/
def Condition.leaves : Condition → List Token.Kind
  | .rel _ _ left right => left.leaves ++ right.leaves
  | .logic _ _ left right => left.leaves ++ right.leaves
  | .not _ operand => operand.leaves

mutual

/-- The leaves of a statement. -/
def Stmt.leaves : Stmt → List Token.Kind
  | .assign _ target value => target.leaves ++ value.leaves
  | .ifThen _ test thenBranch => test.leaves ++ thenBranch.leaves
  | .ifElse _ test thenBranch elseBranch =>
    test.leaves ++ thenBranch.leaves ++ elseBranch.leaves
  | .whileDo _ test body => test.leaves ++ body.leaves
  | .block _ statements => Stmt.allLeaves statements
  | .breakLoop _ => []
  | .skip _ => []
  | .returnValue _ value => value.leaves
  | .read _ target => target.leaves
  | .write _ value => value.leaves
  | .print .. => []
  | .call _ callee args => .identifier callee :: Expr.allLeaves args

/-- The leaves of statements in order. -/
def Stmt.allLeaves : List Stmt → List Token.Kind
  | [] => []
  | first :: others => first.leaves ++ Stmt.allLeaves others

end

theorem Expr.allLeaves_eq (args : List Expr) :
    Expr.allLeaves args = args.flatMap Expr.leaves := by
  induction args with
  | nil => rfl
  | cons first others ih => rw [Expr.allLeaves, List.flatMap_cons, ih]

theorem Stmt.allLeaves_eq (statements : List Stmt) :
    Stmt.allLeaves statements = statements.flatMap Stmt.leaves := by
  induction statements with
  | nil => rfl
  | cons first others ih => rw [Stmt.allLeaves, List.flatMap_cons, ih]

/-- The leaves of the size in a declaration. -/
def Declaration.sizeLeaves (declaration : Declaration) : List Token.Kind :=
  match declaration.type.size? with
  | some (.dynamic count) => count.leaves
  | _ => []

/-- The leaves of a declaration. -/
def Declaration.leaves (declaration : Declaration) : List Token.Kind :=
  .identifier declaration.name :: declaration.sizeLeaves

/-- The leaves of a function. -/
def Function.leaves (function : Function) : List Token.Kind :=
  .identifier function.name ::
    (function.declarations.flatMap Declaration.leaves ++
      Stmt.allLeaves function.body)

/-- The leaves of a program. -/
def Program.leaves : Program → List Token.Kind
  | .functions all => all.flatMap Function.leaves
  | .statement body => body.leaves

mutual

theorem Place.leaves_erase : ∀ held : Place, held.erase.leaves = held.leaves
  | .var _ _ => by simp [Place.erase, Place.leaves]
  | .element _ _ index => by
      simp [Place.erase, Place.leaves, Expr.leaves_erase index]

theorem Expr.leaves_erase : ∀ e : Expr, e.erase.leaves = e.leaves
  | .int _ _ => by simp [Expr.erase, Expr.leaves]
  | .float _ _ => by simp [Expr.erase, Expr.leaves]
  | .valueOf _ held => by simp [Expr.erase, Expr.leaves,
      Place.leaves_erase held]
  | .binary _ _ left right => by
      simp [Expr.erase, Expr.leaves, Expr.leaves_erase left,
        Expr.leaves_erase right]
  | .signed _ _ operand => by
      simp [Expr.erase, Expr.leaves, Expr.leaves_erase operand]
  | .call _ _ args => by simp [Expr.erase, Expr.leaves,
      Expr.allLeaves_erase args]
  | .cast _ _ operand => by
      simp [Expr.erase, Expr.leaves, Expr.leaves_erase operand]

theorem Expr.allLeaves_erase : ∀ args : List Expr,
    Expr.allLeaves (args.map Expr.erase) = Expr.allLeaves args
  | [] => rfl
  | first :: others => by
      simp [Expr.allLeaves, Expr.leaves_erase first,
        Expr.allLeaves_erase others]

end

theorem Condition.leaves_erase (test : Condition) :
    test.erase.leaves = test.leaves := by
  induction test with
  | rel position op left right =>
      simp [Condition.erase, Condition.leaves, Expr.leaves_erase]
  | logic position op left right leftIH rightIH =>
      simp [Condition.erase, Condition.leaves, leftIH, rightIH]
  | not position operand ih => simp [Condition.erase, Condition.leaves, ih]

mutual

theorem Stmt.leaves_erase : ∀ s : Stmt, s.erase.leaves = s.leaves
  | .assign _ target value => by
      simp [Stmt.erase, Stmt.leaves, target.leaves_erase, value.leaves_erase]
  | .ifThen _ test thenBranch => by
      simp [Stmt.erase, Stmt.leaves, test.leaves_erase,
        Stmt.leaves_erase thenBranch]
  | .ifElse _ test thenBranch elseBranch => by
      simp [Stmt.erase, Stmt.leaves, test.leaves_erase,
        Stmt.leaves_erase thenBranch, Stmt.leaves_erase elseBranch]
  | .whileDo _ test body => by
      simp [Stmt.erase, Stmt.leaves, test.leaves_erase, Stmt.leaves_erase body]
  | .block _ statements => by
      simp [Stmt.erase, Stmt.leaves, Stmt.allLeaves_erase statements]
  | .breakLoop _ => by simp [Stmt.erase, Stmt.leaves]
  | .skip _ => by simp [Stmt.erase, Stmt.leaves]
  | .returnValue _ value => by
      simp [Stmt.erase, Stmt.leaves, value.leaves_erase]
  | .read _ target => by simp [Stmt.erase, Stmt.leaves, target.leaves_erase]
  | .write _ value => by simp [Stmt.erase, Stmt.leaves, value.leaves_erase]
  | .print _ _ => by simp [Stmt.erase, Stmt.leaves]
  | .call _ _ args => by simp [Stmt.erase, Stmt.leaves,
      Expr.allLeaves_erase args]

theorem Stmt.allLeaves_erase : ∀ statements : List Stmt,
    Stmt.allLeaves (statements.map Stmt.erase) = Stmt.allLeaves statements
  | [] => rfl
  | first :: others => by
      simp [Stmt.allLeaves, Stmt.leaves_erase first,
        Stmt.allLeaves_erase others]

end

theorem Declaration.leaves_erase (declaration : Declaration) :
    declaration.erase.leaves = declaration.leaves := by
  cases sizeEq : declaration.type.size? with
  | none =>
      simp [Declaration.erase, Declaration.leaves, Declaration.sizeLeaves,
        DeclaredType.erase, sizeEq]
  | some size =>
      cases size <;>
        simp [Declaration.erase, Declaration.leaves, Declaration.sizeLeaves,
          DeclaredType.erase, sizeEq, ArraySize.erase, Expr.leaves_erase]

theorem Function.declarations_erase (function : Function) :
    function.erase.declarations =
      function.declarations.map Declaration.erase := by
  simp [Function.declarations, Function.erase]

theorem Function.leaves_erase (function : Function) :
    function.erase.leaves = function.leaves := by
  rw [Function.leaves, Function.declarations_erase, List.flatMap_map]
  simp only [Declaration.leaves_erase]
  rw [Function.erase, Stmt.allLeaves_erase, Function.leaves]

/-- The leaves of a program do not depend on positions and numbers. -/
theorem Program.leaves_erase (program : Program) :
    program.erase.leaves = program.leaves := by
  cases program with
  | functions all =>
      simp [Program.leaves, Program.erase, List.flatMap_map,
        Function.leaves_erase]
  | statement body => simp [Program.leaves, Program.erase, Stmt.leaves_erase]

theorem isName_entryPoint : IsName entryPoint :=
  ⟨⟨'m', rfl, by decide⟩, List.all_eq_true.mp (by decide)⟩

/-- Where a single statement is the program, the name of its function is not
read. -/
theorem Program.areScanned_definitions {program : Program}
    (scanned : AreScanned program.leaves) :
    AreScanned (program.definitions.flatMap Function.leaves) := by
  cases program with
  | functions all => exact scanned
  | statement body =>
      have leavesEq :
          ((Program.statement body).definitions.flatMap Function.leaves) =
          .identifier entryPoint :: body.leaves := by
        simp [Program.definitions, Function.leaves, Function.declarations,
          Stmt.allLeaves]
      rw [leavesEq]
      exact areScanned_cons.mpr ⟨isName_entryPoint, scanned⟩

/-- What a scanned function declares has names, and so has the function. -/
theorem Function.isName_of_areScanned {function : Function}
    (scanned : AreScanned function.leaves) :
    IsName function.name ∧
      ∀ declaration ∈ function.declarations, IsName declaration.name := by
  rw [Function.leaves, areScanned_cons, areScanned_append] at scanned
  refine ⟨scanned.1, ?_⟩
  intro declaration member
  exact scanned.2.1 _ (List.mem_flatMap.mpr ⟨declaration, member,
    List.mem_cons_self⟩)

end PL0
