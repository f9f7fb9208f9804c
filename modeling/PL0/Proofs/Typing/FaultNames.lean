import PL0.Proofs.Tree.Leaves
import PL0.Proofs.Typing.Acceptance
import PL0.Typing.Analysis

/-!
# The names in faults

Checking speaks of a fault by the names that stand in the program.  So if the
leaves of a tree were scanned then every name in a fault of the tree is a
name: a letter followed by letters, digits and underscores.
-/

namespace PL0

/-- The names in a context. -/
def TypeContext.names : TypeContext → List String
  | .sizeOf array => [array]
  | .indexOf array => [array]
  | .argument _ callee => [callee]
  | .assignment | .returnValue | .arithmetic _ | .comparison _ => []

/-- The names in a fault. -/
def SemanticFault.names : SemanticFault → List String
  | .duplicate _ name _ => [name]
  | .undefined _ name => [name]
  | .arity callee _ _ => [callee]
  | .typeMismatch context _ _ => context.names
  | .misuse name _ => [name]
  | .breakOutsideLoop | .missingMain => []

namespace ScopeTable

variable {table : ScopeTable} {fault : SemanticFault}

theorem names_of_placeType {allowArray isIndexed : Bool} {name : String}
    (failed : table.placeType allowArray name isIndexed = .error fault) :
    fault.names = [name] := by
  unfold placeType at failed
  grind [SemanticFault.names]

theorem names_of_callParams {callee : String} {count : Nat}
    (failed : table.callParams callee count = .error fault) :
    fault.names = [callee] := by
  unfold callParams at failed
  grind [SemanticFault.names]

end ScopeTable

namespace Checked

variable {α β : Type}

/-- All that the faults call names are names. -/
def FaultsNamed (checked : Checked α) : Prop :=
  ∀ error ∈ checked.errors, ∀ name ∈ error.fault.names, IsName name

theorem faultsNamed_pure (value : α) :
    (pure value : Checked α).FaultsNamed := by
  simp [FaultsNamed]

theorem FaultsNamed.bind {first : Checked α} {next : α → Checked β}
    (named : first.FaultsNamed) (nextNamed : (next first.value).FaultsNamed) :
    (first >>= next).FaultsNamed :=
  List.forall_mem_append.mpr ⟨named, nextNamed⟩

theorem faultsNamed_record (node : Node) (type? : Option ValueType) :
    (record node type?).FaultsNamed := by
  simp [FaultsNamed]

theorem faultsNamed_report {fault : SemanticFault} {name : String}
    (position : Position) (namesEq : fault.names = [name])
    (isName : IsName name) :
    (report fault position).FaultsNamed := by
  simpa [FaultsNamed, namesEq] using isName

theorem faultsNamed_compare {context : TypeContext}
    (areNames : ∀ name ∈ context.names, IsName name) (position : Position)
    (expected? found? : Option ValueType) :
    (compare context position expected? found?).FaultsNamed := by
  unfold compare
  split
  · split
    · exact faultsNamed_pure ()
    · simpa [FaultsNamed, SemanticFault.names] using areNames
  · exact faultsNamed_pure ()

mutual

theorem place_faultsNamed {table : ScopeTable} (allowArray : Bool) :
    ∀ held : Place,
    AreScanned held.leaves → (place table allowArray held).FaultsNamed
  | .var node name => by
      intro scanned
      rw [Place.leaves, areScanned_cons] at scanned
      rw [place]
      split
      · next failed =>
        exact (faultsNamed_report _ (ScopeTable.names_of_placeType failed)
          scanned.1).bind (faultsNamed_pure none)
      · exact faultsNamed_record _ _
  | .element node name index => by
      intro scanned
      rw [Place.leaves, areScanned_cons] at scanned
      have isName : IsName name := scanned.1
      have indexNamed : (expr table false index).FaultsNamed :=
        expr_faultsNamed false index scanned.2
      rw [place]
      split
      · next failed =>
        exact (faultsNamed_report _ (ScopeTable.names_of_placeType failed)
          isName).bind (indexNamed.bind (faultsNamed_pure none))
      · exact indexNamed.bind
          ((faultsNamed_compare (by simpa [TypeContext.names] using isName)
          _ _ _).bind (faultsNamed_record _ _))

theorem expr_faultsNamed {table : ScopeTable} (allowArray : Bool) : ∀ e : Expr,
    AreScanned e.leaves → (expr table allowArray e).FaultsNamed
  | .int node value => by
      intro _
      rw [expr]
      exact faultsNamed_record _ _
  | .float node value => by
      intro _
      rw [expr]
      exact faultsNamed_record _ _
  | .valueOf node held => by
      intro scanned
      rw [Expr.leaves] at scanned
      rw [expr]
      exact (place_faultsNamed allowArray held scanned).bind
        (faultsNamed_record _ _)
  | .binary node op left right => by
      intro scanned
      rw [Expr.leaves, areScanned_append] at scanned
      rw [expr]
      exact (expr_faultsNamed false left scanned.1).bind
        ((expr_faultsNamed false right scanned.2).bind
          ((faultsNamed_compare (by simp [TypeContext.names]) _ _ _).bind
            (faultsNamed_record _ _)))
  | .signed node op operand => by
      intro scanned
      rw [Expr.leaves] at scanned
      rw [expr]
      exact (expr_faultsNamed false operand scanned).bind
        (faultsNamed_record _ _)
  | .call node callee args => by
      intro scanned
      rw [Expr.leaves, areScanned_cons] at scanned
      rw [expr_call_eq, call]
      refine FaultsNamed.bind ?_ (faultsNamed_record _ _)
      split
      · exact arguments_faultsNamed scanned.1 1 _ args scanned.2
      · next failed =>
        exact (faultsNamed_report _ (ScopeTable.names_of_callParams failed)
          scanned.1).bind (exprs_faultsNamed args scanned.2)
  | .cast node target operand => by
      intro scanned
      rw [Expr.leaves] at scanned
      rw [expr]
      exact (expr_faultsNamed false operand scanned).bind
        (faultsNamed_record _ _)

theorem exprs_faultsNamed {table : ScopeTable} : ∀ args : List Expr,
    AreScanned (Expr.allLeaves args) → (exprs table args).FaultsNamed
  | [] => by
      intro _
      rw [exprs]
      exact faultsNamed_pure ()
  | first :: others => by
      intro scanned
      rw [Expr.allLeaves, areScanned_append] at scanned
      rw [exprs]
      exact (expr_faultsNamed true first scanned.1).bind
        (exprs_faultsNamed others scanned.2)

theorem arguments_faultsNamed {table : ScopeTable} {callee : String}
    (isName : IsName callee) :
    ∀ (number : Nat) (params : List ValueType) (args : List Expr),
      AreScanned (Expr.allLeaves args) →
        (arguments table callee number params args).FaultsNamed
  | _, [], _ => by
      intro _
      rw [arguments]
      · exact faultsNamed_pure ()
      · simp
  | _, _ :: _, [] => by
      intro _
      rw [arguments]
      · exact faultsNamed_pure ()
      · simp
  | number, param :: params, arg :: args => by
      intro scanned
      rw [Expr.allLeaves, areScanned_append] at scanned
      rw [arguments]
      exact (expr_faultsNamed _ arg scanned.1).bind
        ((faultsNamed_compare (by simpa [TypeContext.names]
          using isName) _ _ _).bind
          (arguments_faultsNamed isName (number + 1) params args scanned.2))

end

variable {table : ScopeTable}

theorem call_faultsNamed {callee : String} {args : List Expr}
    (scanned : AreScanned (.identifier callee :: Expr.allLeaves args))
    (position : Position) :
    (call table position callee args).FaultsNamed := by
  have asExpr :
      (expr table true (.call ⟨0, position⟩ callee args)).FaultsNamed :=
    expr_faultsNamed true _ (by rwa [Expr.leaves])
  rw [expr_call_eq] at asExpr
  exact (List.forall_mem_append.mp asExpr).1

theorem condition_faultsNamed {test : Condition}
    (scanned : AreScanned test.leaves) :
    (condition table test).FaultsNamed := by
  induction test with
  | rel position op left right =>
      rw [Condition.leaves, areScanned_append] at scanned
      rw [condition]
      exact (expr_faultsNamed false left scanned.1).bind
        ((expr_faultsNamed false right scanned.2).bind
          (faultsNamed_compare (by simp [TypeContext.names]) _ _ _))
  | logic position op left right leftIH rightIH =>
      rw [Condition.leaves, areScanned_append] at scanned
      rw [condition]
      exact (leftIH scanned.1).bind (rightIH scanned.2)
  | not position operand ih =>
      rw [condition]
      exact ih scanned

mutual

theorem stmt_faultsNamed : ∀ {table : ScopeTable} (s : Stmt),
    AreScanned s.leaves → (stmt table s).FaultsNamed
  | _, .assign position target value => by
      intro scanned
      rw [Stmt.leaves, areScanned_append] at scanned
      rw [stmt]
      exact (place_faultsNamed false target scanned.1).bind
        ((expr_faultsNamed false value scanned.2).bind
          (faultsNamed_compare (by simp [TypeContext.names]) _ _ _))
  | _, .ifThen position test thenBranch => by
      intro scanned
      rw [Stmt.leaves, areScanned_append] at scanned
      rw [stmt]
      exact (condition_faultsNamed scanned.1).bind
        (stmt_faultsNamed thenBranch scanned.2)
  | _, .ifElse position test thenBranch elseBranch => by
      intro scanned
      rw [Stmt.leaves, areScanned_append, areScanned_append] at scanned
      rw [stmt]
      exact (condition_faultsNamed scanned.1.1).bind
        ((stmt_faultsNamed thenBranch scanned.1.2).bind
          (stmt_faultsNamed elseBranch scanned.2))
  | _, .whileDo position test body => by
      intro scanned
      rw [Stmt.leaves, areScanned_append] at scanned
      rw [stmt]
      exact (condition_faultsNamed scanned.1).bind
        (stmt_faultsNamed body scanned.2)
  | _, .block position statements => by
      intro scanned
      rw [Stmt.leaves] at scanned
      rw [stmt]
      exact stmts_faultsNamed statements scanned
  | table, .breakLoop position => by
      intro _
      rw [stmt]
      split
      · exact faultsNamed_pure ()
      · simp [FaultsNamed, SemanticFault.names]
  | _, .skip position => by
      intro _
      rw [stmt]
      exact faultsNamed_pure ()
  | _, .returnValue position value => by
      intro scanned
      rw [Stmt.leaves] at scanned
      rw [stmt]
      exact (expr_faultsNamed false value scanned).bind
        (faultsNamed_compare (by simp [TypeContext.names]) _ _ _)
  | _, .read position target => by
      intro scanned
      rw [Stmt.leaves] at scanned
      rw [stmt]
      exact (place_faultsNamed false target scanned).bind (faultsNamed_pure ())
  | _, .write position value => by
      intro scanned
      rw [Stmt.leaves] at scanned
      rw [stmt]
      exact (expr_faultsNamed false value scanned).bind (faultsNamed_pure ())
  | _, .print position text => by
      intro _
      rw [stmt]
      exact faultsNamed_pure ()
  | _, .call position callee args => by
      intro scanned
      rw [Stmt.leaves] at scanned
      rw [stmt]
      exact call_faultsNamed scanned position

theorem stmts_faultsNamed : ∀ {table : ScopeTable} (statements : List Stmt),
    AreScanned (Stmt.allLeaves statements) →
      (stmts table statements).FaultsNamed
  | _, [] => by
      intro _
      rw [stmts]
      exact faultsNamed_pure ()
  | _, first :: others => by
      intro scanned
      rw [Stmt.allLeaves, areScanned_append] at scanned
      rw [stmts]
      exact (stmt_faultsNamed first scanned.1).bind
        (stmts_faultsNamed others scanned.2)

end

theorem define_faultsNamed {name : String} (isName : IsName name)
    (kind : NameKind) (binding : Binding) :
    (define table kind name binding).FaultsNamed := by
  rw [define]
  split
  · exact faultsNamed_pure _
  · exact (faultsNamed_report _ rfl isName).bind (faultsNamed_pure _)

theorem size_faultsNamed {declaration : Declaration}
    (scanned : AreScanned declaration.leaves) :
    (size table declaration).FaultsNamed := by
  rw [Declaration.leaves, areScanned_cons] at scanned
  have isName : IsName declaration.name := scanned.1
  rw [size]
  split
  · next count isDynamic =>
    have sizeScanned := scanned.2
    rw [Declaration.sizeLeaves, isDynamic] at sizeScanned
    exact (expr_faultsNamed false count sizeScanned).bind
      (faultsNamed_compare (by simpa [TypeContext.names] using isName) _ _ _)
  · exact faultsNamed_pure ()

theorem declarations_faultsNamed (role : VariableRole)
    {declared : List Declaration}
    (scanned : AreScanned (declared.flatMap Declaration.leaves)) :
    (declarations role table declared).FaultsNamed := by
  induction declared generalizing table with
  | nil =>
      rw [declarations]
      exact faultsNamed_pure _
  | cons first others ih =>
      rw [List.flatMap_cons, areScanned_append] at scanned
      have isName : IsName first.name := (areScanned_cons.mp scanned.1).1
      rw [declarations]
      exact (size_faultsNamed scanned.1).bind
        ((define_faultsNamed isName _ _).bind (ih scanned.2))

theorem signatures_faultsNamed {all : List Function}
    (scanned : AreScanned (all.flatMap Function.leaves)) :
    (signatures table all).FaultsNamed := by
  induction all generalizing table with
  | nil =>
      rw [signatures]
      exact faultsNamed_pure _
  | cons first others ih =>
      rw [List.flatMap_cons, areScanned_append] at scanned
      have isName := (Function.isName_of_areScanned scanned.1).1
      rw [signatures]
      exact (define_faultsNamed isName _ _).bind (ih scanned.2)

theorem function_faultsNamed {definition : Function}
    (scanned : AreScanned definition.leaves) :
    (function table definition).FaultsNamed := by
  rw [Function.leaves, areScanned_cons, areScanned_append,
    Function.declarations, List.flatMap_append, areScanned_append] at scanned
  rw [function]
  exact (declarations_faultsNamed _ scanned.2.1.1).bind
    ((declarations_faultsNamed _ scanned.2.1.2).bind
      ((stmts_faultsNamed _ scanned.2.2).bind (faultsNamed_pure _)))

theorem functions_faultsNamed {all : List Function}
    (scanned : AreScanned (all.flatMap Function.leaves)) :
    (functions table all).FaultsNamed := by
  induction all generalizing table with
  | nil =>
      rw [functions]
      exact faultsNamed_pure _
  | cons first others ih =>
      rw [List.flatMap_cons, areScanned_append] at scanned
      rw [functions]
      exact (function_faultsNamed scanned.1).bind (ih scanned.2)

theorem start_faultsNamed (all : List Function) :
    (start table all).FaultsNamed := by
  rw [start]
  split
  · exact faultsNamed_pure ()
  · simp [FaultsNamed, SemanticFault.names]

theorem program_faultsNamed {program : Program}
    (scanned : AreScanned program.leaves) :
    (Checked.program program).FaultsNamed := by
  cases program with
  | functions all =>
      rw [Program.leaves] at scanned
      rw [Checked.program]
      exact (signatures_faultsNamed scanned).bind
        ((start_faultsNamed all).bind (functions_faultsNamed scanned))
  | statement body =>
      rw [Program.leaves] at scanned
      rw [Checked.program]
      exact (define_faultsNamed isName_entryPoint _ _).bind
        ((stmt_faultsNamed body scanned).bind (faultsNamed_pure _))

end Checked

/-- If the leaves of a program were scanned then all that its faults call
names are names. -/
theorem analyse_errors_named {program : Program}
    (scanned : AreScanned program.leaves) :
    ∀ error ∈ (analyse program).errors, ∀ name ∈ error.fault.names,
      IsName name :=
  Checked.program_faultsNamed scanned

end PL0
