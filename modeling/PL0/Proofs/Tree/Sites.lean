import PL0.Proofs.Tree.Occurrences

/-!
# Where things occur in a tree

What an expression may be depends on where it stands: only what is passed to a
function can be a whole array.  The occurrences of a tree are listed once
more, each with whether it is passed.
-/

namespace PL0

/-- An occurrence, and whether it is an argument of a call or the place in
such an argument. -/
structure Site where
  passed : Bool
  occurrence : Occurrence

mutual

/-- The sites of a place, which is passed or not. -/
def Place.sites : (passed : Bool) → Place → List Site
  | passed, .var node name => [⟨passed, .place (.var node name)⟩]
  | passed, .element node name index =>
    index.sites false ++ [⟨passed, .place (.element node name index)⟩]

/-- The sites of an expression, which is passed or not. -/
def Expr.sites : (passed : Bool) → Expr → List Site
  | passed, .int node value => [⟨passed, .expr (.int node value)⟩]
  | passed, .float node value => [⟨passed, .expr (.float node value)⟩]
  | passed, .valueOf node place =>
    place.sites passed ++ [⟨passed, .expr (.valueOf node place)⟩]
  | passed, .binary node op left right =>
    left.sites false ++ right.sites false ++
      [⟨passed, .expr (.binary node op left right)⟩]
  | passed, .signed node op operand =>
    operand.sites false ++ [⟨passed, .expr (.signed node op operand)⟩]
  | passed, .call node callee args =>
    Expr.passedSites args ++ [⟨passed, .expr (.call node callee args)⟩]
  | passed, .cast node target operand =>
    operand.sites false ++ [⟨passed, .expr (.cast node target operand)⟩]

/-- The sites of the arguments of a call. -/
def Expr.passedSites : List Expr → List Site
  | [] => []
  | first :: others => first.sites true ++ Expr.passedSites others

end

/-- The sites of a condition. -/
def Condition.sites : Condition → List Site
  | .rel _ _ left right => left.sites false ++ right.sites false
  | .logic _ _ left right => left.sites ++ right.sites
  | .not _ operand => operand.sites

mutual

/-- The sites of a statement. -/
def Stmt.sites : Stmt → List Site
  | .assign _ target value => target.sites false ++ value.sites false
  | .ifThen _ test thenBranch => test.sites ++ thenBranch.sites
  | .ifElse _ test thenBranch elseBranch =>
    test.sites ++ thenBranch.sites ++ elseBranch.sites
  | .whileDo _ test body => test.sites ++ body.sites
  | .block _ statements => Stmt.allSites statements
  | .breakLoop _ => []
  | .skip _ => []
  | .returnValue _ value => value.sites false
  | .read _ target => target.sites false
  | .write _ value => value.sites false
  | .print .. => []
  | .call _ _ args => Expr.passedSites args

/-- The sites of statements in order. -/
def Stmt.allSites : List Stmt → List Site
  | [] => []
  | first :: others => first.sites ++ Stmt.allSites others

end

/-- The sites of the size of a declaration. -/
def Declaration.sites (declaration : Declaration) : List Site :=
  match declaration.type.size? with
  | some (.dynamic count) => count.sites false
  | _ => []

mutual

theorem Place.map_occurrence_sites : ∀ (passed : Bool) (held : Place),
    (held.sites passed).map Site.occurrence = held.occurrences
  | _, .var node name => rfl
  | _, .element node name index => by
      simp [Place.sites, Place.occurrences,
        Expr.map_occurrence_sites false index]

theorem Expr.map_occurrence_sites : ∀ (passed : Bool) (e : Expr),
    (e.sites passed).map Site.occurrence = e.occurrences
  | _, .int node value => rfl
  | _, .float node value => rfl
  | passed, .valueOf node held => by
      simp [Expr.sites, Expr.occurrences,
        Place.map_occurrence_sites passed held]
  | _, .binary node op left right => by
      simp [Expr.sites, Expr.occurrences, Expr.map_occurrence_sites false left,
        Expr.map_occurrence_sites false right]
  | _, .signed node op operand => by
      simp [Expr.sites, Expr.occurrences,
        Expr.map_occurrence_sites false operand]
  | _, .call node callee args => by
      simp [Expr.sites, Expr.occurrences, Expr.map_occurrence_passedSites args]
  | _, .cast node target operand => by
      simp [Expr.sites, Expr.occurrences,
        Expr.map_occurrence_sites false operand]

theorem Expr.map_occurrence_passedSites : ∀ args : List Expr,
    (Expr.passedSites args).map Site.occurrence = Expr.allOccurrences args
  | [] => rfl
  | first :: others => by
      simp [Expr.passedSites, Expr.allOccurrences,
        Expr.map_occurrence_sites true first,
        Expr.map_occurrence_passedSites others]

end

theorem Condition.map_occurrence_sites (test : Condition) :
    test.sites.map Site.occurrence = test.occurrences := by
  induction test with
  | rel position op left right =>
      simp [Condition.sites, Condition.occurrences,
        left.map_occurrence_sites false, right.map_occurrence_sites false]
  | logic position op left right leftIH rightIH =>
      simp [Condition.sites, Condition.occurrences, leftIH, rightIH]
  | not position operand ih =>
      simpa [Condition.sites, Condition.occurrences] using ih

mutual

theorem Stmt.map_occurrence_sites :
    ∀ s : Stmt, s.sites.map Site.occurrence = s.occurrences
  | .assign position target value => by
      simp [Stmt.sites, Stmt.occurrences, target.map_occurrence_sites false,
        value.map_occurrence_sites false]
  | .ifThen position test thenBranch => by
      simp [Stmt.sites, Stmt.occurrences, test.map_occurrence_sites,
        Stmt.map_occurrence_sites thenBranch]
  | .ifElse position test thenBranch elseBranch => by
      simp [Stmt.sites, Stmt.occurrences, test.map_occurrence_sites,
        Stmt.map_occurrence_sites thenBranch,
        Stmt.map_occurrence_sites elseBranch]
  | .whileDo position test body => by
      simp [Stmt.sites, Stmt.occurrences, test.map_occurrence_sites,
        Stmt.map_occurrence_sites body]
  | .block position statements => by
      simpa [Stmt.sites, Stmt.occurrences]
        using Stmt.map_occurrence_allSites statements
  | .breakLoop _ => rfl
  | .skip _ => rfl
  | .returnValue position value => by
      simpa [Stmt.sites, Stmt.occurrences]
        using value.map_occurrence_sites false
  | .read position target => by
      simpa [Stmt.sites, Stmt.occurrences]
        using target.map_occurrence_sites false
  | .write position value => by
      simpa [Stmt.sites, Stmt.occurrences]
        using value.map_occurrence_sites false
  | .print .. => rfl
  | .call position callee args => by
      simpa [Stmt.sites, Stmt.occurrences]
        using Expr.map_occurrence_passedSites args

theorem Stmt.map_occurrence_allSites : ∀ statements : List Stmt,
    (Stmt.allSites statements).map Site.occurrence =
      Stmt.allOccurrences statements
  | [] => rfl
  | first :: others => by
      simp [Stmt.allSites, Stmt.allOccurrences, Stmt.map_occurrence_sites first,
        Stmt.map_occurrence_allSites others]

end

theorem Declaration.map_occurrence_sites (declaration : Declaration) :
    declaration.sites.map Site.occurrence = declaration.occurrences := by
  unfold Declaration.sites Declaration.occurrences
  cases declaration.type.size? with
  | none => rfl
  | some size =>
      cases size with
      | fixed count => rfl
      | dynamic count => exact count.map_occurrence_sites false

end PL0
