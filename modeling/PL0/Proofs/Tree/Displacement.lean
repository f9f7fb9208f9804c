import PL0.Grammar.Expectation
import PL0.Tree.Basic

/-!
# Trees and errors elsewhere

The same tree can stand at other positions and have other numbers.  A
displacement says where each position goes and how much is added to every
number; it is applied to a tree throughout.  Sending all positions to one of
them leaves what a tree says without where it says it.
-/

namespace PL0

/-- Where positions go, and by how much numbers grow. -/
structure Displacement where
  position : Position → Position
  shift : Nat

namespace Displacement

/-- Numbers grow and positions stay. -/
def renumber (shift : Nat) : Displacement :=
  ⟨id, shift⟩

/-- Numbers stay and positions change. -/
def relocate (position : Position → Position) : Displacement :=
  ⟨position, 0⟩

/-- Numbers stay and positions are forgotten. -/
def forget : Displacement :=
  relocate fun _ => ⟨0, 0⟩

end Displacement

variable (displacement : Displacement)

/-- A token elsewhere. -/
def Token.displace (token : Token) : Token :=
  ⟨token.kind, displacement.position token.position⟩

/-- A syntax error elsewhere. -/
def SyntaxError.displace (error : SyntaxError) : SyntaxError :=
  { error with position := displacement.position error.position }

/-- A node elsewhere, with another number. -/
def Node.displace (node : Node) : Node :=
  ⟨node.id + displacement.shift, displacement.position node.position⟩

theorem Node.position_relocate {position : Position → Position} (node : Node) :
    (node.displace (.relocate position)).position = position node.position :=
  rfl

theorem Node.displace_renumber_zero (node : Node) :
    node.displace (.renumber 0) = node :=
  rfl

mutual

/-- A place elsewhere. -/
def Place.displace : Place → Place
  | .var node name => .var (node.displace displacement) name
  | .element node name index =>
      .element (node.displace displacement) name index.displace

/-- An expression elsewhere. -/
def Expr.displace : Expr → Expr
  | .int node value => .int (node.displace displacement) value
  | .float node value => .float (node.displace displacement) value
  | .valueOf node place => .valueOf (node.displace displacement) place.displace
  | .binary node op left right =>
    .binary (node.displace displacement) op left.displace right.displace
  | .signed node op operand =>
      .signed (node.displace displacement) op operand.displace
  | .call node callee args =>
    .call (node.displace displacement) callee (args.map fun arg => arg.displace)
  | .cast node target operand =>
      .cast (node.displace displacement) target operand.displace

end

/-- A condition elsewhere. -/
def Condition.displace : Condition → Condition
  | .rel position op left right =>
    .rel (displacement.position position) op (left.displace displacement)
      (right.displace displacement)
  | .logic position op left right =>
    .logic (displacement.position position) op left.displace right.displace
  | .not position operand =>
      .not (displacement.position position) operand.displace

/-- A statement elsewhere. -/
def Stmt.displace : Stmt → Stmt
  | .assign position target value =>
    .assign (displacement.position position) (target.displace displacement)
      (value.displace displacement)
  | .ifThen position test thenBranch =>
    .ifThen (displacement.position position) (test.displace displacement)
      thenBranch.displace
  | .ifElse position test thenBranch elseBranch =>
    .ifElse (displacement.position position) (test.displace displacement)
      thenBranch.displace elseBranch.displace
  | .whileDo position test body =>
    .whileDo (displacement.position position) (test.displace displacement)
      body.displace
  | .block position statements =>
    .block (displacement.position position) (statements.map fun statement =>
      statement.displace)
  | .breakLoop position => .breakLoop (displacement.position position)
  | .skip position => .skip (displacement.position position)
  | .returnValue position value =>
    .returnValue (displacement.position position) (value.displace displacement)
  | .read position target =>
    .read (displacement.position position) (target.displace displacement)
  | .write position value =>
    .write (displacement.position position) (value.displace displacement)
  | .print position text => .print (displacement.position position) text
  | .call position callee args =>
    .call (displacement.position position) callee
      (args.map (Expr.displace displacement))

/-- The size of an array elsewhere. -/
def ArraySize.displace : ArraySize → ArraySize
  | .fixed count => .fixed count
  | .dynamic count => .dynamic (count.displace displacement)

/-- The type in a declaration elsewhere. -/
def DeclaredType.displace (type : DeclaredType) : DeclaredType :=
  ⟨type.base, type.size?.map (ArraySize.displace displacement)⟩

/-- A declaration elsewhere. -/
def Declaration.displace (declaration : Declaration) : Declaration :=
  ⟨declaration.name, declaration.type.displace displacement,
    displacement.position declaration.position⟩

/-- A function elsewhere. -/
def Function.displace (function : Function) : Function :=
  ⟨function.name, function.params.map (Declaration.displace displacement),
    function.locals.map (Declaration.displace displacement),
    function.body.map (Stmt.displace displacement),
    displacement.position function.position⟩

/-- A program elsewhere. -/
def Program.displace : Program → Program
  | .functions all => .functions (all.map (Function.displace displacement))
  | .statement body => .statement (body.displace displacement)

@[simp]
theorem Expr.node_displace (expr : Expr) :
    (expr.displace displacement).node = expr.node.displace displacement := by
  cases expr <;> simp [Expr.displace, Expr.node]

@[simp]
theorem Condition.position_displace (condition : Condition) :
    (condition.displace displacement).position =
      displacement.position condition.position := by
  cases condition <;> simp [Condition.displace, Condition.position]

@[simp]
theorem Stmt.position_displace (statement : Stmt) :
    (statement.displace displacement).position =
      displacement.position statement.position := by
  cases statement <;> simp [Stmt.displace, Stmt.position]

mutual

theorem Place.displace_renumber_zero :
    ∀ place : Place, place.displace (.renumber 0) = place
  | .var _ _ => by rw [Place.displace, Node.displace_renumber_zero]
  | .element _ _ index => by
    rw [Place.displace, Node.displace_renumber_zero,
      index.displace_renumber_zero]

theorem Expr.displace_renumber_zero : ∀ e : Expr, e.displace (.renumber 0) = e
  | .int _ _ => by rw [Expr.displace, Node.displace_renumber_zero]
  | .float _ _ => by rw [Expr.displace, Node.displace_renumber_zero]
  | .valueOf _ place => by
    rw [Expr.displace, Node.displace_renumber_zero,
      place.displace_renumber_zero]
  | .binary _ _ left right => by
    rw [Expr.displace, Node.displace_renumber_zero, left.displace_renumber_zero,
      right.displace_renumber_zero]
  | .signed _ _ operand => by
    rw [Expr.displace, Node.displace_renumber_zero,
      operand.displace_renumber_zero]
  | .call _ _ args => by
    rw [Expr.displace, Node.displace_renumber_zero,
      Expr.map_displace_renumber_zero args]
  | .cast _ _ operand => by
    rw [Expr.displace, Node.displace_renumber_zero,
      operand.displace_renumber_zero]

theorem Expr.map_displace_renumber_zero :
    ∀ args : List Expr, args.map (fun arg => arg.displace (.renumber 0)) = args
  | [] => rfl
  | arg :: others => by
    rw [List.map_cons, arg.displace_renumber_zero,
      Expr.map_displace_renumber_zero others]

end

/-- A condition that is not moved stays as it is. -/
theorem Condition.displace_renumber_zero (test : Condition) :
    test.displace (.renumber 0) = test := by
  induction test with
  | rel position op left right =>
      rw [Condition.displace, left.displace_renumber_zero,
        right.displace_renumber_zero]
      rfl
  | logic position op left right leftIH rightIH =>
      rw [Condition.displace, leftIH, rightIH]
      rfl
  | not position operand ih =>
      rw [Condition.displace, ih]
      rfl

end PL0
