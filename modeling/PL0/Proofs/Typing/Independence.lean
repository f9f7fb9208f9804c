import PL0.Proofs.Typing.Scopes

/-!
# Checking sees a scope table through its names

Two tables that resolve every name alike and have a loop open or not alike are
the same to every expression, condition and statement, whatever scopes they
hold and in which order.  A function opens its own scope, so all that it needs
of a table is what names stand for around it.  What the functions before it
have left behind does not matter: each function contributes the errors that it
has alone.
-/

namespace PL0

namespace ScopeTable

/-- Two tables tell the same of every name and of the loops around. -/
structure Alike (table other : ScopeTable) : Prop where
  wellFormed : table.WellFormed
  otherWellFormed : other.WellFormed
  resolve?_eq : ∀ name, table.resolve? name = other.resolve? name
  inLoop_eq : table.inLoop = other.inLoop

variable {table other : ScopeTable}

theorem Alike.placeType_eq (alike : table.Alike other) (allowArray : Bool)
    (name : String) (isIndexed : Bool) :
    table.placeType allowArray name isIndexed =
      other.placeType allowArray name isIndexed := by
  rw [placeType, placeType, alike.resolve?_eq]

theorem Alike.callParams_eq (alike : table.Alike other) (callee : String)
    (count : Nat) :
    table.callParams callee count = other.callParams callee count := by
  rw [callParams, callParams, alike.resolve?_eq]

theorem Alike.callType_eq (alike : table.Alike other) (callee : String) :
    table.callType callee = other.callType callee := by
  rw [callType, callType, alike.resolve?_eq]

theorem Alike.enterLoop (alike : table.Alike other) (position : Position) :
    (table.enterLoop position).Alike (other.enterLoop position) where
  wellFormed := alike.wellFormed.enterLoop position
  otherWellFormed := alike.otherWellFormed.enterLoop position
  resolve?_eq name := by
    rw [resolve?_enterLoop alike.wellFormed,
      resolve?_enterLoop alike.otherWellFormed]
    exact alike.resolve?_eq name
  inLoop_eq := by
    rw [inLoop_enterLoop alike.wellFormed,
      inLoop_enterLoop alike.otherWellFormed]

/-- Scopes with the same entries are alike if those around them find the
same. -/
theorem Offers.alike {listed : List (String × Binding)}
    {around otherAround : List Scope} (offers : table.Offers listed around)
    (otherOffers : other.Offers listed otherAround)
    (aroundEq : ∀ name, around.findSome? (fun scope => scope.find? name) =
      otherAround.findSome? fun scope => scope.find? name) :
    table.Alike other where
  wellFormed := offers.wellFormed
  otherWellFormed := otherOffers.wellFormed
  resolve?_eq name := by rw [offers.resolve?_eq, otherOffers.resolve?_eq,
    aroundEq]
  inLoop_eq := by rw [offers.inLoop_eq_false, otherOffers.inLoop_eq_false]

end ScopeTable

namespace Checked

section Alike

variable {table other : ScopeTable}

mutual

theorem place_alike (alike : table.Alike other) (allowArray : Bool) :
    ∀ held : Place, place table allowArray held = place other allowArray held
  | .var node name => by rw [place, place, alike.placeType_eq]
  | .element node name index => by
      rw [place, place, alike.placeType_eq, expr_alike alike false index]

theorem expr_alike (alike : table.Alike other) (allowArray : Bool) :
    ∀ e : Expr, expr table allowArray e = expr other allowArray e
  | .int node value => by rw [expr, expr]
  | .float node value => by rw [expr, expr]
  | .valueOf node held => by rw [expr, expr, place_alike alike allowArray held]
  | .binary node op left right => by
      rw [expr, expr, expr_alike alike false left, expr_alike alike false right]
  | .signed node op operand => by
      rw [expr, expr, expr_alike alike false operand]
  | .call node callee args => by
      rw [expr, expr, alike.callParams_eq, alike.callType_eq,
        exprs_alike alike args]
      simp only [arguments_alike alike callee]
  | .cast node target operand => by
      rw [expr, expr, expr_alike alike false operand]

theorem exprs_alike (alike : table.Alike other) :
    ∀ all : List Expr, exprs table all = exprs other all
  | [] => rfl
  | first :: others => by
      rw [exprs, exprs, expr_alike alike true first, exprs_alike alike others]

theorem arguments_alike (alike : table.Alike other) (callee : String) :
    ∀ (number : Nat) (params : List ValueType) (args : List Expr),
      arguments table callee number params args =
        arguments other callee number params args
  | _, [], _ => by simp only [arguments]
  | _, _ :: _, [] => by simp only [arguments]
  | number, param :: params, arg :: args => by
      rw [arguments, arguments, expr_alike alike param.isArray arg,
        arguments_alike alike callee (number + 1) params args]

end

theorem call_alike (alike : table.Alike other) (position : Position)
    (callee : String) (args : List Expr) :
    call table position callee args = call other position callee args := by
  rw [call, call, alike.callParams_eq, exprs_alike alike args]
  simp only [arguments_alike alike callee]

theorem condition_alike (alike : table.Alike other) (test : Condition) :
    condition table test = condition other test := by
  induction test with
  | rel position op left right =>
      rw [condition, condition, expr_alike alike false left,
        expr_alike alike false right]
  | logic position op left right leftIH rightIH =>
      rw [condition, condition, leftIH, rightIH]
  | not position operand ih => rw [condition, condition, ih]

end Alike

mutual

theorem stmt_alike : ∀ {table other : ScopeTable}, table.Alike other →
    ∀ s : Stmt, stmt table s = stmt other s
  | _, _, alike, .assign position target value => by
      rw [stmt, stmt, place_alike alike, expr_alike alike]
  | _, _, alike, .ifThen position test thenBranch => by
      rw [stmt, stmt, condition_alike alike, stmt_alike alike thenBranch]
  | _, _, alike, .ifElse position test thenBranch elseBranch => by
      rw [stmt, stmt, condition_alike alike, stmt_alike alike thenBranch,
        stmt_alike alike elseBranch]
  | _, _, alike, .whileDo position test body => by
      rw [stmt, stmt, condition_alike alike,
        stmt_alike (alike.enterLoop position) body]
  | _, _, alike, .block position statements => by
      rw [stmt, stmt, stmts_alike alike statements]
  | _, _, alike, .breakLoop position => by rw [stmt, stmt, alike.inLoop_eq]
  | _, _, _, .skip position => by rw [stmt, stmt]
  | _, _, alike, .returnValue position value => by
      rw [stmt, stmt, expr_alike alike]
  | _, _, alike, .read position target => by rw [stmt, stmt, place_alike alike]
  | _, _, alike, .write position value => by rw [stmt, stmt, expr_alike alike]
  | _, _, _, .print position text => by rw [stmt, stmt]
  | _, _, alike, .call position callee args => by
      rw [stmt, stmt, call_alike alike]

theorem stmts_alike : ∀ {table other : ScopeTable}, table.Alike other →
    ∀ statements : List Stmt, stmts table statements = stmts other statements
  | _, _, _, [] => by rw [stmts, stmts]
  | _, _, alike, first :: others => by
      rw [stmts, stmts, stmt_alike alike first, stmts_alike alike others]

end

section Functions

variable {table other : ScopeTable} {listed : List (String × Binding)}
  {around otherAround : List Scope}

/-- Declarations have the same faults after the same entries. -/
theorem declarations_errors_alike (role : VariableRole)
    (declared : List Declaration) (offers : table.Offers listed around)
    (otherOffers : other.Offers listed otherAround)
    (aroundEq : ∀ name, around.findSome? (fun scope => scope.find? name) =
      otherAround.findSome? fun scope => scope.find? name) :
    (declarations role table declared).errors =
      (declarations role other declared).errors := by
  induction declared generalizing table other listed with
  | nil => rfl
  | cons first others ih =>
      have sizeEq : size table first = size other first := by
        unfold size
        split
        · rw [expr_alike (offers.alike otherOffers aroundEq)]
        · rfl
      have next (binding : Binding) :=
        ih (offers_define offers (nameKind role) first.name binding)
          (offers_define otherOffers (nameKind role) first.name binding)
      simp only [declarations, errors_bind]
      rw [sizeEq, define_errors offers, define_errors otherOffers, next]

/-- A function has the same faults wherever names around it stand for the
same. -/
theorem function_errors_alike (wellFormed : table.WellFormed)
    (otherWellFormed : other.WellFormed)
    (resolve?_eq : ∀ name, table.resolve? name = other.resolve? name)
    (definition : Function) :
    (function table definition).errors =
      (function other definition).errors := by
  have aroundEq (name : String) :
      table.frames.findSome? (fun scope => scope.find? name) =
      other.frames.findSome? fun scope => scope.find? name := by
    rw [← ScopeTable.resolve?_eq_findSome?, ← ScopeTable.resolve?_eq_findSome?,
      resolve?_eq]
  have opened := wellFormed.offers_push (.function definition.name)
  have otherOpened := otherWellFormed.offers_push (.function definition.name)
  have withParams := offers_params wellFormed definition
  have otherWithParams := offers_params otherWellFormed definition
  have bodyAlike := (offers_locals wellFormed definition).alike
    (offers_locals otherWellFormed definition) aroundEq
  simp only [function, errors_bind]
  rw [declarations_errors_alike .param _ opened otherOpened aroundEq,
    declarations_errors_alike .localVar _ withParams otherWithParams aroundEq,
    stmts_alike bodyAlike]
  rfl

/-- Functions in order have the errors that each of them has alone. -/
theorem functions_errors (wellFormed : table.WellFormed)
    (definitions : List Function) :
    (functions table definitions).errors =
      definitions.flatMap fun definition =>
        (function table definition).errors := by
  induction definitions generalizing table with
  | nil => rfl
  | cons first others ih =>
      obtain ⟨leftWellFormed, framesEq⟩ := function_frames wellFormed first
      have resolvesAsBefore (name : String) :
          (function table first).value.resolve? name = table.resolve? name := by
        rw [ScopeTable.resolve?_eq_findSome?, framesEq,
          ← ScopeTable.resolve?_eq_findSome?]
      have othersEq (definition : Function) :
          (function (function table first).value definition).errors =
            (function table definition).errors :=
        function_errors_alike leftWellFormed wellFormed resolvesAsBefore
          definition
      simp only [functions, errors_bind, List.flatMap_cons, ih leftWellFormed,
        othersEq]

end Functions

end Checked

end PL0
