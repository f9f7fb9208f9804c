import PL0.Proofs.Tree.Displacement
import PL0.Typing.Analysis

/-!
# Checking elsewhere

Checking never looks at a position either.  A program that stands elsewhere is
found to have the same faults there, its nodes have the same types, and its
scopes hold the same names.
-/

namespace PL0

variable (move : Position → Position)

/-- A fault of a program that stands elsewhere. -/
def SemanticFault.relocate : SemanticFault → SemanticFault
  | .duplicate kind name previous => .duplicate kind name (move previous)
  | fault => fault

/-- An error of a program that stands elsewhere. -/
def SemanticError.relocate (error : SemanticError) : SemanticError :=
  ⟨error.fault.relocate move, move error.position⟩

/-- What a name stands for in a program that stands elsewhere. -/
def Binding.relocate : Binding → Binding
  | .function params position => .function params (move position)
  | .var type role position => .var type role (move position)

/-- A scope of a program that stands elsewhere. -/
def Scope.relocate (scope : Scope) : Scope :=
  { scope with
    meanings := scope.meanings.map fun _ binding => binding.relocate move
    loops := scope.loops.map move }

/-- The scopes of a program that stands elsewhere. -/
def ScopeTable.relocate (table : ScopeTable) : ScopeTable :=
  { table with scopes := table.scopes.map (Scope.relocate move) }

variable {move}

theorem Scope.find?_relocate (name : String) (scope : Scope) :
    (scope.relocate move).find? name =
      (scope.find? name).map (Binding.relocate move) := by
  unfold Scope.find? Scope.relocate
  exact Std.ExtTreeMap.getElem?_map

theorem Scope.empty_relocate (kind : ScopeKind) (parent? : Option ScopeId) :
    (Scope.empty kind parent?).relocate move = Scope.empty kind parent? := by
  simp [Scope.relocate, Scope.empty]

theorem Scope.add_relocate (scope : Scope) (name : String) (binding : Binding) :
    (scope.relocate move).add name (binding.relocate move) =
      (scope.add name binding).relocate move := by
  have sameMeanings :
      (scope.meanings.map fun _ found => found.relocate move).insert name
        (binding.relocate move) =
      (scope.meanings.insert name binding).map fun _ found =>
        found.relocate move := by
    apply Std.ExtTreeMap.ext_getElem?
    intro other
    simp only [Std.ExtTreeMap.getElem?_insert, Std.ExtTreeMap.getElem?_map]
    split <;> rfl
  unfold Scope.add Scope.relocate
  rw [sameMeanings]

namespace ScopeTable

variable (table : ScopeTable) (name : String)

theorem findIn?_relocate (id : ScopeId) :
    (table.relocate move).findIn? name id =
      (table.findIn? name id).map (Binding.relocate move) := by
  unfold findIn? scope? relocate
  rw [List.getElem?_map]
  cases table.scopes[id]? with
  | none => rfl
  | some scope => exact Scope.find?_relocate name scope

theorem resolveLocal?_relocate :
    (table.relocate move).resolveLocal? name =
      (table.resolveLocal? name).map (Binding.relocate move) :=
  findIn?_relocate table name table.current

theorem resolve?_relocate :
    (table.relocate move).resolve? name =
      (table.resolve? name).map (Binding.relocate move) := by
  unfold resolve?
  rw [List.map_findSome?]
  congr 1
  funext id
  exact findIn?_relocate table name id

theorem placeType_relocate (allowArray isIndexed : Bool) :
    (table.relocate move).placeType allowArray name isIndexed =
      table.placeType allowArray name isIndexed := by
  unfold placeType
  rw [resolve?_relocate]
  cases table.resolve? name with
  | none => rfl
  | some binding =>
      cases binding with
      | function params position => rfl
      | var type role position => cases type <;> rfl

theorem callParams_relocate (count : Nat) :
    (table.relocate move).callParams name count =
      table.callParams name count := by
  unfold callParams
  rw [resolve?_relocate]
  cases table.resolve? name with
  | none => rfl
  | some binding => cases binding <;> rfl

theorem callType_relocate :
    (table.relocate move).callType name = table.callType name := by
  unfold callType
  rw [resolve?_relocate]
  cases table.resolve? name with
  | none => rfl
  | some binding => cases binding <;> rfl

theorem push_relocate (kind : ScopeKind) :
    (table.relocate move).push kind = (table.push kind).relocate move := by
  simp [push, relocate, Scope.empty_relocate]

theorem pop_relocate : (table.relocate move).pop = table.pop.relocate move := by
  obtain ⟨scopes, current, outer⟩ := table
  cases outer with
  | nil => rfl
  | cons parent outer => rfl

theorem modifyCurrent_relocate {change moved : Scope → Scope}
    (alike : ∀ scope, moved (scope.relocate move) =
      (change scope).relocate move) :
    (table.relocate move).modifyCurrent moved =
      (table.modifyCurrent change).relocate move := by
  have scopesEq :
      (table.scopes.map (Scope.relocate move)).modify table.current moved =
      (table.scopes.modify table.current change).map (Scope.relocate move) := by
    apply List.ext_getElem?
    intro index
    simp only [List.getElem?_modify, List.getElem?_map]
    cases table.scopes[index]? with
    | none => rfl
    | some scope => by_cases here : table.current = index <;> simp [here, alike]
  simp only [modifyCurrent, relocate, scopesEq]

theorem enterLoop_relocate (position : Position) :
    (table.relocate move).enterLoop (move position) =
      (table.enterLoop position).relocate move := by
  unfold enterLoop
  exact modifyCurrent_relocate table fun _ => rfl

theorem inLoop_relocate : (table.relocate move).inLoop = table.inLoop := by
  unfold inLoop scope? relocate
  rw [List.getElem?_map]
  cases table.scopes[table.current]? with
  | none => rfl
  | some scope => simp [Scope.relocate]

theorem define_relocate (binding : Binding) :
    (table.relocate move).define name (binding.relocate move) =
      match table.define name binding with
      | .ok defined => .ok (defined.relocate move)
      | .error existing => .error (existing.relocate move) := by
  unfold define
  rw [resolveLocal?_relocate]
  cases table.resolveLocal? name with
  | some existing => rfl
  | none =>
      simp only [Option.map_none]
      rw [modifyCurrent_relocate table]
      exact fun scope => scope.add_relocate name binding

end ScopeTable

namespace Checked

variable {α β γ δ : Type}

/-- What checking finds in a program that stands elsewhere. -/
def relocate (move : Position → Position) (convert : α → β)
    (checked : Checked α) : Checked β :=
  ⟨convert checked.value, checked.errors.map (SemanticError.relocate move),
    checked.types⟩

theorem relocate_bind {convert : α → β} {convertNext : γ → δ}
    {checked : Checked α} {shownNext : β → Checked δ} {next : α → Checked γ}
    (further : ∀ value, shownNext (convert value) =
      (next value).relocate move convertNext) :
    checked.relocate move convert >>= shownNext =
      (checked >>= next).relocate move convertNext := by
  change Checked.mk (shownNext (convert checked.value)).value
    (checked.errors.map (SemanticError.relocate move) ++
      (shownNext (convert checked.value)).errors)
    (checked.types ++ (shownNext (convert checked.value)).types) = _
  simp only [further, relocate, value_bind, errors_bind, types_bind,
    List.map_append]

theorem relocate_bind_same {convertNext : γ → δ} {checked : Checked α}
    {shownNext : α → Checked δ} {next : α → Checked γ}
    (further : ∀ value, shownNext value =
      (next value).relocate move convertNext) :
    checked.relocate move id >>=
      shownNext = (checked >>= next).relocate move convertNext :=
  relocate_bind further

theorem report_relocate (fault : SemanticFault) (position : Position) :
    report (fault.relocate move) (move position) =
      (report fault position).relocate move id :=
  rfl

theorem record_relocate (node : Node) (type? : Option ValueType) :
    record (node.displace (.relocate move)) type? =
      (record node type?).relocate move id :=
  rfl

theorem compare_relocate (context : TypeContext) (position : Position)
    (expected? found? : Option ValueType) :
    compare context (move position) expected? found? =
      (compare context position expected? found?).relocate move id := by
  unfold compare
  split
  · split
    · rfl
    · rfl
  · rfl

variable (table : ScopeTable)

/-- A misused name does not say where it is declared. -/
theorem placeType_error_relocate {allowArray isIndexed : Bool} {name : String}
    {fault : SemanticFault}
    (failed : table.placeType allowArray name isIndexed = .error fault)
    (position : Position) :
    report fault (move position) =
      (report fault position).relocate move id := by
  have same : fault.relocate move = fault := by
    unfold ScopeTable.placeType at failed
    split at failed
    · cases failed
      rfl
    · cases failed
      rfl
    · split at failed <;> cases failed
      rfl
    · split at failed
      · cases failed
      · split at failed <;> cases failed
        rfl
  rw [← report_relocate, same]

/-- A misused function does not say where it is declared. -/
theorem callParams_error_relocate {callee : String} {count : Nat}
    {fault : SemanticFault}
    (failed : table.callParams callee count = .error fault)
    (position : Position) :
    report fault (move position) =
      (report fault position).relocate move id := by
  have same : fault.relocate move = fault := by
    unfold ScopeTable.callParams at failed
    split at failed
    · split at failed <;> cases failed
      rfl
    · cases failed
      rfl
  rw [← report_relocate, same]

mutual

theorem place_relocate (allowArray : Bool) : ∀ held : Place,
    place (table.relocate move) allowArray (held.displace (.relocate move)) =
      (place table allowArray held).relocate move id
  | .var node name => by
      rw [Place.displace, place, place, ScopeTable.placeType_relocate]
      split
      · next fault failed =>
          rw [Node.position_relocate, placeType_error_relocate table failed]
          exact relocate_bind_same fun _ => rfl
      · rw [record_relocate]
  | .element node name index => by
      rw [Place.displace, place, place, ScopeTable.placeType_relocate,
        expr_relocate false index]
      split
      · next fault failed =>
          rw [Node.position_relocate, placeType_error_relocate table failed]
          apply relocate_bind_same
          intro _
          exact relocate_bind_same fun _ => rfl
      · apply relocate_bind_same
        intro found?
        rw [Expr.node_displace, Node.position_relocate, compare_relocate]
        exact relocate_bind_same fun _ => record_relocate node _

theorem expr_relocate (allowArray : Bool) : ∀ e : Expr,
    expr (table.relocate move) allowArray (e.displace (.relocate move)) =
      (expr table allowArray e).relocate move id
  | .int node value => by rw [Expr.displace, expr, expr, record_relocate]
  | .float node value => by rw [Expr.displace, expr, expr, record_relocate]
  | .valueOf node held => by
      rw [Expr.displace, expr, expr, place_relocate]
      exact relocate_bind_same fun _ => record_relocate node _
  | .binary node op left right => by
      rw [Expr.displace, expr, expr, expr_relocate false left,
        expr_relocate false right]
      apply relocate_bind_same
      intro left?
      apply relocate_bind_same
      intro right?
      rw [Node.position_relocate, compare_relocate]
      exact relocate_bind_same fun _ => record_relocate node _
  | .signed node op operand => by
      rw [Expr.displace, expr, expr, expr_relocate false operand]
      exact relocate_bind_same fun _ => record_relocate node _
  | .call node callee args => by
      rw [Expr.displace, expr, expr, List.length_map,
        ScopeTable.callParams_relocate, ScopeTable.callType_relocate]
      split
      · rw [arguments_relocate]
        exact relocate_bind_same fun _ => record_relocate node _
      · next fault failed =>
          rw [Node.position_relocate, callParams_error_relocate table failed,
            exprs_relocate]
          apply relocate_bind_same
          intro _
          exact relocate_bind_same fun _ => record_relocate node _
  | .cast node target operand => by
      rw [Expr.displace, expr, expr, expr_relocate false operand]
      exact relocate_bind_same fun _ => record_relocate node _

theorem exprs_relocate : ∀ all : List Expr,
    exprs (table.relocate move) (all.map fun e => e.displace (.relocate move)) =
      (exprs table all).relocate move id
  | [] => rfl
  | first :: others => by
      rw [List.map_cons, exprs, exprs, expr_relocate true first,
        exprs_relocate others]
      exact relocate_bind_same fun _ => rfl

theorem arguments_relocate (callee : String) (number : Nat) :
    ∀ (params : List ValueType) (args : List Expr),
    arguments (table.relocate move) callee number params
        (args.map fun arg => arg.displace (.relocate move)) =
      (arguments table callee number params args).relocate move id
  | [], [] => rfl
  | [], arg :: args => rfl
  | param :: params, [] => rfl
  | param :: params, arg :: args => by
      rw [List.map_cons, arguments, arguments, expr_relocate param.isArray arg,
        Expr.node_displace, arguments_relocate callee (number + 1) params args]
      apply relocate_bind_same
      intro found?
      rw [Node.position_relocate, compare_relocate]
      exact relocate_bind_same fun _ => rfl

end

theorem call_relocate (position : Position) (callee : String)
    (args : List Expr) :
    call (table.relocate move) (move position) callee
        (args.map (Expr.displace (.relocate move))) =
      (call table position callee args).relocate move id := by
  rw [call, call, List.length_map, ScopeTable.callParams_relocate]
  split
  · exact arguments_relocate table callee 1 _ args
  · next fault failed =>
      rw [callParams_error_relocate table failed]
      exact relocate_bind_same fun _ => exprs_relocate table args

theorem condition_relocate (test : Condition) :
    condition (table.relocate move) (test.displace (.relocate move)) =
      (condition table test).relocate move id := by
  induction test with
  | rel position op left right =>
      rw [Condition.displace, condition, condition, expr_relocate,
        expr_relocate]
      apply relocate_bind_same
      intro left?
      exact relocate_bind_same fun right? =>
        compare_relocate _ position left? right?
  | logic position op left right leftIH rightIH =>
      rw [Condition.displace, condition, condition, leftIH, rightIH]
      exact relocate_bind_same fun _ => rfl
  | not position operand ih => rw [Condition.displace, condition, condition, ih]

mutual

theorem stmt_relocate : ∀ (table : ScopeTable) (s : Stmt),
    stmt (table.relocate move) (s.displace (.relocate move)) =
      (stmt table s).relocate move id
  | table, .assign position target value => by
      rw [Stmt.displace, stmt, stmt, place_relocate, expr_relocate]
      apply relocate_bind_same
      intro target?
      exact relocate_bind_same fun value? =>
        compare_relocate _ position target? value?
  | table, .ifThen position test thenBranch => by
      rw [Stmt.displace, stmt, stmt, condition_relocate,
        stmt_relocate table thenBranch]
      exact relocate_bind_same fun _ => rfl
  | table, .ifElse position test thenBranch elseBranch => by
      rw [Stmt.displace, stmt, stmt, condition_relocate,
        stmt_relocate table thenBranch, stmt_relocate table elseBranch]
      apply relocate_bind_same
      intro _
      exact relocate_bind_same fun _ => rfl
  | table, .whileDo position test body => by
      rw [Stmt.displace, stmt, stmt, condition_relocate]
      apply relocate_bind_same
      intro _
      rw [← stmt_relocate (table.enterLoop position) body,
        ← ScopeTable.enterLoop_relocate]
      rfl
  | table, .block position statements => by
      rw [Stmt.displace, stmt, stmt]
      exact stmts_relocate table statements
  | table, .breakLoop position => by
      rw [Stmt.displace, stmt, stmt, ScopeTable.inLoop_relocate]
      split
      · rfl
      · rfl
  | table, .skip position => by
      rw [Stmt.displace]
      rfl
  | table, .returnValue position value => by
      rw [Stmt.displace, stmt, stmt, expr_relocate]
      exact relocate_bind_same fun value? =>
        compare_relocate _ position _ value?
  | table, .read position target => by
      rw [Stmt.displace, stmt, stmt, place_relocate]
      exact relocate_bind_same fun _ => rfl
  | table, .write position value => by
      rw [Stmt.displace, stmt, stmt, expr_relocate]
      exact relocate_bind_same fun _ => rfl
  | table, .print position text => by
      rw [Stmt.displace]
      rfl
  | table, .call position callee args => by
      rw [Stmt.displace, stmt, stmt]
      exact call_relocate table position callee args

theorem stmts_relocate : ∀ (table : ScopeTable) (all : List Stmt),
    stmts (table.relocate move) (all.map fun s => s.displace (.relocate move)) =
      (stmts table all).relocate move id
  | table, [] => rfl
  | table, first :: others => by
      rw [List.map_cons, stmts, stmts, stmt_relocate table first,
        stmts_relocate table others]
      exact relocate_bind_same fun _ => rfl

end

theorem define_relocate (kind : NameKind) (name : String) (binding : Binding) :
    define (table.relocate move) kind name (binding.relocate move) =
      (define table kind name binding).relocate move
        (ScopeTable.relocate move) := by
  have positionEq (binding : Binding) :
      (binding.relocate move).position = move binding.position := by
    cases binding <;> rfl
  unfold define
  rw [ScopeTable.define_relocate]
  cases table.define name binding with
  | ok defined => rfl
  | error existing =>
      simp only [positionEq]
      rfl

theorem valueType_displace (type : DeclaredType) :
    (type.displace (.relocate move)).valueType = type.valueType := by
  obtain ⟨base, size?⟩ := type
  cases size? <;> rfl

theorem size_relocate (declaration : Declaration) :
    size (table.relocate move) (declaration.displace (.relocate move)) =
      (size table declaration).relocate move id := by
  obtain ⟨name, ⟨base, size?⟩, position⟩ := declaration
  cases size? with
  | none => rfl
  | some size =>
      cases size with
      | fixed count => rfl
      | dynamic count =>
          change (expr (table.relocate move) false
            (count.displace (.relocate move)) >>= _) = _
          rw [expr_relocate]
          exact relocate_bind_same fun count? => by
            rw [Expr.node_displace]
            exact compare_relocate _ count.node.position _ count?

theorem declarations_relocate (role : VariableRole) (all : List Declaration) :
    declarations role (table.relocate move)
      (all.map (Declaration.displace (.relocate move))) =
      (declarations role table all).relocate move
        (ScopeTable.relocate move) := by
  induction all generalizing table with
  | nil => rfl
  | cons first others ih =>
      have defined : define (table.relocate move) (nameKind role) first.name
          (.var (first.type.displace (.relocate move)).valueType role
            (move first.position)) =
          (define table (nameKind role) first.name
            (.var first.type.valueType role first.position)).relocate move
              (ScopeTable.relocate move) := by
        rw [valueType_displace]
        exact define_relocate table _ _
          (.var first.type.valueType role first.position)
      rw [List.map_cons, declarations, declarations, size_relocate]
      apply relocate_bind_same
      intro _
      exact Eq.trans (congrArg (· >>= _) defined) (relocate_bind fun table =>
        ih table)

theorem signatures_relocate (all : List Function) :
    signatures (table.relocate move)
      (all.map (Function.displace (.relocate move))) =
      (signatures table all).relocate move (ScopeTable.relocate move) := by
  induction all generalizing table with
  | nil => rfl
  | cons first others ih =>
      have paramsEq : (first.displace (.relocate move)).params.map
          (fun param => param.type.valueType) =
          first.params.map fun param => param.type.valueType := by
        change (first.params.map _).map _ = _
        rw [List.map_map]
        exact List.map_congr_left fun param _ => valueType_displace param.type
      rw [List.map_cons, signatures, signatures, paramsEq]
      have defined :
          define (table.relocate move) .function
            (first.displace (.relocate move)).name
            (.function (first.params.map fun param => param.type.valueType)
              (first.displace (.relocate move)).position) =
            (define table .function first.name
              (.function (first.params.map fun param => param.type.valueType)
                first.position)).relocate move (ScopeTable.relocate move) :=
        define_relocate table .function first.name
          (.function (first.params.map fun param =>
            param.type.valueType) first.position)
      rw [defined]
      exact relocate_bind fun table => ih table

theorem function_relocate (definition : Function) :
    function (table.relocate move) (definition.displace (.relocate move)) =
      (function table definition).relocate move (ScopeTable.relocate move) := by
  unfold function
  simp only [ScopeTable.push_relocate]
  change (declarations .param _
    (definition.params.map (Declaration.displace (.relocate move)))
    >>= _) = _
  rw [declarations_relocate]
  apply relocate_bind
  intro withParams
  change (declarations .localVar _
    (definition.locals.map (Declaration.displace (.relocate move)))
    >>= _) = _
  rw [declarations_relocate]
  apply relocate_bind
  intro withLocals
  change (stmts _ (definition.body.map fun s => s.displace (.relocate move)) >>=
    _) = _
  rw [stmts_relocate]
  apply relocate_bind_same
  intro _
  rw [ScopeTable.pop_relocate]
  rfl

theorem functions_relocate (all : List Function) :
    functions (table.relocate move)
      (all.map (Function.displace (.relocate move))) =
      (functions table all).relocate move (ScopeTable.relocate move) := by
  induction all generalizing table with
  | nil => rfl
  | cons first others ih =>
      rw [List.map_cons, functions, functions, function_relocate]
      exact relocate_bind fun table => ih table

/-- That there is no function to start in is reported at the last function, if
there is one. -/
theorem start_relocate {all : List Function} (some : all ≠ []) :
    start (table.relocate move) (all.map (Function.displace (.relocate move))) =
      (start table all).relocate move id := by
  unfold start
  rw [ScopeTable.resolveLocal?_relocate, Option.isSome_map, List.getLast?_map,
    List.getLast?_eq_some_getLast some]
  split
  · rfl
  · rfl

/-- Checking finds the same in a program that stands elsewhere. -/
theorem program_relocate {tree : Program} (some : tree ≠ .functions []) :
    program (tree.displace (.relocate move)) =
      (program tree).relocate move (ScopeTable.relocate move) := by
  have initialEq : ScopeTable.initial.relocate move = .initial := rfl
  cases tree with
  | functions all =>
      rw [Program.displace, program, program, ← initialEq, signatures_relocate]
      apply relocate_bind
      intro table
      rw [start_relocate table (by simpa using some)]
      exact relocate_bind_same fun _ => functions_relocate table all
  | statement body =>
      have defined : define .initial .function entryPoint
          (.function [] (body.displace (.relocate move)).position) =
          (define .initial .function entryPoint
            (.function [] body.position)).relocate move
            (ScopeTable.relocate move) := by
        rw [Stmt.position_displace]
        exact define_relocate .initial .function entryPoint
          (.function [] body.position)
      rw [Program.displace, program, program, defined]
      apply relocate_bind
      intro table
      simp only [ScopeTable.push_relocate]
      rw [stmt_relocate]
      apply relocate_bind_same
      intro _
      rw [ScopeTable.pop_relocate]
      rfl

end Checked

end PL0
