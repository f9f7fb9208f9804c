import PL0.Proofs.Typing.Exactness
import PL0.Proofs.Typing.Scopes

/-!
# The types that checking records

In an environment everything that occurs in a tree has a type that can be read
off the declarations.  The number of an occurrence together with this type is
its annotation.  Checking a well-typed program records the annotations of all
its occurrences, in the order in which they are listed, and nothing else.
-/

namespace PL0

/-- The declared type of a variable. -/
def Environment.varType (environment : Environment) (name : String) :
    ValueType :=
  (environment.vars.lookup name).getD .int

/-- The type of what a place holds. -/
def Place.typeIn (environment : Environment) : Place → ValueType
  | .var _ name => environment.varType name
  | .element _ name _ => .scalar (environment.varType name).base

/-- The type of an expression. -/
def Expr.typeIn (environment : Environment) : Expr → ValueType
  | .int .. => .int
  | .float .. => .float
  | .valueOf _ place => place.typeIn environment
  | .binary _ _ left _ => left.typeIn environment
  | .signed _ _ operand => operand.typeIn environment
  | .call .. => .int
  | .cast _ target _ => .scalar target

/-- The number of an occurrence and its type. -/
def Occurrence.annotation (environment : Environment)
    (occurrence : Occurrence) : NodeId × ValueType :=
  (occurrence.node.id,
    match occurrence with
    | .place held => held.typeIn environment
    | .expr e => e.typeIn environment)

/-- The annotations of all that occurs in a function, among the given
functions. -/
def Function.annotations (functions : List (String × List ValueType))
    (function : Function) : List (NodeId × ValueType) :=
  function.occurrences.map
    (Occurrence.annotation (function.environment functions))

/-- The annotations of all that occurs in a program. -/
def Program.annotations (program : Program) : List (NodeId × ValueType) :=
  program.definitions.flatMap (Function.annotations program.signatures)

theorem Program.map_fst_annotations (program : Program) :
    program.annotations.map Prod.fst = program.ids := by
  simp [Program.annotations, Program.ids, Occurrence.ids, Program.occurrences,
    Function.annotations, List.map_flatMap, Occurrence.annotation,
    Function.comp_def]

/-- Two environments give the variables of the first the same types. -/
def Environment.Agrees (environment other : Environment) : Prop :=
  ∀ name type, (name, type) ∈ environment.vars → other.varType name = type

theorem Environment.agrees_of_subset {environment other : Environment}
    (distinct : (other.vars.map Prod.fst).Nodup)
    (subset : environment.vars ⊆ other.vars) :
    environment.Agrees other := by
  intro name type member
  have found : other.vars.lookup name = some type :=
    (lookup_eq_some_iff_mem distinct).mpr (subset member)
  simp [Environment.varType, found]

section Types

variable {environment other : Environment}

theorem Place.HasType.typeIn_eq (agrees : environment.Agrees other)
    {held : Place} {base : BaseType} (typing : held.HasType environment base) :
    held.typeIn other = .scalar base := by
  cases typing with
  | var declared => exact agrees _ _ declared
  | element declared _ => simp [Place.typeIn, agrees _ _ declared,
      ValueType.base]

private theorem Expr.typeIn_eq_of_hasType (agrees : environment.Agrees other) :
    ∀ (e : Expr) {base : BaseType}, e.HasType environment base →
      e.typeIn other = .scalar base
  | .int .., _, .int => rfl
  | .float .., _, .float => rfl
  | .valueOf _ _, _, .valueOf heldTyped => heldTyped.typeIn_eq agrees
  | .binary _ _ left _, _, .binary leftTyped _ =>
      Expr.typeIn_eq_of_hasType agrees left leftTyped
  | .signed _ _ operand, _, .signed operandTyped =>
      Expr.typeIn_eq_of_hasType agrees operand operandTyped
  | .call _ _ _, _, .call _ _ => rfl
  | .cast _ _ _, _, .cast _ => rfl

theorem Expr.HasType.typeIn_eq (agrees : environment.Agrees other) {e : Expr}
    {base : BaseType} (typing : e.HasType environment base) :
    e.typeIn other = .scalar base :=
  Expr.typeIn_eq_of_hasType agrees e typing

end Types

namespace Checked

@[simp]
theorem types_report (fault : SemanticFault) (position : Position) :
    (report fault position).types = [] :=
  rfl

@[simp]
theorem types_compare (context : TypeContext) (position : Position)
    (expected? found? : Option ValueType) :
    (compare context position expected? found?).types = [] := by
  unfold compare
  split
  · split <;> rfl
  · rfl

theorem types_record_some (node : Node) (type : ValueType) :
    (record node (some type)).types = [(node.id, type)] :=
  rfl

section Expressions

variable {table : ScopeTable} {environment other : Environment}

mutual

/-- A well-typed place has its annotations recorded, as read in any
environment that agrees on the variables. -/
theorem place_types (represents : table.Represents environment)
    (agrees : environment.Agrees other) (allowArray : Bool) :
    ∀ {held : Place} {base : BaseType}, held.HasType environment base →
      (place table allowArray held).types =
        held.occurrences.map (Occurrence.annotation other)
  | .var node name, base, typing => by
      cases typing with
      | var declared =>
          have typed :=
            (represents.placeType_scalar_iff allowArray name base).mpr declared
          have typeEq := agrees _ _ declared
          simp [place, typed, types_record_some, Place.occurrences,
            Occurrence.annotation, Occurrence.node, Place.node,
            Place.typeIn, typeEq]
  | .element node name index, base, typing => by
      have typeEq := typing.typeIn_eq agrees
      cases typing with
      | element declared indexTyped =>
          have typed :=
            (represents.placeType_element_iff allowArray name
              (.scalar base)).mpr
            ⟨base, rfl, declared⟩
          have indexTypes := expr_types represents agrees false indexTyped
          simp [place, typed, types_record_some, Place.occurrences,
            Occurrence.annotation, Occurrence.node, Place.node, typeEq,
            indexTypes]

theorem expr_types (represents : table.Represents environment)
    (agrees : environment.Agrees other) (allowArray : Bool) :
    ∀ {e : Expr} {base : BaseType}, e.HasType environment base →
      (expr table allowArray e).types =
        e.occurrences.map (Occurrence.annotation other)
  | .int node value, _, .int => rfl
  | .float node value, _, .float => rfl
  | .valueOf node held, base, typing => by
      have typeEq := typing.typeIn_eq agrees
      cases typing with
      | valueOf heldTyped =>
          have found :=
            ((place_accepts_iff represents allowArray held base).mpr
              heldTyped).2
          have heldTypes := place_types represents agrees allowArray heldTyped
          simp [expr, found, types_record_some, Expr.occurrences,
            Occurrence.annotation, Occurrence.node, Expr.node, typeEq,
            heldTypes]
  | .binary node op left right, base, typing => by
      have typeEq := typing.typeIn_eq agrees
      have found := ((expr_accepts_iff represents false _ base).mpr typing).2
      simp only [expr, value_bind, value_record] at found
      cases typing with
      | binary leftTyped rightTyped =>
          have leftTypes := expr_types represents agrees false leftTyped
          have rightTypes := expr_types represents agrees false rightTyped
          simp [expr, found, types_record_some, Expr.occurrences,
            Occurrence.annotation, Occurrence.node, Expr.node, typeEq,
            leftTypes, rightTypes]
  | .signed node op operand, base, typing => by
      have typeEq := typing.typeIn_eq agrees
      cases typing with
      | signed operandTyped =>
          have found :=
            ((expr_accepts_iff represents false operand base).mpr
              operandTyped).2
          have operandTypes := expr_types represents agrees false operandTyped
          simp [expr, found, types_record_some, Expr.occurrences,
            Occurrence.annotation, Occurrence.node, Expr.node, typeEq,
            operandTypes]
  | .call node callee args, _, typing => by
      cases typing with
      | @call _ _ _ params calls argsTyped =>
          have known :=
            (represents.callParams_eq_ok_iff callee args.length params).mpr
            ⟨calls, argsTyped.length_eq.symm⟩
          have argTypes := arguments_types represents agrees argsTyped callee 1
          simp [expr_call_eq, call, known,
            ScopeTable.callType_of_callParams known, types_record_some,
            Expr.occurrences, Occurrence.annotation, Occurrence.node,
            Expr.node, Expr.typeIn, argTypes]
  | .cast node target operand, _, typing => by
      cases typing with
      | cast operandTyped =>
          have operandTypes := expr_types represents agrees false operandTyped
          simp [expr, types_record_some, Expr.occurrences,
            Occurrence.annotation, Occurrence.node, Expr.node, Expr.typeIn,
            operandTypes]

theorem arguments_types (represents : table.Represents environment)
    (agrees : environment.Agrees other) :
    ∀ {args : List Expr} {params : List ValueType},
      List.Forall₂ (Expr.PassesAs environment) args params →
        ∀ (callee : String) (number : Nat),
          (arguments table callee number params args).types =
            (Expr.allOccurrences args).map (Occurrence.annotation other)
  | [], _, .nil, callee, number => by simp [arguments, Expr.allOccurrences]
  | arg :: args, param :: params, .cons argPasses argsPass, callee, number => by
      have argTypes : (expr table param.isArray arg).types =
          arg.occurrences.map (Occurrence.annotation other) := by
        cases argPasses with
        | scalar argTyped => exact expr_types represents agrees _ argTyped
        | @array node placeNode name base declared =>
            have typed :=
              (represents.placeType_array_iff true name base).mpr ⟨rfl,
                declared⟩
            have typeEq := agrees _ _ declared
            simp [expr, place, ValueType.isArray, typed, types_record_some,
              Expr.occurrences, Place.occurrences, Occurrence.annotation,
              Occurrence.node, Expr.node, Place.node,
              Expr.typeIn, Place.typeIn, typeEq]
      have argsTypes :=
        arguments_types represents agrees argsPass callee (number + 1)
      simp [arguments, argTypes, argsTypes, Expr.allOccurrences]

end

end Expressions

section Statements

variable {environment other : Environment}

theorem condition_types {table : ScopeTable}
    (represents : table.Represents environment)
    (agrees : environment.Agrees other) {test : Condition}
    (typing : test.WellTyped environment) :
    (condition table test).types =
      test.occurrences.map (Occurrence.annotation other) := by
  induction typing with
  | rel leftTyped rightTyped =>
      simp [condition, Condition.occurrences,
        expr_types represents agrees false leftTyped,
        expr_types represents agrees false rightTyped]
  | logic _ _ leftIH rightIH =>
      simp [condition, Condition.occurrences, leftIH, rightIH]
  | not _ ih => simpa [condition, Condition.occurrences] using ih

theorem call_types {table : ScopeTable}
    (represents : table.Represents environment)
    (agrees : environment.Agrees other) (position : Position) {callee : String}
    {args : List Expr} {params : List ValueType}
    (calls : environment.Calls callee params)
    (argsTyped : List.Forall₂ (Expr.PassesAs environment) args params) :
    (call table position callee args).types =
      (Expr.allOccurrences args).map (Occurrence.annotation other) := by
  have known := (represents.callParams_eq_ok_iff callee args.length params).mpr
    ⟨calls, argsTyped.length_eq.symm⟩
  simpa [call, known] using arguments_types represents agrees argsTyped callee 1

mutual

theorem stmt_types (agrees : environment.Agrees other) :
    ∀ (s : Stmt) {table : ScopeTable} {inLoop : Bool}, table.WellFormed →
      table.Represents environment → s.WellTyped environment inLoop →
        (stmt table s).types = s.occurrences.map (Occurrence.annotation other)
  | .assign position target value, table, _, _, represents, typing => by
      cases typing with
      | assign targetTyped valueTyped =>
          simp [stmt, Stmt.occurrences,
            place_types represents agrees false targetTyped,
            expr_types represents agrees false valueTyped]
  | .ifThen position test thenBranch, table, _, wellFormed, represents,
      typing => by
      cases typing with
      | ifThen testTyped thenTyped =>
          simp [stmt, Stmt.occurrences,
            condition_types represents agrees testTyped,
            stmt_types agrees thenBranch wellFormed represents thenTyped]
  | .ifElse position test thenBranch elseBranch, table, _, wellFormed,
      represents, typing => by
      cases typing with
      | ifElse testTyped thenTyped elseTyped =>
          simp [stmt, Stmt.occurrences,
            condition_types represents agrees testTyped,
            stmt_types agrees thenBranch wellFormed represents thenTyped,
            stmt_types agrees elseBranch wellFormed represents elseTyped]
  | .whileDo position test body, table, _, wellFormed, represents, typing => by
      cases typing with
      | whileDo testTyped bodyTyped =>
          have inside := represents_enterLoop wellFormed represents position
          simp [stmt, Stmt.occurrences,
            condition_types represents agrees testTyped,
            stmt_types agrees body (wellFormed.enterLoop position) inside
              bodyTyped]
  | .block position statements, table, _, wellFormed, represents, typing => by
      cases typing with
      | block allTyped =>
          simpa [stmt, Stmt.occurrences] using
            stmts_types agrees statements wellFormed represents allTyped
  | .breakLoop position, table, _, _, _, _ => by
      simp only [stmt, Stmt.occurrences, List.map_nil]
      split <;> rfl
  | .skip _, _, _, _, _, _ => rfl
  | .returnValue position value, table, _, _, represents, typing => by
      cases typing with
      | returnValue valueTyped =>
          simp [stmt, Stmt.occurrences,
            expr_types represents agrees false valueTyped]
  | .read position target, table, _, _, represents, typing => by
      cases typing with
      | read targetTyped =>
          simp [stmt, Stmt.occurrences,
            place_types represents agrees false targetTyped]
  | .write position value, table, _, _, represents, typing => by
      cases typing with
      | write valueTyped =>
          simp [stmt, Stmt.occurrences,
            expr_types represents agrees false valueTyped]
  | .print .., _, _, _, _, _ => rfl
  | .call position callee args, table, _, _, represents, typing => by
      cases typing with
      | call calls argsTyped =>
          simpa [stmt, Stmt.occurrences] using
            call_types represents agrees position calls argsTyped

theorem stmts_types (agrees : environment.Agrees other) :
    ∀ (statements : List Stmt) {table : ScopeTable} {inLoop : Bool},
      table.WellFormed → table.Represents environment →
        (∀ statement ∈ statements, statement.WellTyped environment inLoop) →
          (stmts table statements).types =
            (Stmt.allOccurrences statements).map (Occurrence.annotation other)
  | [], _, _, _, _, _ => rfl
  | first :: others, table, _, wellFormed, represents, typing => by
      obtain ⟨firstTyped, othersTyped⟩ := List.forall_mem_cons.mp typing
      simp [stmts, Stmt.allOccurrences,
        stmt_types agrees first wellFormed represents firstTyped,
        stmts_types agrees others wellFormed represents othersTyped]

end

end Statements

section Functions

theorem size_types {table : ScopeTable} {environment other : Environment}
    (holds : table.Holds environment) (agrees : environment.Agrees other)
    {declaration : Declaration} (clean : (size table declaration).errors = []) :
    (size table declaration).types =
      declaration.occurrences.map (Occurrence.annotation other) := by
  have typed := (size_errors_eq_nil_iff holds declaration).mp clean
  cases sizeEq : declaration.type.size? with
  | none => simp [size, Declaration.occurrences, sizeEq]
  | some arraySize =>
      cases arraySize with
      | fixed count => simp [size, Declaration.occurrences, sizeEq]
      | dynamic count =>
          simp [size, Declaration.occurrences, sizeEq,
            expr_types holds.represents agrees false (typed count sizeEq)]

@[simp]
theorem types_define (table : ScopeTable) (kind : NameKind) (name : String)
    (binding : Binding) : (define table kind name binding).types = [] := by
  unfold define
  split <;> rfl

theorem declarations_types (role : VariableRole) {other : Environment}
    (declared : List Declaration) {table : ScopeTable}
    {environment : Environment}
    (holds : table.Holds environment)
    (agrees : (environment.declare declared).Agrees other)
    (clean : (declarations role table declared).errors = []) :
    (declarations role table declared).types =
      (declared.flatMap Declaration.occurrences).map
        (Occurrence.annotation other) := by
  induction declared generalizing table environment with
  | nil => rfl
  | cons first others ih =>
      simp only [declarations, errors_bind, List.append_eq_nil_iff] at clean
      obtain ⟨sizeClean, nameClean, othersClean⟩ := clean
      have fresh := (define_var_errors_eq_nil_iff holds _ _ _).mp nameClean
      have next := holds_define_var holds (nameKind role) first role fresh
      have sizeAgrees : environment.Agrees other := by
        intro name type member
        exact agrees name type (List.mem_append_left _ member)
      rw [Environment.declare_cons] at agrees
      simp [declarations, size_types holds sizeAgrees sizeClean,
        ih next agrees othersClean]

theorem function_types {table : ScopeTable}
    {known : List (String × List ValueType)}
    (holds : table.HoldsFunctions known) {definition : Function}
    (clean : (function table definition).errors = []) :
    (function table definition).types = definition.annotations known := by
  have wellTyped := (function_errors_eq_nil_iff holds definition).1.mp clean
  simp only [function, errors_bind, errors_pure, List.append_eq_nil_iff,
    and_true] at clean
  obtain ⟨paramsClean, localsClean, _⟩ := clean
  have opened := holds_push holds (.function definition.name)
  have paramsHold :=
    (declarations_errors_eq_nil_iff .param definition.params opened).2
      paramsClean
  have localsHold :=
    (declarations_errors_eq_nil_iff .localVar definition.locals paramsHold).2
      localsClean
  have distinct : ((definition.environment known).vars.map Prod.fst).Nodup := by
    rw [definition.map_fst_environment_vars]
    exact wellTyped.distinct
  have bodyAgrees :
      (definition.environment known).Agrees (definition.environment known) :=
    Environment.agrees_of_subset distinct (List.Subset.refl _)
  have localsAgree :
      (((⟨known, []⟩ : Environment).declare definition.params).declare
        definition.locals).Agrees (definition.environment known) := by
    rw [definition.declare_params_locals known]
    exact bodyAgrees
  have paramsAgree :
      ((⟨known, []⟩ : Environment).declare definition.params).Agrees
        (definition.environment known) := by
    intro name type member
    exact localsAgree name type (List.mem_append_left _ member)
  have bodyHolds := localsHold
  rw [definition.declare_params_locals known] at bodyHolds
  have paramTypes := declarations_types .param _ opened paramsAgree paramsClean
  have localTypes :=
    declarations_types .localVar _ paramsHold localsAgree localsClean
  have bodyTypes :=
    stmts_types bodyAgrees _ bodyHolds.wellFormed bodyHolds.represents
    wellTyped.body
  simp [function, paramTypes, localTypes, bodyTypes, Function.annotations,
    Function.occurrences, Function.declarations]

theorem functions_types {table : ScopeTable}
    {known : List (String × List ValueType)} (definitions : List Function)
    (holds : table.HoldsFunctions known)
    (clean : (functions table definitions).errors = []) :
    (functions table definitions).types =
      definitions.flatMap (Function.annotations known) := by
  induction definitions generalizing table with
  | nil => rfl
  | cons first others ih =>
      simp only [functions, errors_bind, List.append_eq_nil_iff] at clean
      obtain ⟨firstClean, othersClean⟩ := clean
      have next := (function_errors_eq_nil_iff holds first).2 firstClean
      simp [functions, function_types holds firstClean, ih next othersClean]

@[simp]
theorem types_signatures (table : ScopeTable) (definitions : List Function) :
    (signatures table definitions).types = [] := by
  induction definitions generalizing table with
  | nil => rfl
  | cons first others ih => simp [signatures, ih]

@[simp]
theorem types_start (table : ScopeTable) (definitions : List Function) :
    (start table definitions).types = [] := by
  unfold start
  split <;> rfl

end Functions

/-- Checking a program without faults records its annotations. -/
theorem program_types {tree : Program} (clean : (program tree).errors = []) :
    (program tree).types = tree.annotations := by
  have viaFunctions :
      (program tree).types = (program (.functions tree.definitions)).types := by
    cases tree with
    | functions all => rfl
    | statement body =>
        simp [program, signatures, functions, function, declarations, stmts,
          Program.definitions]
  have functionsClean :
      (program (.functions tree.definitions)).errors = [] := by
    cases tree with
    | functions all => exact clean
    | statement body => rwa [← program_statement_errors]
  simp only [program, errors_bind, List.append_eq_nil_iff] at functionsClean
  obtain ⟨namesClean, _, bodiesClean⟩ := functionsClean
  have holds :=
    (signatures_errors_eq_nil_iff holdsFunctions_initial tree.definitions).2
    namesClean
  rw [viaFunctions]
  simpa [program, Program.annotations, Program.signatures] using
    functions_types tree.definitions holds bodiesClean

end Checked

/-- The table that checking leaves has entries for the nodes of the program
only. -/
theorem mem_analyse_types_iff {program : Program}
    (accepted : (analyse program).errors = []) (id : NodeId) :
    id ∈ (analyse program).types ↔ id ∈ program.ids := by
  have recorded : (Checked.program program).types = program.annotations :=
    Checked.program_types accepted
  rw [analyse, Std.TreeMap.mem_ofList, recorded, program.map_fst_annotations]
  simp

/-- Where every node has a number of its own, the table that checking leaves
has the annotations. -/
theorem getElem?_analyse_types {program : Program}
    (accepted : (analyse program).errors = []) (distinct : program.ids.Nodup)
    {id : NodeId} {type : ValueType}
    (annotated : (id, type) ∈ program.annotations) :
    (analyse program).types[id]? = some type := by
  have recorded : (Checked.program program).types = program.annotations :=
    Checked.program_types accepted
  rw [← program.map_fst_annotations] at distinct
  have keysDistinct : program.annotations.Pairwise fun first second =>
      ¬ compare first.1 second.1 = .eq := by
    refine (List.pairwise_map.mp distinct).imp ?_
    intro first second different same
    exact different (Nat.compare_eq_eq.mp same)
  rw [analyse, recorded]
  exact Std.TreeMap.getElem?_ofList_of_mem (Nat.compare_eq_eq.mpr rfl)
    keysDistinct annotated

end PL0
