import PL0.Proofs.Tree.Mentions
import PL0.Proofs.Typing.Exactness
import PL0.Proofs.Typing.Independence

/-!
# Names that stand for nothing and breaks that leave nothing

Whether a place or a call has a meaning, whether a call has as many arguments
as there are parameters, and whether a `break` has a loop around it can be
told from what is declared, without types.  Of these faults checking reports
each where it occurs, once and in the order of the text: none is silenced by
another fault around or beside it, and none is found twice.
-/

namespace PL0

/-- A name without a meaning, a wrong number of arguments or a `break` outside
a loop. -/
def SemanticFault.isStray : SemanticFault → Bool
  | .undefined .. => true
  | .arity .. => true
  | .breakOutsideLoop => true
  | _ => false

namespace Environment

/-- How many parameters a function has that can be called by a name.  Of
functions with the same name the first one counts. -/
def arity? (environment : Environment) (callee : String) : Option Nat :=
  if callee ∈ environment.vars.map Prod.fst then none
  else (environment.functions.lookup callee).map List.length

/-- What is wrong with a mention, told from the declarations alone. -/
def stray? (environment : Environment) : Mention → Option SemanticFault
  | .place _ name =>
    if name ∈ environment.vars.map Prod.fst ∨
      name ∈ environment.functions.map Prod.fst then none
    else some (.undefined .var name)
  | .call _ callee count =>
    match environment.arity? callee with
    | none => some (.undefined .function callee)
    | some expected => if expected = count then none
        else some (.arity callee expected count)
  | .breakLoop _ inLoop => if inLoop then none else some .breakOutsideLoop

/-- The errors that mentions are, each of them by itself. -/
def strays (environment : Environment) (mentions : List Mention) :
    List SemanticError :=
  mentions.filterMap fun mention =>
    (environment.stray? mention).map fun fault => ⟨fault, mention.position⟩

/-- The errors in the sizes of declarations, each size where the declarations
before it are known. -/
def sizeStrays (environment : Environment) :
    List Declaration → List SemanticError
  | [] => []
  | first :: others =>
    environment.strays first.mentions ++
      (environment.declare [first]).sizeStrays others

end Environment

/-- The errors that the mentions of a function are, among the given functions:
in the sizes of its parameters and its locals, then in its body. -/
def Function.strays (functions : List (String × List ValueType))
    (function : Function) : List SemanticError :=
  (⟨functions, []⟩ : Environment).sizeStrays function.declarations ++
    (function.environment functions).strays
      (Stmt.allMentions false function.body)

/-- The errors that the mentions of a program are, function by function. -/
def Program.strays (program : Program) : List SemanticError :=
  program.definitions.flatMap (Function.strays program.signatures)

namespace Environment

variable {environment : Environment}

theorem strays_cons (mention : Mention) (others : List Mention) :
    environment.strays (mention :: others) =
      ((environment.stray? mention).toList.map fun fault =>
        ⟨fault, mention.position⟩) ++
        environment.strays others := by
  unfold strays
  cases found : environment.stray? mention <;> simp [found]

@[simp]
theorem strays_append (first second : List Mention) :
    environment.strays (first ++ second) =
      environment.strays first ++ environment.strays second :=
  List.filterMap_append

end Environment

/-- A table resolves names to what an environment declares first. -/
structure ScopeTable.Resolves (table : ScopeTable) (environment : Environment) :
    Prop where
  var : ∀ name type, environment.vars.lookup name = some type →
    ∃ role position, table.resolve? name = some (.var type role position)
  function : ∀ name params, environment.vars.lookup name = none →
    environment.functions.lookup name = some params →
      ∃ position, table.resolve? name = some (.function params position)
  undeclared : ∀ name, environment.vars.lookup name = none →
    environment.functions.lookup name = none → table.resolve? name = none

namespace ScopeTable

variable {table : ScopeTable} {environment : Environment}

/-- A place has a stray name exactly if its fault is that the name has no
meaning. -/
theorem Resolves.stray?_place (resolves : table.Resolves environment)
    (allowArray : Bool) (position : Position) (name : String)
    (isIndexed : Bool) :
    environment.stray? (.place position name) =
      match table.placeType allowArray name isIndexed with
      | .ok _ => none
      | .error fault => if fault.isStray then some fault else none := by
  rw [Environment.stray?, placeType]
  cases varEq : environment.vars.lookup name with
  | some type =>
      obtain ⟨role, declared, resolved⟩ := resolves.var name type varEq
      have known : name ∈ environment.vars.map Prod.fst :=
        (isSome_lookup_iff name).mp (by simp [varEq])
      rw [resolved, if_pos (Or.inl known)]
      cases type <;> cases isIndexed <;> cases allowArray <;> rfl
  | none =>
      cases functionEq : environment.functions.lookup name with
      | some params =>
          obtain ⟨declared, resolved⟩ :=
            resolves.function name params varEq functionEq
          have known : name ∈ environment.functions.map Prod.fst :=
            (isSome_lookup_iff name).mp (by simp [functionEq])
          rw [resolved, if_pos (Or.inr known)]
          rfl
      | none =>
          have unresolved := resolves.undeclared name varEq functionEq
          rw [lookup_eq_none_iff_not_mem] at varEq functionEq
          rw [unresolved, if_neg (not_or.mpr ⟨varEq, functionEq⟩)]
          rfl

/-- A call that has a fault of its own is stray, and its fault is that. -/
theorem Resolves.stray?_call (resolves : table.Resolves environment)
    (position : Position) (callee : String) (count : Nat) :
    environment.stray? (.call position callee count) =
      match table.callParams callee count with
      | .ok _ => none
      | .error fault => some fault := by
  rw [Environment.stray?, Environment.arity?, callParams]
  cases varEq : environment.vars.lookup callee with
  | some type =>
      obtain ⟨role, declared, resolved⟩ := resolves.var callee type varEq
      have hidden : callee ∈ environment.vars.map Prod.fst :=
        (isSome_lookup_iff callee).mp (by simp [varEq])
      rw [resolved, if_pos hidden]
  | none =>
      rw [if_neg ((lookup_eq_none_iff_not_mem callee).mp varEq)]
      cases functionEq : environment.functions.lookup callee with
      | some params =>
          obtain ⟨declared, resolved⟩ :=
            resolves.function callee params varEq functionEq
          simp only [resolved, Option.map_some]
          split <;> rfl
      | none => rw [resolves.undeclared callee varEq functionEq,
          Option.map_none]

theorem Resolves.enterLoop (wellFormed : table.WellFormed)
    (resolves : table.Resolves environment) (position : Position) :
    (table.enterLoop position).Resolves environment := by
  have sameNames := resolve?_enterLoop wellFormed position
  constructor
  · intro name type declared
    rw [sameNames]
    exact resolves.var name type declared
  · intro name params unhidden declared
    rw [sameNames]
    exact resolves.function name params unhidden declared
  · intro name unhidden unknown
    rw [sameNames]
    exact resolves.undeclared name unhidden unknown

end ScopeTable

theorem ScopeTable.Declares.resolves {table : ScopeTable}
    {environment : Environment} (declares : table.Declares environment) :
    table.Resolves environment := by
  obtain ⟨inner, outer, resolved, vars, functions⟩ := declares.resolve?_eq
  constructor
  · intro name type declared
    obtain ⟨_, found, role, position, rfl⟩ := vars.find?_of_lookup declared
    exact ⟨role, position, by rw [resolved, found]; rfl⟩
  · intro name params unhidden declared
    obtain ⟨_, found, position, rfl⟩ := functions.find?_of_lookup declared
    have missing := (vars.find?_eq_none_iff_lookup name).mpr unhidden
    exact ⟨position, by rw [resolved, missing, found]; rfl⟩
  · intro name unhidden unknown
    rw [resolved, (vars.find?_eq_none_iff_lookup name).mpr unhidden,
      (functions.find?_eq_none_iff_lookup name).mpr unknown]
    rfl

/-- A call with a meaning has as many arguments as there are parameters. -/
theorem ScopeTable.length_of_callParams {table : ScopeTable} {callee : String}
    {count : Nat} {params : List ValueType}
    (found : table.callParams callee count = .ok params) :
    params.length = count := by
  unfold callParams at found
  grind

/-- A call that is refused is called by a stray name or with a wrong number of
arguments. -/
theorem ScopeTable.isStray_of_callParams {table : ScopeTable} {callee : String}
    {count : Nat} {fault : SemanticFault}
    (failed : table.callParams callee count = .error fault) :
    fault.isStray = true := by
  unfold callParams at failed
  grind [SemanticFault.isStray]

namespace Checked

variable {α β : Type}

/-- The stray mentions among what was reported. -/
def strays (checked : Checked α) : List SemanticError :=
  checked.errors.filter fun error => error.fault.isStray

@[simp]
theorem strays_pure (value : α) : (pure value : Checked α).strays = [] :=
  rfl

@[simp]
theorem strays_bind (first : Checked α) (next : α → Checked β) :
    (first >>= next).strays = first.strays ++ (next first.value).strays := by
  rw [strays, errors_bind, List.filter_append]
  rfl

@[simp]
theorem strays_record (node : Node) (type? : Option ValueType) :
    (record node type?).strays = [] :=
  rfl

/-- To compare types never finds a stray mention. -/
@[simp]
theorem strays_compare (context : TypeContext) (position : Position)
    (expected? found? : Option ValueType) :
    (compare context position expected? found?).strays = [] := by
  unfold compare
  split
  · split <;> rfl
  · rfl

theorem strays_report (fault : SemanticFault) (position : Position) :
    (report fault position).strays = if fault.isStray then [⟨fault, position⟩]
      else [] := by
  simp only [strays, errors_report, List.filter_cons, List.filter_nil]

section Expressions

variable {table : ScopeTable} {environment : Environment}

/-- A call is stray or not, whatever its arguments are; they are checked in
either case. -/
theorem call_strays_of_args (resolves : table.Resolves environment)
    (position : Position) (callee : String) {args : List Expr}
    (refused : (exprs table args).strays =
      environment.strays (Expr.allMentions args))
    (passed : ∀ params : List ValueType, params.length = args.length →
      (arguments table callee 1 params args).strays =
        environment.strays (Expr.allMentions args)) :
    (call table position callee args).strays =
      environment.strays (.call position callee args.length ::
        Expr.allMentions args) := by
  rw [Environment.strays_cons, resolves.stray?_call, call]
  cases found : table.callParams callee args.length with
  | ok params => exact passed params (ScopeTable.length_of_callParams found)
  | error fault =>
      simp [strays_report, ScopeTable.isStray_of_callParams found, refused,
        Mention.position]

mutual

theorem place_strays (resolves : table.Resolves environment)
    (allowArray : Bool) :
    ∀ held : Place, (place table allowArray held).strays =
      environment.strays held.mentions
  | .var node name => by
      rw [Place.mentions, Environment.strays_cons,
        resolves.stray?_place allowArray _ _ false, place]
      cases table.placeType allowArray name false with
      | ok type => rfl
      | error fault =>
          by_cases stray : fault.isStray <;>
            simp [strays_report, stray, Environment.strays, Mention.position]
  | .element node name index => by
      have inside := expr_strays resolves false index
      rw [Place.mentions, Environment.strays_cons,
        resolves.stray?_place allowArray _ _ true, place]
      cases table.placeType allowArray name true with
      | ok type => simp [inside]
      | error fault =>
          by_cases stray : fault.isStray <;> simp [strays_report, stray, inside,
            Mention.position]

theorem expr_strays (resolves : table.Resolves environment)
    (allowArray : Bool) :
    ∀ e : Expr, (expr table allowArray e).strays = environment.strays e.mentions
  | .int node value => rfl
  | .float node value => rfl
  | .valueOf node held => by
      simpa [expr, Expr.mentions] using place_strays resolves allowArray held
  | .binary node op left right => by
      simp [expr, Expr.mentions, expr_strays resolves false left,
        expr_strays resolves false right]
  | .signed node op operand => by
      simpa [expr, Expr.mentions] using expr_strays resolves false operand
  | .call node callee args => by
      have here :=
        call_strays_of_args resolves node.position callee
          (exprs_strays resolves args)
        (arguments_strays resolves callee 1 args)
      simpa [expr_call_eq, Expr.mentions] using here
  | .cast node target operand => by
      simpa [expr, Expr.mentions] using expr_strays resolves false operand

theorem exprs_strays (resolves : table.Resolves environment) :
    ∀ all : List Expr, (exprs table all).strays =
      environment.strays (Expr.allMentions all)
  | [] => rfl
  | first :: others => by
      simp [exprs, Expr.allMentions, expr_strays resolves true first,
        exprs_strays resolves others]

theorem arguments_strays (resolves : table.Resolves environment)
    (callee : String) :
    ∀ (number : Nat) (args : List Expr) (params : List ValueType),
      params.length = args.length →
      (arguments table callee number params args).strays =
        environment.strays (Expr.allMentions args)
  | _, [], [], _ => rfl
  | number, arg :: args, param :: params, sameLength => by
      have argsStrays :=
        arguments_strays resolves callee (number + 1) args params
        (by simpa using sameLength)
      simp [arguments, Expr.allMentions, expr_strays resolves param.isArray arg,
        argsStrays]

end

theorem call_strays (resolves : table.Resolves environment)
    (position : Position) (callee : String) (args : List Expr) :
    (call table position callee args).strays =
      environment.strays (.call position callee args.length ::
        Expr.allMentions args) :=
  call_strays_of_args resolves position callee (exprs_strays resolves args)
    (arguments_strays resolves callee 1 args)

theorem condition_strays (resolves : table.Resolves environment)
    (test : Condition) :
    (condition table test).strays = environment.strays test.mentions := by
  induction test with
  | rel position op left right =>
      simp [condition, Condition.mentions, expr_strays resolves false left,
        expr_strays resolves false right]
  | logic position op left right leftIH rightIH =>
      simp [condition, Condition.mentions, leftIH, rightIH]
  | not position operand ih => simpa [condition, Condition.mentions] using ih

end Expressions

section Statements

variable {environment : Environment}

mutual

theorem stmt_strays : ∀ (s : Stmt) {table : ScopeTable} {inLoop : Bool},
    table.WellFormed → table.Resolves environment → table.inLoop = inLoop →
      (stmt table s).strays = environment.strays (s.mentions inLoop)
  | .assign position target value, table, _, _, resolves, _ => by
      simp [stmt, Stmt.mentions, place_strays resolves false target,
        expr_strays resolves false value]
  | .ifThen position test thenBranch, table, inLoop, wellFormed, resolves,
      loops => by
      simp [stmt, Stmt.mentions, condition_strays resolves test,
        stmt_strays thenBranch wellFormed resolves loops]
  | .ifElse position test thenBranch elseBranch, table, inLoop, wellFormed,
      resolves, loops => by
      simp [stmt, Stmt.mentions, condition_strays resolves test,
        stmt_strays thenBranch wellFormed resolves loops,
        stmt_strays elseBranch wellFormed resolves loops]
  | .whileDo position test body, table, inLoop, wellFormed, resolves, _ => by
      simp [stmt, Stmt.mentions, condition_strays resolves test,
        stmt_strays body (wellFormed.enterLoop position)
          (resolves.enterLoop wellFormed position)
          (ScopeTable.inLoop_enterLoop wellFormed position)]
  | .block position statements, table, inLoop, wellFormed, resolves, loops => by
      simpa [stmt, Stmt.mentions]
        using stmts_strays statements wellFormed resolves loops
  | .breakLoop position, table, inLoop, _, _, loops => by
      rw [stmt, Stmt.mentions, loops]
      cases inLoop <;> rfl
  | .skip _, _, _, _, _, _ => rfl
  | .returnValue position value, table, _, _, resolves, _ => by
      simp [stmt, Stmt.mentions, expr_strays resolves false value]
  | .read position target, table, _, _, resolves, _ => by
      simp [stmt, Stmt.mentions, place_strays resolves false target]
  | .write position value, table, _, _, resolves, _ => by
      simp [stmt, Stmt.mentions, expr_strays resolves false value]
  | .print .., _, _, _, _, _ => rfl
  | .call position callee args, table, _, _, resolves, _ => by
      simpa [stmt, Stmt.mentions]
        using call_strays resolves position callee args

theorem stmts_strays :
    ∀ (statements : List Stmt) {table : ScopeTable} {inLoop : Bool},
    table.WellFormed → table.Resolves environment → table.inLoop = inLoop →
      (stmts table statements).strays =
        environment.strays (Stmt.allMentions inLoop statements)
  | [], _, _, _, _, _ => rfl
  | first :: others, table, inLoop, wellFormed, resolves, loops => by
      simp [stmts, Stmt.allMentions,
        stmt_strays first wellFormed resolves loops,
        stmts_strays others wellFormed resolves loops]

end

end Statements

section Functions

/-- Definitions report taken names only. -/
@[simp]
theorem strays_define (table : ScopeTable) (kind : NameKind) (name : String)
    (binding : Binding) : (define table kind name binding).strays = [] := by
  unfold define
  split <;> rfl

@[simp]
theorem strays_signatures (table : ScopeTable) (definitions : List Function) :
    (signatures table definitions).strays = [] := by
  induction definitions generalizing table with
  | nil => rfl
  | cons first others ih => simp [signatures, ih]

@[simp]
theorem strays_start (table : ScopeTable) (definitions : List Function) :
    (start table definitions).strays = [] := by
  unfold start
  split <;> rfl

variable {table : ScopeTable} {environment : Environment}

theorem size_strays (resolves : table.Resolves environment)
    (declaration : Declaration) :
    (size table declaration).strays =
      environment.strays declaration.mentions := by
  unfold size Declaration.mentions
  cases declaration.type.size? with
  | none => rfl
  | some arraySize =>
      cases arraySize with
      | fixed count => rfl
      | dynamic count => simp [expr_strays resolves false count]

/-- Sizes are checked where the declarations before them are known. -/
theorem declarations_strays (role : VariableRole) (declared : List Declaration)
    (declares : table.Declares environment) :
    (declarations role table declared).strays =
      environment.sizeStrays declared ∧
      (declarations role table declared).value.Declares
        (environment.declare declared) := by
  induction declared generalizing table environment with
  | nil =>
      rw [Environment.declare_nil]
      exact ⟨rfl, declares⟩
  | cons first others ih =>
      obtain ⟨othersStrays, othersDeclare⟩ :=
        ih (declares_define declares (nameKind role) first role)
      rw [← Environment.declare_cons] at othersDeclare
      refine ⟨?_, othersDeclare⟩
      simp [declarations, Environment.sizeStrays, size_strays declares.resolves,
        othersStrays]

theorem sizeStrays_append (first second : List Declaration) :
    environment.sizeStrays (first ++ second) =
      environment.sizeStrays first ++
        (environment.declare first).sizeStrays second := by
  induction first generalizing environment with
  | nil => rw [Environment.declare_nil]; rfl
  | cons declaration others ih =>
      rw [List.cons_append, Environment.sizeStrays, Environment.sizeStrays, ih,
        Environment.declare_cons declaration others, List.append_assoc]

/-- In a function all stray mentions are reported, each once. -/
theorem function_strays {functions : List (String × List ValueType)}
    (declares : table.DeclaresFunctions functions) (definition : Function) :
    (function table definition).strays = definition.strays functions := by
  have start := declares_push declares (.function definition.name)
  obtain ⟨paramStrays, withParams⟩ :=
    declarations_strays .param definition.params start
  obtain ⟨localStrays, withLocals⟩ :=
    declarations_strays .localVar definition.locals withParams
  rw [definition.declare_params_locals] at withLocals
  have bodyStrays :=
    stmts_strays definition.body withLocals.wellFormed withLocals.resolves
    withLocals.inLoop_eq_false
  simp [function, paramStrays, localStrays, bodyStrays, Function.strays,
    Function.declarations, sizeStrays_append]

theorem program_strays (tree : Program) :
    (program tree).strays = tree.strays := by
  have viaFunctions :
      (program tree).strays =
        (program (.functions tree.definitions)).strays := by
    cases tree with
    | functions all => rfl
    | statement body => rw [strays, program_statement_errors]; rfl
  have declares :=
    declaresFunctions_signatures tree.definitions declaresFunctions_initial
  have bodies : (functions (signatures .initial tree.definitions).value
      tree.definitions).strays = tree.strays := by
    rw [strays, functions_errors declares.wellFormed, List.filter_flatMap]
    exact List.flatMap_congr fun definition _ =>
      function_strays declares definition
  rw [viaFunctions]
  simpa [program] using bodies

end Functions

end Checked

/-- Checking reports each name that stands for nothing, each call with a wrong
number of arguments and each `break` outside a loop once, in the order of the
text, whatever else is wrong around it. -/
theorem analyse_strays (program : Program) :
    (analyse program).errors.filter (fun error => error.fault.isStray) =
      program.strays :=
  Checked.program_strays program

end PL0
