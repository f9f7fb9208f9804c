import Mathlib.Data.List.Nodup
import PL0.Proofs.Scope.Entries
import PL0.Proofs.Typing.Acceptance
import PL0.Typing.Analysis

/-!
# The checker accepts exactly the well-typed programs

The scopes that checking builds up hold the environment of the judgement: one
frame of functions, and inside a function one frame of the variables declared
so far.  From this the declarations, the functions and the whole program
follow in the order in which they are checked.
-/

namespace PL0

section Lookup

variable {β : Type}

/-- What a scope finds for a name goes together with what a list has first for
it, and the scope finds no other names. -/
def Scope.Lists (scope : Scope) (relates : Binding → β → Prop)
    (listed : List (String × β)) : Prop :=
  ∀ name, Option.Rel relates (scope.find? name) (listed.lookup name)

variable {scope : Scope} {relates : Binding → β → Prop}
  {listed : List (String × β)} {name : String}

theorem Scope.lists_empty (kind : ScopeKind) (parent? : Option ScopeId) :
    (Scope.empty kind parent?).Lists relates [] := by
  intro name
  rw [Scope.find?_empty]
  exact .none

theorem Scope.Lists.find?_of_lookup (lists : scope.Lists relates listed)
    {item : β} (found : listed.lookup name = some item) :
    ∃ binding, scope.find? name = some binding ∧ relates binding item := by
  have related := lists name
  rw [found] at related
  generalize scope.find? name = found? at related
  cases related with
  | some related => exact ⟨_, rfl, related⟩

theorem Scope.Lists.lookup_of_find? (lists : scope.Lists relates listed)
    {binding : Binding} (found : scope.find? name = some binding) :
    ∃ item, listed.lookup name = some item ∧ relates binding item := by
  have related := lists name
  rw [found] at related
  generalize listed.lookup name = found? at related
  cases related with
  | some related => exact ⟨_, rfl, related⟩

theorem Scope.Lists.find?_eq_none_iff_lookup
    (lists : scope.Lists relates listed)
    (name : String) : scope.find? name = none ↔ listed.lookup name = none := by
  have related := lists name
  generalize scope.find? name = found? at related
  generalize listed.lookup name = listed? at related
  cases related <;> simp

theorem Scope.Lists.mem_of_find? (lists : scope.Lists relates listed)
    {binding : Binding} (found : scope.find? name = some binding) :
    ∃ item, (name, item) ∈ listed ∧ relates binding item := by
  obtain ⟨item, foundItem, related⟩ := lists.lookup_of_find? found
  obtain ⟨before, after, split, _⟩ := List.lookup_eq_some_iff.mp foundItem
  exact ⟨item, by simp [split], related⟩

theorem Scope.Lists.find?_of_mem (lists : scope.Lists relates listed)
    (distinct : (listed.map Prod.fst).Nodup) {item : β}
    (member : (name, item) ∈ listed) :
    ∃ binding, scope.find? name = some binding ∧ relates binding item :=
  lists.find?_of_lookup ((lookup_eq_some_iff_mem distinct).mpr member)

theorem Scope.Lists.find?_eq_none_iff (lists : scope.Lists relates listed)
    (name : String) : scope.find? name = none ↔ name ∉ listed.map Prod.fst := by
  rw [lists.find?_eq_none_iff_lookup, lookup_eq_none_iff_not_mem]

/-- A new name is listed last. -/
theorem Scope.Lists.concat (lists : scope.Lists relates listed)
    (fresh : scope.find? name = none) {binding : Binding} {item : β}
    (related : relates binding item) :
    (scope.add name binding).Lists relates (listed ++ [(name, item)]) := by
  have notListed := (lists.find?_eq_none_iff_lookup name).mp fresh
  intro other
  rw [Scope.find?_add, lookup_concat_of_fresh notListed]
  split
  · exact .some related
  · exact lists other

/-- A name that is taken may be listed again, since it is found where it was
listed first. -/
theorem Scope.Lists.concat_taken (lists : scope.Lists relates listed)
    {existing : Binding} (found : scope.find? name = some existing) (item : β) :
    scope.Lists relates (listed ++ [(name, item)]) := by
  obtain ⟨first, foundFirst, _⟩ := lists.lookup_of_find? found
  intro other
  rw [lookup_concat_of_taken foundFirst]
  exact lists other

end Lookup

/-- The binding of a variable of a type. -/
def Binding.IsVar (binding : Binding) (type : ValueType) : Prop :=
  ∃ role position, binding = .var type role position

/-- The binding of a function with parameters of the given types. -/
def Binding.IsFunction (binding : Binding) (params : List ValueType) : Prop :=
  ∃ position, binding = .function params position

namespace ScopeTable

/-- Only the global scope is open, and it finds the given functions, of each
name the first. -/
structure DeclaresFunctions (table : ScopeTable)
    (functions : List (String × List ValueType)) : Prop where
  wellFormed : table.WellFormed
  frames : ∃ outer, table.frames = [outer] ∧
    outer.Lists Binding.IsFunction functions

/-- Only the global scope is open, and it holds the given functions. -/
structure HoldsFunctions (table : ScopeTable)
    (functions : List (String × List ValueType)) :
    Prop extends table.DeclaresFunctions functions where
  distinct : (functions.map Prod.fst).Nodup

/-- The scope of a function is open inside the global one, and together they
find what an environment has first for each name. -/
structure Declares (table : ScopeTable) (environment : Environment) : Prop where
  wellFormed : table.WellFormed
  frames : ∃ inner outer, table.frames = [inner, outer] ∧ inner.loops = [] ∧
    inner.Lists Binding.IsVar environment.vars ∧
    outer.Lists Binding.IsFunction environment.functions

/-- The scope of a function is open inside the global one, and together they
hold an environment. -/
structure Holds (table : ScopeTable) (environment : Environment) : Prop
    extends table.Declares environment where
  distinctVars : (environment.vars.map Prod.fst).Nodup
  distinctFunctions : (environment.functions.map Prod.fst).Nodup

variable {table : ScopeTable} {environment : Environment}

/-- A name is looked up in the scope of the function, and then in the global
one. -/
theorem Declares.resolve?_eq (declares : table.Declares environment) :
    ∃ inner outer : Scope,
      (∀ name, table.resolve? name = (inner.find? name).or (outer.find? name)) ∧
        inner.Lists Binding.IsVar environment.vars ∧
        outer.Lists Binding.IsFunction environment.functions := by
  obtain ⟨inner, outer, framesEq, _, vars, functions⟩ := declares.frames
  refine ⟨inner, outer, ?_, vars, functions⟩
  intro name
  rw [resolve?_eq_findSome?, framesEq]
  cases inside : inner.find? name <;> cases outside : outer.find? name <;>
    simp [inside, outside]

theorem Holds.represents (holds : table.Holds environment) :
    table.Represents environment := by
  obtain ⟨inner, outer, resolved, vars, functions⟩ := holds.resolve?_eq
  constructor
  · intro name type
    constructor
    · intro member
      obtain ⟨_, found, role, position, rfl⟩ :=
        vars.find?_of_mem holds.distinctVars member
      exact ⟨role, position, by simp [resolved, found]⟩
    · rintro ⟨role, position, found⟩
      rw [resolved] at found
      rcases Option.or_eq_some_iff.mp found with inside | ⟨_, outside⟩
      · obtain ⟨item, member, _, _, same⟩ := vars.mem_of_find? inside
        cases same
        exact member
      · obtain ⟨_, _, _, same⟩ := functions.mem_of_find? outside
        cases same
  · intro name params
    constructor
    · rintro ⟨member, unhidden⟩
      have missing : inner.find? name = none := by
        rw [vars.find?_eq_none_iff]
        intro hidden
        obtain ⟨⟨_, type⟩, declared, rfl⟩ := List.mem_map.mp hidden
        exact unhidden type declared
      obtain ⟨_, found, position, rfl⟩ :=
        functions.find?_of_mem holds.distinctFunctions member
      exact ⟨position, by simp [resolved, missing, found]⟩
    · rintro ⟨position, found⟩
      rw [resolved] at found
      rcases Option.or_eq_some_iff.mp found with inside | ⟨missing, outside⟩
      · obtain ⟨_, _, _, _, same⟩ := vars.mem_of_find? inside
        cases same
      · obtain ⟨item, member, _, same⟩ := functions.mem_of_find? outside
        cases same
        refine ⟨member, ?_⟩
        intro type hidden
        exact (vars.find?_eq_none_iff name).mp missing
          (List.mem_map_of_mem hidden)

theorem Declares.inLoop_eq_false (declares : table.Declares environment) :
    table.inLoop = false := by
  obtain ⟨inner, outer, framesEq, noLoops, _⟩ := declares.frames
  have inLoopIff := inLoop_eq_true_iff declares.wellFormed framesEq
  rw [noLoops] at inLoopIff
  simpa using inLoopIff

end ScopeTable

/-- An environment with more variables. -/
def Environment.declare (environment : Environment)
    (declarations : List Declaration) : Environment :=
  { environment with
    vars := environment.vars ++ declarations.map Declaration.asVariable }

/-- The sizes in declarations are integers, each in the environment before
it. -/
def Declaration.SizesTyped (environment : Environment)
    (declarations : List Declaration) : Prop :=
  ∀ before declaration after count,
    declarations = before ++ declaration :: after →
    declaration.type.size? = some (.dynamic count) →
    count.HasType (environment.declare before) .int

section Sizes

variable {environment : Environment}

theorem Environment.declare_nil : environment.declare [] = environment := by
  simp [Environment.declare]

theorem Environment.declare_append (first second : List Declaration) :
    environment.declare (first ++ second) =
      (environment.declare first).declare second := by
  simp [Environment.declare]

theorem Environment.declare_cons (first : Declaration)
    (others : List Declaration) :
    environment.declare (first :: others) =
      (environment.declare [first]).declare others := by
  rw [← Environment.declare_append, List.singleton_append]

/-- The body of a function stands where its parameters and then its locals are
declared. -/
theorem Function.declare_params_locals (function : Function)
    (functions : List (String × List ValueType)) :
    ((⟨functions, []⟩ : Environment).declare function.params).declare
        function.locals = function.environment functions := by
  rw [← Environment.declare_append]
  rfl

theorem Function.map_fst_environment_vars (function : Function)
    (functions : List (String × List ValueType)) :
    (function.environment functions).vars.map Prod.fst =
      function.declarations.map Declaration.name := by
  simp [Function.environment, Declaration.asVariable, Function.comp_def]

theorem Declaration.sizesTyped_cons (first : Declaration)
    (others : List Declaration) :
    Declaration.SizesTyped environment (first :: others) ↔
      (∀ count, first.type.size? = some (.dynamic count) →
        count.HasType environment .int) ∧
        Declaration.SizesTyped (environment.declare [first]) others := by
  constructor
  · intro sizes
    constructor
    · intro count isDynamic
      have typed := sizes [] first others count rfl isDynamic
      rwa [Environment.declare_nil] at typed
    · intro before declaration after count split isDynamic
      rw [← Environment.declare_append]
      exact sizes (first :: before) declaration after count (by rw [split]; rfl)
        isDynamic
  · rintro ⟨firstTyped, othersTyped⟩ before declaration after count
      split isDynamic
    cases before with
    | nil =>
        injection split with same _
        subst same
        rw [Environment.declare_nil]
        exact firstTyped count isDynamic
    | cons _ before =>
        injection split with same rest
        subst same
        have typed := othersTyped before declaration after count rest isDynamic
        rwa [← Environment.declare_append] at typed

theorem Declaration.sizesTyped_append (first second : List Declaration) :
    Declaration.SizesTyped environment (first ++ second) ↔
      Declaration.SizesTyped environment first ∧
        Declaration.SizesTyped (environment.declare first) second := by
  induction first generalizing environment with
  | nil =>
      rw [Environment.declare_nil, List.nil_append]
      refine ⟨fun sizes => ⟨?_, sizes⟩, And.right⟩
      intro before declaration after count split
      simp at split
  | cons declaration others ih =>
      rw [List.cons_append, Declaration.sizesTyped_cons,
        Declaration.sizesTyped_cons, ih,
        Environment.declare_cons declaration others, and_assoc]

end Sizes

namespace Checked

section Declarations

variable {table : ScopeTable} {environment : Environment}

theorem define_errors_eq_nil_iff (kind : NameKind) (name : String)
    (binding : Binding) :
    (define table kind name binding).errors = [] ↔
      table.resolveLocal? name = none := by
  unfold define ScopeTable.define
  cases table.resolveLocal? name <;> simp

theorem size_errors_eq_nil_iff (holds : table.Holds environment)
    (declaration : Declaration) :
    (size table declaration).errors = [] ↔
      ∀ count, declaration.type.size? = some (.dynamic count) →
        count.HasType environment .int := by
  unfold size
  split
  · next count isDynamic =>
      simp only [errors_bind, List.append_eq_nil_iff]
      rw [← expr_accepts_iff_compare, ValueType.int,
        expr_accepts_iff holds.represents]
      constructor
      · intro typed other otherEq
        rw [isDynamic] at otherEq
        cases otherEq
        exact typed
      · intro typed
        exact typed count isDynamic
  · next notDynamic =>
      refine ⟨fun _ count isDynamic => (notDynamic count isDynamic).elim,
        fun _ => rfl⟩

/-- A variable can be declared if its name is new among the variables. -/
theorem define_var_errors_eq_nil_iff (holds : table.Holds environment)
    (kind : NameKind) (name : String) (binding : Binding) :
    (define table kind name binding).errors = [] ↔
      name ∉ environment.vars.map Prod.fst := by
  obtain ⟨inner, outer, framesEq, _, vars, _⟩ := holds.frames
  rw [define_errors_eq_nil_iff,
    ScopeTable.resolveLocal?_eq_find? holds.wellFormed framesEq,
    vars.find?_eq_none_iff]

/-- A variable is declared, whether its name is new or taken. -/
theorem declares_define (declares : table.Declares environment)
    (kind : NameKind) (declaration : Declaration) (role : VariableRole) :
    (define table kind declaration.name
      (.var declaration.type.valueType role declaration.position)).value.Declares
        (environment.declare [declaration]) := by
  obtain ⟨inner, outer, framesEq, noLoops, vars, functions⟩ := declares.frames
  unfold define ScopeTable.define
  rw [ScopeTable.resolveLocal?_eq_find? declares.wellFormed framesEq]
  cases found : inner.find? declaration.name with
  | some existing =>
      exact ⟨declares.wellFormed, inner, outer, framesEq, noLoops,
        vars.concat_taken found _, functions⟩
  | none =>
      exact ⟨declares.wellFormed.modifyCurrent _, _, outer,
        ScopeTable.frames_modifyCurrent declares.wellFormed framesEq _, noLoops,
        vars.concat found ⟨role, declaration.position, rfl⟩, functions⟩

theorem holds_define_var (holds : table.Holds environment) (kind : NameKind)
    (declaration : Declaration) (role : VariableRole)
    (fresh : declaration.name ∉ environment.vars.map Prod.fst) :
    (define table kind declaration.name
      (.var declaration.type.valueType role declaration.position)).value.Holds
        (environment.declare [declaration]) := by
  refine ⟨declares_define holds.toDeclares kind declaration role, ?_,
    holds.distinctFunctions⟩
  have distinct := holds.distinctVars.concat fresh
  simpa [Environment.declare, Declaration.asVariable] using distinct

/-- Declarations are accepted if their names are new and their sizes are
integers, and then the table holds them. -/
theorem declarations_errors_eq_nil_iff (role : VariableRole)
    (declared : List Declaration) (holds : table.Holds environment) :
    ((declarations role table declared).errors = [] ↔
      ((environment.declare declared).vars.map Prod.fst).Nodup ∧
        Declaration.SizesTyped environment declared) ∧
    ((declarations role table declared).errors = [] →
      (declarations role table declared).value.Holds
        (environment.declare declared)) := by
  induction declared generalizing table environment with
  | nil =>
      refine ⟨⟨fun _ => ⟨?_, ?_⟩, fun _ => rfl⟩, fun _ => ?_⟩
      · rw [Environment.declare_nil]
        exact holds.distinctVars
      · intro before declaration after count split
        simp at split
      · rw [Environment.declare_nil]
        exact holds
  | cons first others ih =>
      simp only [declarations, errors_bind, value_bind, List.append_eq_nil_iff,
        size_errors_eq_nil_iff holds, define_var_errors_eq_nil_iff holds,
        Declaration.sizesTyped_cons]
      rw [Environment.declare_cons]
      have nameFresh (distinct :
          (((environment.declare [first]).declare others).vars.map
            Prod.fst).Nodup) :
          first.name ∉ environment.vars.map Prod.fst := by
        simp only [Environment.declare, List.map_append, List.map_cons,
          List.map_nil, List.append_assoc, List.nodup_append] at distinct
        intro member
        exact distinct.2.2 first.name member first.name
          (by simp [Declaration.asVariable]) rfl
      constructor
      · constructor
        · rintro ⟨firstSize, fresh, othersClean⟩
          have next := holds_define_var holds (nameKind role) first role fresh
          obtain ⟨distinct, othersSizes⟩ := (ih next).1.mp othersClean
          exact ⟨distinct, firstSize, othersSizes⟩
        · rintro ⟨distinct, firstSize, othersSizes⟩
          have fresh := nameFresh distinct
          have next := holds_define_var holds (nameKind role) first role fresh
          exact ⟨firstSize, fresh, (ih next).1.mpr ⟨distinct, othersSizes⟩⟩
      · rintro ⟨_, fresh, othersClean⟩
        have next := holds_define_var holds (nameKind role) first role fresh
        exact (ih next).2 othersClean

end Declarations

section Functions

variable {table : ScopeTable} {known : List (String × List ValueType)}

/-- The scope of a function opens without variables. -/
theorem declares_push (declares : table.DeclaresFunctions known)
    (kind : ScopeKind) : (table.push kind).Declares ⟨known, []⟩ := by
  obtain ⟨outer, framesEq, functions⟩ := declares.frames
  refine ⟨declares.wellFormed.push kind, Scope.empty kind (some table.current),
    outer, ?_, rfl, Scope.lists_empty kind _, functions⟩
  rw [ScopeTable.frames_push declares.wellFormed, framesEq]

theorem holds_push (holds : table.HoldsFunctions known) (kind : ScopeKind) :
    (table.push kind).Holds ⟨known, []⟩ :=
  ⟨declares_push holds.toDeclaresFunctions kind, List.nodup_nil, holds.distinct⟩

/-- When the scope of a function is left, the functions are as before. -/
theorem holdsFunctions_pop {environment : Environment}
    (holds : table.Holds environment) :
    table.pop.HoldsFunctions environment.functions := by
  obtain ⟨inner, outer, framesEq, _, _, functions⟩ := holds.frames
  exact ⟨⟨holds.wellFormed.pop, outer,
    ScopeTable.frames_pop holds.wellFormed framesEq, functions⟩,
      holds.distinctFunctions⟩

theorem function_errors_eq_nil_iff (holds : table.HoldsFunctions known)
    (definition : Function) :
    ((function table definition).errors = [] ↔ definition.WellTyped known) ∧
    ((function table definition).errors = [] →
      (function table definition).value.HoldsFunctions known) := by
  have opened := holds_push holds (.function definition.name)
  obtain ⟨paramsIff, paramsHold⟩ :=
    declarations_errors_eq_nil_iff .param definition.params opened
  have localsSpec
      (clean : (declarations .param (table.push (.function definition.name))
      definition.params).errors = []) :=
    declarations_errors_eq_nil_iff .localVar definition.locals
      (paramsHold clean)
  have bodyEnvironment := definition.declare_params_locals known
  have allNames :
      (((⟨known, []⟩ : Environment).declare definition.params).declare
        definition.locals).vars.map Prod.fst =
          definition.declarations.map Declaration.name := by
    rw [bodyEnvironment, definition.map_fst_environment_vars]
  simp only [function, errors_bind, value_bind, value_pure, errors_pure,
    List.append_eq_nil_iff, and_true]
  constructor
  · constructor
    · rintro ⟨paramsClean, localsClean, bodyClean⟩
      obtain ⟨localsIff, localsHold⟩ := localsSpec paramsClean
      obtain ⟨distinct, localSizes⟩ := localsIff.mp localsClean
      obtain ⟨_, paramSizes⟩ := paramsIff.mp paramsClean
      have bodyHolds := localsHold localsClean
      rw [bodyEnvironment] at bodyHolds
      refine ⟨?_, ?_, ?_⟩
      · rwa [allNames] at distinct
      · exact (Declaration.sizesTyped_append _ _).mpr ⟨paramSizes, localSizes⟩
      · exact (stmts_errors_eq_nil_iff _ bodyHolds.wellFormed bodyHolds.represents
          bodyHolds.inLoop_eq_false).mp bodyClean
    · intro wellTyped
      obtain ⟨paramSizes, localSizes⟩ :=
        (@Declaration.sizesTyped_append ⟨known, []⟩ _ _).mp wellTyped.sizes
      have distinct := wellTyped.distinct
      rw [← allNames] at distinct
      have paramsDistinct : (((⟨known, []⟩ : Environment).declare
          definition.params).vars.map Prod.fst).Nodup := by
        simp only [Environment.declare, List.map_append,
          List.nodup_append] at distinct ⊢
        exact distinct.1
      have paramsClean := paramsIff.mpr ⟨paramsDistinct, paramSizes⟩
      obtain ⟨localsIff, localsHold⟩ := localsSpec paramsClean
      have localsClean := localsIff.mpr ⟨distinct, localSizes⟩
      have bodyHolds := localsHold localsClean
      rw [bodyEnvironment] at bodyHolds
      refine ⟨paramsClean, localsClean, ?_⟩
      exact (stmts_errors_eq_nil_iff _ bodyHolds.wellFormed bodyHolds.represents
        bodyHolds.inLoop_eq_false).mpr wellTyped.body
  · rintro ⟨paramsClean, localsClean, _⟩
    exact holdsFunctions_pop ((localsSpec paramsClean).2 localsClean)

theorem functions_errors_eq_nil_iff (holds : table.HoldsFunctions known)
    (definitions : List Function) :
    (functions table definitions).errors = [] ↔
      ∀ definition ∈ definitions, definition.WellTyped known := by
  induction definitions generalizing table with
  | nil => simp [functions]
  | cons first others ih =>
      obtain ⟨firstIff, firstHolds⟩ := function_errors_eq_nil_iff holds first
      simp only [functions, errors_bind, List.append_eq_nil_iff,
        List.forall_mem_cons]
      constructor
      · rintro ⟨firstClean, othersClean⟩
        exact ⟨firstIff.mp firstClean,
          (ih (firstHolds firstClean)).mp othersClean⟩
      · rintro ⟨firstTyped, othersTyped⟩
        have firstClean := firstIff.mpr firstTyped
        exact ⟨firstClean, (ih (firstHolds firstClean)).mpr othersTyped⟩

theorem define_function_errors_eq_nil_iff (holds : table.HoldsFunctions known)
    (kind : NameKind) (name : String) (binding : Binding) :
    (define table kind name binding).errors = [] ↔
      name ∉ known.map Prod.fst := by
  obtain ⟨outer, framesEq, functions⟩ := holds.frames
  rw [define_errors_eq_nil_iff,
    ScopeTable.resolveLocal?_eq_find? holds.wellFormed framesEq,
    functions.find?_eq_none_iff]

/-- A function is declared, whether its name is new or taken. -/
theorem declaresFunctions_define (declares : table.DeclaresFunctions known)
    (kind : NameKind) (name : String) (params : List ValueType)
    (position : Position) :
    (define table kind name (.function params position)).value.DeclaresFunctions
      (known ++ [(name, params)]) := by
  obtain ⟨outer, framesEq, functions⟩ := declares.frames
  unfold define ScopeTable.define
  rw [ScopeTable.resolveLocal?_eq_find? declares.wellFormed framesEq]
  cases found : outer.find? name with
  | some existing =>
      exact ⟨declares.wellFormed, outer, framesEq,
        functions.concat_taken found params⟩
  | none =>
      exact ⟨declares.wellFormed.modifyCurrent _, _,
        ScopeTable.frames_modifyCurrent declares.wellFormed framesEq _,
        functions.concat found ⟨position, rfl⟩⟩

theorem declaresFunctions_signatures (definitions : List Function)
    (declares : table.DeclaresFunctions known) :
    (signatures table definitions).value.DeclaresFunctions
      (known ++ definitions.map Function.signature) := by
  induction definitions generalizing table known with
  | nil => simpa [signatures] using declares
  | cons first others ih =>
      have next := declaresFunctions_define declares .function first.name
        (first.params.map fun param => param.type.valueType) first.position
      simpa [signatures, Function.signature] using ih next

theorem holdsFunctions_define (holds : table.HoldsFunctions known)
    (kind : NameKind) (name : String) (params : List ValueType)
    (position : Position)
    (fresh : name ∉ known.map Prod.fst) :
    (define table kind name (.function params position)).value.HoldsFunctions
      (known ++ [(name, params)]) := by
  refine ⟨declaresFunctions_define holds.toDeclaresFunctions kind name params
    position, ?_⟩
  simpa using holds.distinct.concat fresh

/-- Signatures are accepted if all names are different, and then the table
holds them. -/
theorem signatures_errors_eq_nil_iff (holds : table.HoldsFunctions known)
    (definitions : List Function) :
    ((signatures table definitions).errors = [] ↔
      ((known ++ definitions.map Function.signature).map Prod.fst).Nodup) ∧
    ((signatures table definitions).errors = [] →
      (signatures table definitions).value.HoldsFunctions
        (known ++ definitions.map Function.signature)) := by
  induction definitions generalizing table known with
  | nil =>
      simp only [signatures, errors_pure, value_pure, List.map_nil,
        List.append_nil, true_iff]
      exact ⟨holds.distinct, fun _ => holds⟩
  | cons first others ih =>
      simp only [signatures, errors_bind, value_bind, List.append_eq_nil_iff,
        define_function_errors_eq_nil_iff holds]
      have split : known ++ (first :: others).map Function.signature =
          (known ++ [first.signature]) ++ others.map Function.signature := by
            simp
      rw [split]
      constructor
      · constructor
        · rintro ⟨fresh, othersClean⟩
          exact (ih (holdsFunctions_define holds _ _ _ _ fresh)).1.mp
            othersClean
        · intro distinct
          have fresh : first.name ∉ known.map Prod.fst := by
            simp only [List.map_append, List.map_cons, List.map_nil,
              List.append_assoc, List.nodup_append] at distinct
            intro member
            exact distinct.2.2 first.name member first.name
              (by simp [Function.signature]) rfl
          exact ⟨fresh,
            (ih (holdsFunctions_define holds _ _ _ _ fresh)).1.mpr distinct⟩
      · rintro ⟨fresh, othersClean⟩
        exact (ih (holdsFunctions_define holds _ _ _ _ fresh)).2 othersClean

theorem start_errors_eq_nil_iff (holds : table.HoldsFunctions known)
    (definitions : List Function) :
    (start table definitions).errors = [] ↔
      entryPoint ∈ known.map Prod.fst := by
  obtain ⟨outer, framesEq, functions⟩ := holds.frames
  unfold start
  rw [ScopeTable.resolveLocal?_eq_find? holds.wellFormed framesEq]
  have missingIff := functions.find?_eq_none_iff entryPoint
  cases found : outer.find? entryPoint with
  | none => simpa [found] using missingIff
  | some binding => simpa [found] using missingIff

end Functions

theorem declaresFunctions_initial : ScopeTable.initial.DeclaresFunctions [] :=
  ⟨ScopeTable.wellFormed_initial, _, rfl, Scope.lists_empty .global none⟩

theorem holdsFunctions_initial : ScopeTable.initial.HoldsFunctions [] :=
  ⟨declaresFunctions_initial, List.nodup_nil⟩

/-- A statement on its own is checked like the only function of a program. -/
theorem program_statement_errors (body : Stmt) :
    (program (.statement body)).errors =
      (program (.functions (Program.statement body).definitions)).errors := by
  have resolves : (define .initial .function entryPoint
      (.function [] body.position)).value.resolveLocal? entryPoint =
        some (.function [] body.position) :=
    rfl
  simp [program, signatures, functions, function, declarations, stmts, start,
    Program.definitions, resolves]

/-- A program is checked without a fault exactly if it is well typed. -/
theorem program_errors_eq_nil_iff (tree : Program) :
    (program tree).errors = [] ↔ tree.WellTyped := by
  have viaFunctions :
      (program tree).errors =
        (program (.functions tree.definitions)).errors := by
    cases tree with
    | functions all => rfl
    | statement body => exact program_statement_errors body
  obtain ⟨namesIff, namesHold⟩ :=
    signatures_errors_eq_nil_iff holdsFunctions_initial tree.definitions
  have names : ([] ++ tree.definitions.map Function.signature).map Prod.fst =
      tree.definitions.map Function.name := by
    simp [Function.signature, Function.comp_def]
  rw [viaFunctions]
  simp only [program, errors_bind, List.append_eq_nil_iff]
  constructor
  · rintro ⟨namesClean, startClean, functionsClean⟩
    have holds := namesHold namesClean
    have distinct := namesIff.mp namesClean
    have start := (start_errors_eq_nil_iff holds _).mp startClean
    rw [names] at distinct start
    exact ⟨distinct, start,
      (functions_errors_eq_nil_iff holds _).mp functionsClean⟩
  · intro wellTyped
    have namesClean := namesIff.mpr (by rw [names]; exact wellTyped.distinct)
    have holds := namesHold namesClean
    refine ⟨namesClean, ?_, ?_⟩
    · exact (start_errors_eq_nil_iff holds _).mpr
        (by rw [names]; exact wellTyped.start)
    · exact (functions_errors_eq_nil_iff holds _).mpr wellTyped.functions

end Checked

/-- The analysis of a program lists no error exactly if the program is well
typed: nothing ill typed is let through, and nothing well typed is turned
down. -/
theorem analyse_errors_eq_nil_iff_wellTyped (program : Program) :
    (analyse program).errors = [] ↔ program.WellTyped :=
  Checked.program_errors_eq_nil_iff program

end PL0

