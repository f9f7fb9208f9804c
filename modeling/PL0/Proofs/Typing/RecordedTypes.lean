import PL0.Proofs.Reading.DistinctNumbers
import PL0.Proofs.Tree.Sites
import PL0.Proofs.Typing.Annotations

/-!
# The recorded types are the types by the rules

The rules give a type to every place and every expression where it stands: in
a size only the names declared before it are known, and a whole array is had
only by what is passed.  Where a text was read and checked without an error,
the recorded table has an entry for each node of the tree and no other, and
each entry is the one type that the rules give.
-/

namespace PL0

/-- The rules as to what stands at a site.  A whole array is passed under its
bare name. -/
inductive Site.HasType (environment : Environment) :
    Site → ValueType → Prop where
  | place {passed : Bool} {held : Place} {base : BaseType}
      (heldTyped : held.HasType environment base) :
      Site.HasType environment ⟨passed, .place held⟩ (.scalar base)
  | expr {passed : Bool} {e : Expr} {base : BaseType}
      (typed : e.HasType environment base) :
      Site.HasType environment ⟨passed, .expr e⟩ (.scalar base)
  | arrayPlace {node : Node} {name : String} {base : BaseType}
      (declared : (name, .array base) ∈ environment.vars) :
      Site.HasType environment ⟨true, .place (.var node name)⟩ (.array base)
  | arrayExpr {node placeNode : Node} {name : String} {base : BaseType}
      (declared : (name, .array base) ∈ environment.vars) :
      Site.HasType environment ⟨true,
        .expr (.valueOf node (.var placeNode name))⟩ (.array base)

/-- A bare name that is passed, or the place in it. -/
def Site.isPassedName : Site → Bool
  | ⟨true, .place (.var ..)⟩ => true
  | ⟨true, .expr (.valueOf _ (.var ..))⟩ => true
  | _ => false

theorem Site.HasType.isPassedName_of_array {environment : Environment}
    {site : Site} {base : BaseType}
    (typing : site.HasType environment (.array base)) :
    site.isPassedName = true := by
  cases typing with
  | arrayPlace declared => rfl
  | arrayExpr declared => rfl

/-- The type by the rules is the type that is read off the declarations. -/
theorem Site.HasType.annotation_eq {environment other : Environment}
    (agrees : environment.Agrees other) {site : Site} {type : ValueType}
    (typing : site.HasType environment type) :
    site.occurrence.annotation other = (site.occurrence.node.id, type) := by
  cases typing with
  | place heldTyped => simp [Occurrence.annotation, heldTyped.typeIn_eq agrees]
  | expr typed => simp [Occurrence.annotation, typed.typeIn_eq agrees]
  | arrayPlace declared =>
      simp [Occurrence.annotation, Place.typeIn, agrees _ _ declared]
  | arrayExpr declared =>
      simp [Occurrence.annotation, Expr.typeIn, Place.typeIn,
        agrees _ _ declared]

/-- The rules give a type to each of the sites. -/
def Environment.Types (environment : Environment) (sites : List Site) : Prop :=
  ∀ site ∈ sites, ∃ type, site.HasType environment type

namespace Environment

variable {environment : Environment}

theorem Types.append {first second : List Site}
    (firstTyped : environment.Types first)
    (secondTyped : environment.Types second) :
    environment.Types (first ++ second) :=
  List.forall_mem_append.mpr ⟨firstTyped, secondTyped⟩

theorem types_singleton {site : Site} {type : ValueType}
    (typing : site.HasType environment type) : environment.Types [site] :=
  List.forall_mem_singleton.mpr ⟨type, typing⟩

end Environment

section Typed

variable {environment : Environment}

mutual

theorem Place.types_sites : ∀ {held : Place} {base : BaseType} (passed : Bool),
    held.HasType environment base → environment.Types (held.sites passed)
  | .var node name, _, passed, typing => by
      rw [Place.sites]
      exact Environment.types_singleton (.place typing)
  | .element node name index, _, passed, typing => by
      rw [Place.sites]
      refine Environment.Types.append ?_
        (Environment.types_singleton (.place typing))
      cases typing with
      | element _ indexTyped => exact Expr.types_sites false indexTyped

theorem Expr.types_sites : ∀ {e : Expr} {base : BaseType} (passed : Bool),
    e.HasType environment base → environment.Types (e.sites passed)
  | .int node value, _, passed, typing => by
      rw [Expr.sites]
      exact Environment.types_singleton (.expr typing)
  | .float node value, _, passed, typing => by
      rw [Expr.sites]
      exact Environment.types_singleton (.expr typing)
  | .valueOf node held, _, passed, typing => by
      rw [Expr.sites]
      refine Environment.Types.append ?_
        (Environment.types_singleton (.expr typing))
      cases typing with
      | valueOf heldTyped => exact Place.types_sites passed heldTyped
  | .binary node op left right, _, passed, typing => by
      rw [Expr.sites]
      refine Environment.Types.append ?_
        (Environment.types_singleton (.expr typing))
      cases typing with
      | binary leftTyped rightTyped =>
          exact (Expr.types_sites false leftTyped).append
            (Expr.types_sites false rightTyped)
  | .signed node op operand, _, passed, typing => by
      rw [Expr.sites]
      refine Environment.Types.append ?_
        (Environment.types_singleton (.expr typing))
      cases typing with
      | signed operandTyped => exact Expr.types_sites false operandTyped
  | .call node callee args, _, passed, typing => by
      rw [Expr.sites]
      refine Environment.Types.append ?_
        (Environment.types_singleton (.expr typing))
      cases typing with
      | call _ argsTyped => exact Expr.types_passedSites argsTyped
  | .cast node target operand, _, passed, typing => by
      rw [Expr.sites]
      refine Environment.Types.append ?_
        (Environment.types_singleton (.expr typing))
      cases typing with
      | cast operandTyped => exact Expr.types_sites false operandTyped

theorem Expr.types_passedSites : ∀ {args : List Expr} {params : List ValueType},
    List.Forall₂ (Expr.PassesAs environment) args params →
      environment.Types (Expr.passedSites args)
  | [], _, .nil => by
      rw [Expr.passedSites]
      exact List.forall_mem_nil _
  | arg :: args, param :: params, .cons argPasses argsPass => by
      rw [Expr.passedSites]
      refine Environment.Types.append ?_ (Expr.types_passedSites argsPass)
      cases argPasses with
      | scalar argTyped => exact Expr.types_sites true argTyped
      | array declared =>
          rw [Expr.sites, Place.sites]
          exact (Environment.types_singleton (.arrayPlace declared)).append
            (Environment.types_singleton (.arrayExpr declared))

end

theorem Condition.WellTyped.types_sites {test : Condition}
    (typing : test.WellTyped environment) : environment.Types test.sites := by
  induction typing with
  | rel leftTyped rightTyped =>
      exact (Expr.types_sites false leftTyped).append
        (Expr.types_sites false rightTyped)
  | logic _ _ leftIH rightIH => exact leftIH.append rightIH
  | not _ ih => exact ih

theorem Stmt.types_allSites {statements : List Stmt}
    (typed : ∀ statement ∈ statements, environment.Types statement.sites) :
    environment.Types (Stmt.allSites statements) := by
  induction statements with
  | nil =>
      rw [Stmt.allSites]
      exact List.forall_mem_nil _
  | cons first others ih =>
      obtain ⟨firstTyped, othersTyped⟩ := List.forall_mem_cons.mp typed
      rw [Stmt.allSites]
      exact firstTyped.append (ih othersTyped)

theorem Stmt.WellTyped.types_sites {inLoop : Bool} {s : Stmt}
    (typing : s.WellTyped environment inLoop) : environment.Types s.sites := by
  induction typing with
  | assign targetTyped valueTyped =>
      rw [Stmt.sites]
      exact (Place.types_sites false targetTyped).append
        (Expr.types_sites false valueTyped)
  | ifThen testTyped _ thenIH =>
      rw [Stmt.sites]
      exact testTyped.types_sites.append thenIH
  | ifElse testTyped _ _ thenIH elseIH =>
      rw [Stmt.sites]
      exact (testTyped.types_sites.append thenIH).append elseIH
  | whileDo testTyped _ bodyIH =>
      rw [Stmt.sites]
      exact testTyped.types_sites.append bodyIH
  | block _ ih =>
      rw [Stmt.sites]
      exact Stmt.types_allSites ih
  | breakLoop | skip | print =>
      rw [Stmt.sites]
      exact List.forall_mem_nil _
  | returnValue valueTyped | write valueTyped =>
      rw [Stmt.sites]
      exact Expr.types_sites false valueTyped
  | read targetTyped =>
      rw [Stmt.sites]
      exact Place.types_sites false targetTyped
  | call _ argsTyped =>
      rw [Stmt.sites]
      exact Expr.types_passedSites argsTyped

theorem Declaration.types_sites {declaration : Declaration}
    (sizeTyped : ∀ count, declaration.type.size? = some (.dynamic count) →
      count.HasType environment .int) : environment.Types
        declaration.sites := by
  unfold Declaration.sites
  split
  · next count isDynamic =>
      exact Expr.types_sites false (sizeTyped count isDynamic)
  · exact List.forall_mem_nil _

end Typed

/-- A site and what is declared where it stands. -/
structure ScopedSite extends Site where
  environment : Environment

/-- What stands at a site has a type by the rules, as to what is declared
there. -/
def ScopedSite.HasType (site : ScopedSite) (type : ValueType) : Prop :=
  site.toSite.HasType site.environment type

/-- Sites that stand in one environment. -/
def Environment.scope (environment : Environment) (sites : List Site) :
    List ScopedSite :=
  sites.map fun site => ⟨site, environment⟩

/-- The sites of the sizes of declarations, each size where the declarations
before it are known. -/
def Environment.sizeSites (environment : Environment) :
    List Declaration → List ScopedSite
  | [] => []
  | first :: others =>
    environment.scope first.sites ++
      (environment.declare [first]).sizeSites others

/-- The sites of a function among the given functions: those of the sizes of
its parameters and its locals, then those of its body. -/
def Function.sites (functions : List (String × List ValueType))
    (function : Function) : List ScopedSite :=
  (⟨functions, []⟩ : Environment).sizeSites function.declarations ++
    (function.environment functions).scope (Stmt.allSites function.body)

/-- The sites of a program, function by function. -/
def Program.sites (program : Program) : List ScopedSite :=
  program.definitions.flatMap (Function.sites program.signatures)

section Occurrences

@[simp]
theorem Environment.map_occurrence_scope (environment : Environment)
    (sites : List Site) :
    (environment.scope sites).map (fun site => site.occurrence) =
      sites.map Site.occurrence := by
  simp [Environment.scope, Function.comp_def]

theorem Environment.map_occurrence_sizeSites (environment : Environment)
    (declared : List Declaration) :
    (environment.sizeSites declared).map (fun site => site.occurrence) =
      declared.flatMap Declaration.occurrences := by
  induction declared generalizing environment with
  | nil => rfl
  | cons first others ih =>
      simp [Environment.sizeSites, first.map_occurrence_sites, ih]

theorem Function.map_occurrence_sites
    (functions : List (String × List ValueType))
    (function : Function) :
    (function.sites functions).map (fun site => site.occurrence) =
      function.occurrences := by
  simp [Function.sites, Function.occurrences,
    Environment.map_occurrence_sizeSites, Stmt.map_occurrence_allSites]

/-- The sites of a program are those of all that occurs in it, in the same
order. -/
theorem Program.map_occurrence_sites (program : Program) :
    program.sites.map (fun site => site.occurrence) = program.occurrences := by
  simp [Program.sites, Program.occurrences, List.map_flatMap,
    Function.map_occurrence_sites]

end Occurrences

/-- The rules give a site a type, by declarations that stand in the given
environment too. -/
structure ScopedSite.FitsIn (site : ScopedSite) (environment : Environment) :
    Prop where
  typed : ∃ type, site.HasType type
  subset : site.environment.vars ⊆ environment.vars

theorem Environment.Types.fitsIn {environment : Environment} {sites : List Site}
    (typed : environment.Types sites) {other : Environment}
    (subset : environment.vars ⊆ other.vars) :
    ∀ site ∈ environment.scope sites, site.FitsIn other := by
  intro site member
  obtain ⟨bare, listed, rfl⟩ := List.mem_map.mp member
  exact ⟨typed bare listed, subset⟩

theorem Environment.vars_subset_declare (environment : Environment)
    (declared : List Declaration) :
    environment.vars ⊆ (environment.declare declared).vars :=
  List.subset_append_left _ _

/-- The sizes of declarations fit in where all of the declarations are known. -/
theorem Environment.sizeSites_fitIn {environment : Environment}
    {declared : List Declaration}
    (sizesTyped : Declaration.SizesTyped environment declared) :
    ∀ site ∈ environment.sizeSites declared,
      site.FitsIn (environment.declare declared) := by
  induction declared generalizing environment with
  | nil => exact List.forall_mem_nil _
  | cons first others ih =>
      obtain ⟨firstTyped, othersTyped⟩ :=
        (Declaration.sizesTyped_cons first others).mp sizesTyped
      refine List.forall_mem_append.mpr ⟨?_, ?_⟩
      · exact (Declaration.types_sites firstTyped).fitsIn
          (environment.vars_subset_declare (first :: others))
      · rw [Environment.declare_cons first others]
        exact ih othersTyped

theorem Function.sites_fitIn {functions : List (String × List ValueType)}
    {function : Function} (wellTyped : function.WellTyped functions) :
    ∀ site ∈ function.sites functions,
      site.FitsIn (function.environment functions) := by
  refine List.forall_mem_append.mpr ⟨?_, ?_⟩
  · have sizesTyped : Declaration.SizesTyped ⟨functions,
        []⟩ function.declarations :=
      wellTyped.sizes
    exact Environment.sizeSites_fitIn sizesTyped
  · refine Environment.Types.fitsIn (Stmt.types_allSites ?_)
      (List.Subset.refl _)
    intro statement member
    exact (wellTyped.body statement member).types_sites

/-- What the rules say of a site of a well-typed program is its annotation. -/
theorem Program.WellTyped.annotation_mem {program : Program}
    (wellTyped : program.WellTyped) {site : ScopedSite}
    (member : site ∈ program.sites) :
    (∃ type, site.HasType type) ∧
      ∀ type, site.HasType type → (site.occurrence.node.id,
        type) ∈ program.annotations := by
  obtain ⟨definition, defined, inDefinition⟩ := List.mem_flatMap.mp member
  have definitionTyped := wellTyped.functions definition defined
  have fits := definition.sites_fitIn definitionTyped site inDefinition
  refine ⟨fits.typed, ?_⟩
  intro type typing
  have distinct :
      ((definition.environment program.signatures).vars.map
        Prod.fst).Nodup := by
    rw [definition.map_fst_environment_vars]
    exact definitionTyped.distinct
  have agrees := Environment.agrees_of_subset distinct fits.subset
  have occurs : site.occurrence ∈ definition.occurrences := by
    rw [← definition.map_occurrence_sites program.signatures]
    exact List.mem_map_of_mem inDefinition
  rw [← Site.HasType.annotation_eq agrees typing]
  exact List.mem_flatMap.mpr ⟨definition, defined, List.mem_map_of_mem occurs⟩

/-- Where every node has a number of its own, the table that checking leaves
has at each site the one type that the rules give it. -/
theorem getElem?_analyse_types_iff {program : Program}
    (accepted : (analyse program).errors = []) (distinct : program.ids.Nodup)
    {site : ScopedSite} (member : site ∈ program.sites)
    (type : ValueType) :
    (analyse program).types[site.occurrence.node.id]? = some type ↔
      site.HasType type := by
  have wellTyped : program.WellTyped :=
    (Checked.program_errors_eq_nil_iff program).mp accepted
  obtain ⟨⟨given, givenTyping⟩, annotated⟩ := wellTyped.annotation_mem member
  constructor
  · intro recorded
    have givenRecorded :=
      getElem?_analyse_types accepted distinct (annotated given givenTyping)
    rw [givenRecorded] at recorded
    exact Option.some.inj recorded ▸ givenTyping
  · intro typing
    exact getElem?_analyse_types accepted distinct (annotated type typing)

/-- Where the numbers of the nodes ascend, they are the keys of the table in
order. -/
theorem keys_analyse_types {program : Program}
    (accepted : (analyse program).errors = [])
    (ascending : program.ids.Pairwise (· < ·)) :
    (analyse program).types.keys = program.ids := by
  have keysAscend : (analyse program).types.keys.Pairwise (· < ·) :=
    Std.TreeMap.ordered_keys.imp Nat.compare_eq_lt.mp
  have sameMembers : ∀ id, id ∈ (analyse program).types.keys ↔
      id ∈ program.ids := by
    intro id
    rw [Std.TreeMap.mem_keys]
    exact mem_analyse_types_iff accepted id
  have perm : (analyse program).types.keys.Perm program.ids :=
    (List.perm_ext_iff_of_nodup (keysAscend.imp Nat.ne_of_lt)
      (ascending.imp Nat.ne_of_lt)).mpr sameMembers
  exact perm.eq_of_pairwise (fun _ _ _ _ less greater =>
    absurd less (Nat.lt_asymm greater))
    keysAscend ascending

/-- The table that checking leaves of a text without errors is complete and
exact.  Its keys are the numbers of all that occurs in the tree, which are the
first numbers without a gap.  Under each is the one type that the rules give
where the node stands, and it is an array only for a bare name that is passed
and the place in it. -/
theorem analyse_types_exact (tokens : List Token)
    (noErrors : (readProgram tokens).errors = [])
    (accepted : (analyse (readProgram tokens).program).errors = []) :
    let program := (readProgram tokens).program
    let types := (analyse program).types
    types.keys = program.ids ∧
      program.ids = List.range program.occurrences.length ∧
      program.sites.map (fun site => site.occurrence) = program.occurrences ∧
      ∀ site ∈ program.sites,
        (∀ type, types[site.occurrence.node.id]? = some type ↔
          site.HasType type) ∧
          ∀ base, types[site.occurrence.node.id]? = some (.array base) →
            site.isPassedName = true := by
  intro program types
  have sequential : program.ids = List.range program.occurrences.length :=
    readProgram_ids_eq_range noErrors
  have ascending : program.ids.Pairwise (· < ·) := by
    rw [sequential]
    exact List.pairwise_lt_range
  refine ⟨keys_analyse_types accepted ascending, sequential,
    program.map_occurrence_sites, ?_⟩
  intro site member
  have recorded :=
    getElem?_analyse_types_iff accepted (readProgram_ids_nodup tokens) member
  refine ⟨recorded, ?_⟩
  intro base isArray
  exact ((recorded (.array base)).mp isArray).isPassedName_of_array

/-- The tokens of `fun main(n: int, v: float[n]) begin main(n, v) end`, where
a size speaks of a parameter and an array is passed. -/
def passedRow : List Token :=
  [⟨.keyword .funWord, ⟨1, 1⟩⟩, ⟨.identifier "main", ⟨1, 5⟩⟩,
    ⟨.symbol .openParen, ⟨1, 9⟩⟩, ⟨.identifier "n", ⟨1, 10⟩⟩,
    ⟨.symbol .colon, ⟨1, 11⟩⟩, ⟨.keyword .intWord, ⟨1, 13⟩⟩,
    ⟨.symbol .comma, ⟨1, 16⟩⟩, ⟨.identifier "v", ⟨1, 18⟩⟩,
    ⟨.symbol .colon, ⟨1, 19⟩⟩,
    ⟨.keyword .floatWord, ⟨1, 21⟩⟩, ⟨.symbol .openBracket, ⟨1, 26⟩⟩,
    ⟨.identifier "n", ⟨1, 27⟩⟩, ⟨.symbol .closeBracket, ⟨1, 28⟩⟩,
    ⟨.symbol .closeParen, ⟨1, 29⟩⟩, ⟨.keyword .beginWord, ⟨1, 31⟩⟩,
    ⟨.identifier "main", ⟨1, 37⟩⟩, ⟨.symbol .openParen, ⟨1, 41⟩⟩,
    ⟨.identifier "n", ⟨1, 42⟩⟩,
    ⟨.symbol .comma, ⟨1, 43⟩⟩, ⟨.identifier "v", ⟨1, 45⟩⟩,
    ⟨.symbol .closeParen, ⟨1, 46⟩⟩,
    ⟨.keyword .endWord, ⟨1, 48⟩⟩]

theorem analyse_types_exact_passedRow :
    let program := (readProgram passedRow).program
    let types := (analyse program).types
    (readProgram passedRow).errors = [] ∧ (analyse program).errors = [] ∧
      types.keys = List.range 6 ∧
      types[0]? = some .int ∧ types[5]? = some (.array .float) ∧
      ∀ site ∈ program.sites, ∀ type,
        types[site.occurrence.node.id]? = some type ↔ site.HasType type := by
  intro program types
  have noErrors : (readProgram passedRow).errors = [] := by decide +kernel
  have accepted : (analyse program).errors = [] := by decide +kernel
  have six : program.occurrences.length = 6 := by decide +kernel
  obtain ⟨keys, sequential, _, recorded⟩ :=
    analyse_types_exact passedRow noErrors accepted
  refine ⟨noErrors, accepted, ?_, by decide +kernel, by decide +kernel, ?_⟩
  · exact keys.trans (sequential.trans (congrArg List.range six))
  · intro site member
    exact (recorded site member).1

end PL0
