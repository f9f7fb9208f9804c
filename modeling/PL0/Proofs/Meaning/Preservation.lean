import PL0.Proofs.Code.Totality
import PL0.Proofs.Meaning.Simulation

/-!
# Making code keeps the meaning

The code of a function, run by the machine, ends exactly as the function does,
with the same outcome and in the same state, whatever the primitive operations
do.  It never gets stuck.  For a program this holds of every function that
checking accepts, once with the types that were recorded and, where every node
has a number of its own, with the declared types.
-/

namespace PL0

open Config Emission

variable {I : Interpretation} {types : TypeTable} {typing : Typing}
  {block : List Instr}

theorem arraySize_does {size : ArraySize} {supply : Supply}
    {emitted : Emitted Operand} {config : Config I}
    (agrees : ∀ count, size = .dynamic count →
      types.Agrees typing count.occurrences)
    (emits : arraySize types size supply = .ok emitted)
    (stands : StandsAt block config.pc emitted.code) :
    Does block config (size.eval typing) fun value reached =>
      config.Passes supply.register emitted.code.length reached ∧
        reached.value? emitted.value = some value := by
  cases size with
  | fixed count =>
      rw [arraySize, pure_eq_ok_iff] at emits
      subst emits
      exact does_pure ⟨.refl, rfl⟩
  | dynamic count => exact expr_does count (agrees count rfl) emits stands

theorem locals_does {declared : List Declaration} {supply : Supply}
    {emitted : Emitted Unit} {config : Config I}
    (agrees : types.Agrees typing (declared.flatMap Declaration.occurrences))
    (emits : locals types declared supply = .ok emitted)
    (stands : StandsAt block config.pc emitted.code) :
    Does block config (Declaration.allocAll typing declared) fun _ reached =>
      reached.pc = config.pc + emitted.code.length := by
  induction declared generalizing supply emitted config with
  | nil =>
      rw [locals, pure_eq_ok_iff] at emits
      subst emits
      exact does_pure rfl
  | cons first others ih =>
      rw [List.flatMap_cons] at agrees
      cases sizeEq : first.type.size? with
      | none =>
          have restDoes :=
            ih agrees.right (locals_scalar_eq_ok sizeEq emits) stands
          simpa [Declaration.allocAll, sizeEq] using restDoes
      | some size =>
          obtain ⟨count, tail, countEmits, tailEmits, rfl⟩ :=
            locals_array_eq_ok sizeEq emits
          have sizeAgrees : ∀ count, size = .dynamic count →
              types.Agrees typing count.occurrences := by
            rintro count rfl
            have firstAgrees := agrees.left
            rwa [Declaration.occurrences, sizeEq] at firstAgrees
          simp only [Declaration.allocAll, sizeEq]
          apply (arraySize_does sizeAgrees countEmits stands.left).bind
          rintro value reached ⟨passes, held⟩
          have standsAlloc := stands.right
          rw [← passes.pc] at standsAlloc
          have stepped : reached.step block =
              reached.proceed
                (Action.alloc first.type.base first.name value) := by
            apply step_eq_of_execute? standsAlloc.head
            simp [execute?, held]
          apply (does_of_proceed stepped).bind
          intro _ behind behindPc
          have standsTail := standsAlloc.tail
          rw [← behindPc] at standsTail
          apply (ih agrees.right tailEmits standsTail).mono
          intro _ last lastPc
          rw [lastPc, behindPc, passes.pc]
          simp only [List.length_append, List.length_cons]
          omega

/-- The body of a function is the last that runs before the function is left. -/
theorem Stmt.ExecAll.halts {statements : List Stmt} {begun final : State I}
    {ending : Ending I.Value} {start next : Nat} {config : Config I}
    {name : String}
    (ran : Stmt.ExecAll typing statements begun ending final)
    (distinct : (definedLabels block).Nodup)
    (placed : StmtsAt types typing block none start next statements)
    (leaveFound : block[next]? = some (.leave name))
    (atStart : config.pc = start) (begunEq : config.state = begun) :
    ∃ outcome, ending.outcome? = some outcome ∧
      config.Halts block (some outcome) final := by
  have ends := ran.ends distinct placed atStart begunEq
  cases ending with
  | normal =>
      obtain ⟨count, reached, reaches, rfl, rfl⟩ := ends
      exact ⟨.finished, rfl,
        reaches.halts (halts_of_step (step_eq_of_execute? leaveFound rfl))⟩
  | broke =>
      obtain ⟨exit, noExit, _⟩ := ends
      cases noExit
  | returned value => exact ⟨.returned value, rfl, ends⟩
  | failed => exact ⟨.failed, rfl, ends⟩

/-- In the code of a function the arrays are made first, then the body stands,
and then the function is left. -/
theorem function_layout {definition : Function} {supply : Supply}
    {emitted : Emitted Unit}
    (agrees : types.Agrees typing definition.occurrences)
    (emits : function types definition supply = .ok emitted) :
    ∃ bodyStart bodyEnd,
      StmtsAt types typing emitted.code none bodyStart bodyEnd definition.body ∧
      emitted.code[bodyEnd]? = some (.leave definition.name) ∧
      ∀ (registers : Register → Cell I.Value) (start : State I),
        Does emitted.code ⟨0, registers, start⟩
          (Declaration.allocAll typing definition.locals) fun _ reached =>
            reached.pc = bodyStart := by
  obtain ⟨room, body, roomEmits, bodyEmits, rfl⟩ := function_eq_ok emits
  have stands := standsAt_self (Instr.enter definition.name
    (definition.params.map Declaration.name) ::
      (room.code ++ (body.code ++ [.leave definition.name])))
  rw [Function.occurrences, Function.declarations,
    List.flatMap_append] at agrees
  refine ⟨_, _, ⟨agrees.right, _, body, bodyEmits, stands.tail.right.left, rfl⟩,
    stands.tail.right.right.head, ?_⟩
  intro registers start
  have entered := @reaches_of_step I _ ⟨0, registers, start⟩ ⟨0 + 1,
      registers, start⟩ (step_eq_of_execute? stands.head rfl)
  apply Does.of_reaches entered rfl
  exact locals_does agrees.left.right roomEmits stands.tail.left

/-- Code does what a function does: the machine halts on it exactly if the
function ends, with the outcome and in the state in which the function ends,
and so is never stuck. -/
def Function.ImplementedBy (typing : Typing) (function : Function)
    (block : List Instr) : Prop :=
  ∀ (I : Interpretation) (registers : Register → Cell I.Value) (start final : State I)
    (outcome? : Option (Outcome I.Value)),
    Halts block ⟨0, registers, start⟩ outcome? final ↔
      ∃ outcome, outcome? = some outcome ∧
        function.Runs typing start outcome final

theorem function_implementedBy {definition : Function} {supply : Supply}
    {emitted : Emitted Unit}
    (agrees : types.Agrees typing definition.occurrences)
    (emits : function types definition supply = .ok emitted) :
    definition.ImplementedBy typing emitted.code := by
  intro I registers start final outcome?
  obtain ⟨_, _, _, distinct⟩ := function_framed emits
  obtain ⟨bodyStart, bodyEnd, placed, leaveFound, allocates⟩ :=
    function_layout agrees emits
  have does := allocates registers start
  constructor
  · intro halts
    rcases allocated : Declaration.allocAll typing definition.locals start with
      ⟨_ | _, state⟩
    · obtain ⟨rfl, rfl⟩ := halts.unique (does.halts allocated)
      exact ⟨.failed, rfl, .noRoom allocated⟩
    · obtain ⟨count, reached, reaches, rfl, atBody⟩ := does.reaches allocated
      obtain ⟨total, halted⟩ := halts
      obtain ⟨ending, last, ran⟩ := placed.exists_execAll distinct atBody
        ⟨total, reaches.run_total halted⟩
      obtain ⟨outcome, outcomeEq, bodyHalts⟩ :=
        ran.halts distinct placed leaveFound atBody rfl
      obtain ⟨rfl, rfl⟩ :=
        Halts.unique ⟨total, halted⟩ (reaches.halts bodyHalts)
      exact ⟨outcome, rfl, .body allocated ran outcomeEq⟩
  · rintro ⟨outcome, rfl, runs⟩
    cases runs with
    | noRoom allocated => exact does.halts allocated
    | body allocated ran outcomeEq =>
        obtain ⟨count, reached, reaches, stateEq, atBody⟩ :=
          does.reaches allocated
        obtain ⟨other, otherEq, bodyHalts⟩ :=
          ran.halts distinct placed leaveFound atBody stateEq
        rw [outcomeEq, Option.some.injEq] at otherEq
        rw [otherEq]
        exact reaches.halts bodyHalts

/-- Code for functions is a row of blocks, one for each function in order. -/
theorem functions_blocks {definitions : List Function} {supply : Supply}
    {emitted : Emitted Unit}
    (emits : functions types definitions supply = .ok emitted) :
    ∃ blocks : List (List Instr), emitted.code = blocks.flatten ∧
      List.Forall₂ (fun definition block => ∃ before after,
        function types definition before = .ok ⟨(), block, after⟩) definitions
          blocks := by
  induction definitions generalizing supply emitted with
  | nil =>
      rw [functions, pure_eq_ok_iff] at emits
      subst emits
      exact ⟨[], rfl, .nil⟩
  | cons first others ih =>
      obtain ⟨head, tail, headEmits, tailEmits, rfl⟩ :=
        functions_cons_eq_ok emits
      obtain ⟨blocks, codeEq, each⟩ := ih tailEmits
      refine ⟨head.code :: blocks, ?_,
        .cons ⟨supply, head.supply, headEmits⟩ each⟩
      rw [List.flatten_cons, ← codeEq]

/-- The base types that a table gives. -/
def TypeTable.recordedTyping (types : TypeTable) : Typing :=
  fun occurrence => (types[occurrence.node.id]?.getD .int).base

/-- The base types that the declarations of a function give, among the given
functions. -/
def Function.declaredTyping (functions : List (String × List ValueType))
    (function : Function) : Typing :=
  fun occurrence =>
    (occurrence.annotation (function.environment functions)).2.base

theorem TypeTable.Knows.agrees {occurrences : List Occurrence}
    (knows : types.Knows (Occurrence.ids occurrences)) :
    types.Agrees types.recordedTyping occurrences := by
  intro occurrence member
  obtain ⟨type, known⟩ := Option.isSome_iff_exists.mp
    (knows occurrence.node.id (Occurrence.id_mem_ids member))
  exact ⟨type, known, by simp [TypeTable.recordedTyping, known]⟩

theorem Program.ids_subset {program : Program} {definition : Function}
    (defined : definition ∈ program.definitions) :
    Occurrence.ids definition.occurrences ⊆ program.ids := by
  intro id member
  obtain ⟨occurrence, occurs, rfl⟩ := List.mem_map.mp member
  exact Occurrence.id_mem_ids
    (List.mem_flatMap.mpr ⟨definition, defined, occurs⟩)

/-- Where every node has a number of its own, the table that checking leaves
has the declared types. -/
theorem agrees_of_nodup {program : Program}
    (accepted : (analyse program).errors = []) (distinct : program.ids.Nodup)
    {definition : Function}
    (defined : definition ∈ program.definitions) :
    (analyse program).types.Agrees
      (definition.declaredTyping program.signatures)
      definition.occurrences := by
  intro occurrence member
  have annotated :
      occurrence.annotation (definition.environment program.signatures) ∈
        program.annotations :=
    List.mem_flatMap.mpr ⟨definition, defined, List.mem_map_of_mem member⟩
  exact ⟨_, getElem?_analyse_types accepted distinct annotated, rfl⟩

/-- Making code keeps the meaning of every program that checking accepts.  The
code is a row of blocks, one for each function in order, and the machine ends
on each block exactly as the function does.  Which of the two forms of an
operation is meant is told by the types that checking recorded; where every
node has a number of its own, these are the declared types. -/
theorem lower_preserves_meaning (program : Program)
    (accepted : (analyse program).errors = []) :
    ∃ blocks : List (List Instr),
      lower program (analyse program).types = .ok blocks.flatten ∧
      List.Forall₂ (fun definition block =>
        (∃ inside, block =
          .enter definition.name (definition.params.map Declaration.name) ::
            (inside ++ [.leave definition.name]) ∧ ∀ instr ∈ inside,
              instr.isEdge = false) ∧
        definition.ImplementedBy (analyse program).types.recordedTyping block ∧
        (program.ids.Nodup →
          definition.ImplementedBy
            (definition.declaredTyping program.signatures) block))
        program.definitions blocks := by
  obtain ⟨code, lowered⟩ := exists_lower_of_analyse_errors_eq_nil accepted
  have knows := knows_of_analyse_errors_eq_nil accepted
  unfold lower at lowered ⊢
  rw [program_eq_functions] at lowered ⊢
  cases emits :
    functions (analyse program).types program.definitions .initial with
  | error error => simp [emits, Except.map] at lowered
  | ok emitted =>
      obtain ⟨blocks, codeEq, each⟩ := functions_blocks emits
      refine ⟨blocks, by rw [← codeEq]; rfl, ?_⟩
      refine (List.forall₂_iff_zip.mpr ⟨each.length_eq, ?_⟩)
      intro definition block paired
      obtain ⟨before, after, blockEmits⟩ := List.forall₂_zip each paired
      have defined := (List.of_mem_zip paired).1
      have recorded :
          (analyse program).types.Agrees (analyse program).types.recordedTyping
            definition.occurrences :=
        TypeTable.Knows.agrees fun id member =>
          knows id (Program.ids_subset defined member)
      obtain ⟨inside, framed, edgeless, _⟩ := function_framed blockEmits
      refine ⟨⟨inside, framed, edgeless⟩,
        function_implementedBy recorded blockEmits, ?_⟩
      intro distinct
      exact function_implementedBy (agrees_of_nodup accepted distinct defined)
        blockEmits

/-- A program with a local array, a loop and a return:
`while i < 3 do begin a[i] := i * 2; i := i + 1 end; return a[0]`. -/
def evenNumbers : Program :=
  let position : Position := ⟨1, 1⟩
  let node (id : NodeId) : Node := ⟨id, position⟩
  let counter (id : NodeId) : Expr :=
    .valueOf (node (id + 1)) (.var (node id) "i")
  .functions [⟨"main", [],
    [⟨"a", ⟨.int, some (.fixed 3)⟩, position⟩, ⟨"i", ⟨.int, none⟩, position⟩],
    [.whileDo position (.rel position .lt (counter 0) (.int (node 2) 3))
      (.block position [
        .assign position (.element (node 5) "a" (counter 3))
          (.binary (node 9) .mul (counter 6) (.int (node 8) 2)),
        .assign position (.var (node 10) "i")
          (.binary (node 14) .add (counter 11) (.int (node 13) 1))]),
     .returnValue position
       (.valueOf (node 17) (.element (node 16) "a" (.int (node 15) 0)))],
    position⟩]

theorem lower_preserves_evenNumbers :
    (analyse evenNumbers).errors = [] ∧ evenNumbers.ids.Nodup ∧
      ∃ blocks, lower evenNumbers (analyse evenNumbers).types =
        .ok blocks.flatten ∧ List.Forall₂ (fun definition block =>
          definition.ImplementedBy
            (definition.declaredTyping evenNumbers.signatures) block)
          evenNumbers.definitions blocks := by
  have accepted : (analyse evenNumbers).errors = [] := by decide +kernel
  have distinct : evenNumbers.ids.Nodup := by decide +kernel
  obtain ⟨blocks, lowered, each⟩ := lower_preserves_meaning evenNumbers accepted
  exact ⟨accepted, distinct, blocks, lowered,
    each.imp fun _ _ holds => holds.2.2 distinct⟩

end PL0
