import PL0.Proofs.Code.Renumbering

/-!
# Functions behind functions

The code of a list of functions takes as many label numbers from the supply as
the functions have branches and loops, and as many registers as it defines.
Functions that are put behind others start from there: their code is the code
they have on their own, renumbered, and the code of the others stays as it is.
-/

namespace PL0

mutual

/-- How many branches and loops a statement has. -/
def Stmt.forks : Stmt → Nat
  | .ifThen _ _ thenBranch => 1 + thenBranch.forks
  | .ifElse _ _ thenBranch elseBranch => 1 + thenBranch.forks + elseBranch.forks
  | .whileDo _ _ body => 1 + body.forks
  | .block _ statements => Stmt.allForks statements
  | .assign .. | .breakLoop _ | .skip _ | .returnValue .. | .read .. | .write ..
  | .print ..
  | .call .. => 0

/-- How many branches and loops some statements have. -/
def Stmt.allForks : List Stmt → Nat
  | [] => 0
  | first :: others => first.forks + Stmt.allForks others

end

/-- How many branches and loops some functions have. -/
def forkCount (definitions : List Function) : Nat :=
  (definitions.map fun definition => Stmt.allForks definition.body).sum

namespace Emission

variable {types : TypeTable}

mutual

/-- A statement takes a label number for each of its branches and loops. -/
theorem stmt_label : ∀ (s : Stmt) {exit? : Option Label} {supply : Supply}
    {emitted : Emitted Unit}, stmt types exit? s supply = .ok emitted →
      emitted.supply.label = supply.label + s.forks
  | .assign position held value, exit?, supply, emitted => by
      intro emits
      obtain ⟨dest, source, destEmits, sourceEmits, rfl⟩ :=
        stmt_assign_eq_ok emits
      rw [(expr_straight value sourceEmits).1.label,
        (target_straight destEmits).1.label]
      simp [Stmt.forks]
  | .ifThen position test thenBranch, exit?, supply, emitted => by
      intro emits
      obtain ⟨tested, inner, testedEmits, innerEmits, rfl⟩ :=
        stmt_ifThen_eq_ok emits
      have testedLabel := (condition_straight testedEmits).1.label
      have innerLabel := stmt_label thenBranch innerEmits
      simp only [Supply.nextLabel, Stmt.forks] at *
      omega
  | .ifElse position test thenBranch elseBranch, exit?, supply, emitted => by
      intro emits
      obtain ⟨tested, first, second, testedEmits, firstEmits,
        secondEmits, rfl⟩ :=
        stmt_ifElse_eq_ok emits
      have testedLabel := (condition_straight testedEmits).1.label
      have firstLabel := stmt_label thenBranch firstEmits
      have secondLabel := stmt_label elseBranch secondEmits
      simp only [Supply.nextLabel, Stmt.forks] at *
      omega
  | .whileDo position test body, exit?, supply, emitted => by
      intro emits
      obtain ⟨tested, inner, testedEmits, innerEmits, rfl⟩ :=
        stmt_whileDo_eq_ok emits
      have testedLabel := (condition_straight testedEmits).1.label
      have innerLabel := stmt_label body innerEmits
      simp only [Supply.nextLabel, Stmt.forks] at *
      omega
  | .block position statements, exit?, supply, emitted => by
      intro emits
      rw [stmt] at emits
      rw [Stmt.forks]
      exact stmts_label statements emits
  | .breakLoop position, exit?, supply, emitted => by
      intro emits
      obtain ⟨exit, _, rfl⟩ := stmt_breakLoop_eq_ok emits
      simp [Stmt.forks]
  | .skip position, exit?, supply, emitted => by
      intro emits
      rw [stmt_skip_eq_ok emits]
      simp [Stmt.forks]
  | .returnValue position value, exit?, supply, emitted => by
      intro emits
      obtain ⟨source, sourceEmits, rfl⟩ := stmt_returnValue_eq_ok emits
      rw [(expr_straight value sourceEmits).1.label]
      simp [Stmt.forks]
  | .read position held, exit?, supply, emitted => by
      intro emits
      obtain ⟨dest, destEmits, rfl⟩ := stmt_read_eq_ok emits
      rw [(target_straight destEmits).1.label]
      simp [Stmt.forks]
  | .write position value, exit?, supply, emitted => by
      intro emits
      obtain ⟨source, sourceEmits, rfl⟩ := stmt_write_eq_ok emits
      rw [(expr_straight value sourceEmits).1.label]
      simp [Stmt.forks]
  | .print position text, exit?, supply, emitted => by
      intro emits
      rw [stmt_print_eq_ok emits]
      simp [Stmt.forks]
  | .call position callee args, exit?, supply, emitted => by
      intro emits
      obtain ⟨inner, innerEmits, rfl⟩ := stmt_call_eq_ok emits
      rw [(exprs_straight args innerEmits).1.label]
      simp [Stmt.forks]

theorem stmts_label :
    ∀ (statements : List Stmt) {exit? : Option Label} {supply : Supply}
    {emitted : Emitted Unit},
    stmts types exit? statements supply = .ok emitted →
      emitted.supply.label = supply.label + Stmt.allForks statements
  | [], exit?, supply, emitted => by
      intro emits
      rw [stmts, pure_eq_ok_iff] at emits
      subst emits
      simp [Stmt.allForks]
  | first :: others, exit?, supply, emitted => by
      intro emits
      obtain ⟨head, tail, headEmits, tailEmits, rfl⟩ := stmts_cons_eq_ok emits
      rw [stmts_label others tailEmits, stmt_label first headEmits,
        Stmt.allForks, Nat.add_assoc]

end

theorem functions_label {definitions : List Function} {supply : Supply}
    {emitted : Emitted Unit}
    (emits : functions types definitions supply = .ok emitted) :
    emitted.supply.label = supply.label + forkCount definitions := by
  induction definitions generalizing supply emitted with
  | nil =>
      rw [functions, pure_eq_ok_iff] at emits
      subst emits
      simp [forkCount]
  | cons first others ih =>
      obtain ⟨head, tail, headEmits, tailEmits, rfl⟩ :=
        functions_cons_eq_ok emits
      obtain ⟨room, body, roomEmits, bodyEmits, rfl⟩ := function_eq_ok headEmits
      have tailLabel := ih tailEmits
      have bodyLabel := stmts_label first.body bodyEmits
      have roomLabel := (locals_straight roomEmits).label
      simp only [forkCount, List.map_cons, List.sum_cons] at *
      omega

/-- Functions leave nothing waiting. -/
theorem functions_balanced {definitions : List Function} {supply : Supply}
    {emitted : Emitted Unit}
    (emits : functions types definitions supply = .ok emitted) :
    Balanced supply emitted.code [] emitted.supply := by
  induction definitions generalizing supply emitted with
  | nil =>
      rw [functions, pure_eq_ok_iff] at emits
      subst emits
      exact .nil supply
  | cons first others ih =>
      obtain ⟨head, tail, headEmits, tailEmits, rfl⟩ :=
        functions_cons_eq_ok emits
      obtain ⟨room, body, roomEmits, bodyEmits, rfl⟩ := function_eq_ok headEmits
      have bodyBalanced :
          Balanced room.supply (body.code ++ [.leave first.name]) []
            body.supply :=
        (stmts_balanced first.body bodyEmits).spend rfl (.refl _)
      exact .append_spent
        (.cons_spent rfl rfl
          ((locals_balanced roomEmits).append_spent bodyBalanced))
            (ih tailEmits)

/-- What functions take from a new supply: the registers that their code
defines, and a label number for each of their branches and loops. -/
theorem functions_supply {definitions : List Function} {emitted : Emitted Unit}
    (emits : functions types definitions .initial = .ok emitted) :
    emitted.supply = ⟨(resultRegisters emitted.code).length,
      forkCount definitions⟩ := by
  have labelEq : emitted.supply.label = forkCount definitions := by
    rw [functions_label emits]
    exact Nat.zero_add _
  have registerEq : (resultRegisters emitted.code).length =
      emitted.supply.register := by
    rw [(functions_balanced emits).results_eq, List.length_map,
      List.length_range]
  rw [registerEq, ← labelEq]

/-- Code for functions is made in two parts, the second from what the first
leaves. -/
theorem functions_append (first second : List Function) (supply : Supply) :
    functions types (first ++ second) supply =
      (functions types first supply).bind fun before =>
        (functions types second before.supply).map fun after =>
          ⟨(), before.code ++ after.code, after.supply⟩ := by
  induction first generalizing supply with
  | nil =>
      simp only [List.nil_append, functions, pure, Except.bind]
      cases functions types second supply <;> rfl
  | cons head others ih =>
      simp only [List.cons_append, functions, bind, ih]
      cases function types head supply with
      | error error => rfl
      | ok headEmitted =>
          simp only
          cases functions types others headEmitted.supply with
          | error error => rfl
          | ok before =>
              simp only [Except.bind]
              cases functions types second before.supply with
              | error error => rfl
              | ok after => simp [Except.map]

end Emission

/-- The code of functions behind others, as it is made: where the first have
no code the reason is theirs, then comes the reason of the second. -/
theorem lower_append_eq_bind (first second : List Function)
    (types : TypeTable) :
    lower (.functions (first ++ second)) types =
      (lower (.functions first) types).bind fun code =>
        (lower (.functions second) types).map fun further =>
          code ++ further.map
            (.renumber ⟨(resultRegisters code).length, forkCount first⟩) := by
  change (Emission.functions types (first ++ second) .initial).map _ =
    ((Emission.functions types first .initial).map _).bind fun code =>
      ((Emission.functions types second .initial).map _).map _
  rw [Emission.functions_append]
  cases firstRan : Emission.functions types first .initial with
  | error error => rfl
  | ok before =>
      -- What the first functions have taken from the supply is where the
      -- second ones start.
      have follows :=
        Emission.functions_follows types before.supply second .initial
      have startEq : Supply.initial.advance before.supply = before.supply := by
        simp [Supply.advance, Supply.initial]
      rw [startEq] at follows
      simp only [Except.bind, Except.map, ← Emission.functions_supply firstRan,
        follows]
      cases Emission.functions types second .initial with
      | error error => rfl
      | ok after => rfl

/-- Making code is compositional.  Functions put behind others have code
exactly if both have code on their own.  Then the code of the first comes
unchanged, and behind it that of the second, with its registers moved on by
the number of registers that the first define and its labels by the number of
their branches and loops. -/
theorem lower_append (first second : List Function) (types : TypeTable) :
    ((∃ code, lower (.functions (first ++ second)) types = .ok code) ↔
      (∃ code, lower (.functions first) types = .ok code) ∧
        ∃ code, lower (.functions second) types = .ok code) ∧
    ∀ firstCode secondCode, lower (.functions first) types = .ok firstCode →
      lower (.functions second) types = .ok secondCode →
        lower (.functions (first ++ second)) types =
          .ok (firstCode ++ secondCode.map
          (.renumber ⟨(resultRegisters firstCode).length,
            forkCount first⟩)) := by
  rw [lower_append_eq_bind]
  constructor
  · cases lower (.functions first) types with
    | error error => simp [Except.bind]
    | ok code => cases lower (.functions second) types <;> simp [Except.bind,
        Except.map]
  · intro firstCode secondCode firstLowered secondLowered
    rw [firstLowered, secondLowered]
    rfl

/-- A function with a branch,
`fun f(a: int) begin if a < 1 then return a + 2 end`. -/
def branching : Function :=
  let position : Position := ⟨1, 1⟩
  let param (id : NodeId) : Expr :=
    .valueOf ⟨id + 1, position⟩ (.var ⟨id, position⟩ "a")
  let number (id : NodeId) (value : Int64) : Expr := .int ⟨id, position⟩ value
  ⟨"f", [⟨"a", ⟨.int, none⟩, position⟩], [],
    [.ifThen position (.rel position .lt (param 0) (number 2 1))
      (.returnValue position (.binary ⟨6,
        position⟩ .add (param 3) (number 5 2)))], position⟩

/-- A function with a loop, `fun main() begin while f(3) > 1 do break end`. -/
def looping : Function :=
  let position : Position := ⟨1, 1⟩
  let number (id : NodeId) (value : Int64) : Expr := .int ⟨id, position⟩ value
  ⟨"main", [], [], [.whileDo position (.rel position .gt
    (.call ⟨8, position⟩ "f" [number 7 3]) (number 9 1)) (.breakLoop position)],
      position⟩

/-- The code of the function with a branch. -/
def branchingCode : List Instr :=
  [.enter "f" ["a"], .compare .lt .int (.var "a") (.int 1) ⟨0⟩,
    .jumpIf ⟨0⟩ (.branch 0 .thenPart), .jump (.branch 0 .endPart),
    .label (.branch 0 .thenPart),
    .binary .add .int (.var "a") (.int 2) ⟨1⟩, .returnValue (.reg ⟨1⟩),
    .label (.branch 0 .endPart), .leave "f"]

/-- The code of the function with a loop, its registers and labels numbered
from the given ones. -/
def loopingCode (register label : Nat) : List Instr :=
  [.enter "main" [], .label (.loop label .startPart),
    .call "f" [.int 3] (some ⟨register⟩),
    .compare .gt .int (.reg ⟨register⟩) (.int 1) ⟨register + 1⟩,
    .jumpIf ⟨register + 1⟩ (.loop label .bodyPart),
    .jump (.loop label .exitPart),
    .label (.loop label .bodyPart), .jump (.loop label .exitPart),
    .jump (.loop label .startPart), .label (.loop label .exitPart),
    .leave "main"]

theorem lower_append_loopBehindBranch :
    let types : TypeTable :=
      .ofList [(1, ValueType.int), (6, ValueType.int), (8, ValueType.int)]
    lower (.functions [branching]) types = .ok branchingCode ∧
      lower (.functions [looping]) types = .ok (loopingCode 0 0) ∧
      lower (.functions [branching, looping]) types =
        .ok (branchingCode ++ loopingCode 2 1) := by
  intro types
  have first : lower (.functions [branching]) types = .ok branchingCode := by
    decide +kernel
  have second : lower (.functions [looping]) types = .ok (loopingCode 0 0) := by
    decide +kernel
  have forksEq : forkCount [branching] = 1 := by
    simp [forkCount, branching, Stmt.allForks, Stmt.forks]
  have both := (lower_append [branching] [looping] types).2 _ _ first second
  rw [forksEq] at both
  exact ⟨first, second, both⟩

end PL0
