import PL0.Proofs.Meaning.Expressions

/-!
# Code for statements in its place

The code of a statement stands in the code of its function from one
instruction to another.  For each form of statement it is said here where the
code of its parts stands, where control goes from the end of each part, and
where a test leads.  Nothing more is needed of the instructions to see that
code and statement do the same.
-/

namespace PL0

variable {I : Interpretation}

namespace Config

variable {block : List Instr} {config reached : Config I} {point : Nat}

theorem reaches_label {label : Label}
    (found : block[config.pc]? = some (.label label)) :
    Reaches block 1 config ⟨config.pc + 1, config.registers, config.state⟩ :=
  reaches_of_step (step_eq_of_execute? found rfl)

theorem reaches_jump {target : Label}
    (found : block[config.pc]? = some (.jump target))
    (targetAt : block.idxOf? (.label target) = some point) :
    Reaches block 1 config ⟨point, config.registers, config.state⟩ := by
  refine reaches_of_step (step_eq_of_execute? found ?_)
  simp [execute?, jump?, targetAt]

theorem reaches_jumpIf_true {test : Register} {target : Label}
    (found : block[config.pc]? = some (.jumpIf test target))
    (held : config.registers test = .truth true)
    (targetAt : block.idxOf? (.label target) = some point) :
    Reaches block 1 config ⟨point, config.registers, config.state⟩ := by
  refine reaches_of_step (step_eq_of_execute? found ?_)
  simp [execute?, held, Cell.truth?, jump?, targetAt]

theorem reaches_jumpIf_false {test : Register} {target : Label}
    (found : block[config.pc]? = some (.jumpIf test target))
    (held : config.registers test = .truth false) :
    Reaches block 1 config ⟨config.pc + 1, config.registers, config.state⟩ := by
  refine reaches_of_step (step_eq_of_execute? found ?_)
  simp [execute?, held, Cell.truth?, proceed]

/-- A test leads behind one of two labels. -/
theorem reaches_branch {test : Register} {yes no : Label}
    {yesPoint noPoint : Nat} {rest : List Instr} {holds : Bool}
    (stands : StandsAt block config.pc (.jumpIf test yes :: .jump no :: rest))
    (held : config.registers test = .truth holds)
    (yesAt : block.idxOf? (.label yes) = some yesPoint)
    (noAt : block.idxOf? (.label no) = some noPoint)
    (yesFound : block[yesPoint]? = some (.label yes))
    (noFound : block[noPoint]? = some (.label no)) :
    ∃ count, Reaches block count config
      ⟨(if holds then yesPoint else noPoint) + 1, config.registers,
        config.state⟩ := by
  cases holds with
  | true =>
      have jumped := reaches_jumpIf_true stands.head held yesAt
      have behind := @reaches_label I block ⟨yesPoint, config.registers,
          config.state⟩ yes yesFound
      exact ⟨1 + 1, jumped.trans behind⟩
  | false =>
      have passed := reaches_jumpIf_false stands.head held
      have jumped := @reaches_jump I block
        ⟨config.pc + 1, config.registers,
          config.state⟩ noPoint no stands.tail.head noAt
      have behind := @reaches_label I block ⟨noPoint, config.registers,
          config.state⟩ no noFound
      exact ⟨1 + 1 + 1, (passed.trans jumped).trans behind⟩

theorem Does.of_reaches {α : Type} {action : Action I α}
    {demand : α → Config I → Prop} {count : Nat}
    (reaches : Reaches block count config reached)
    (stateEq : reached.state = config.state)
    (does : Does block reached action demand) :
    Does block config action demand := by
  unfold Does at does ⊢
  rw [stateEq] at does
  rcases ran : action config.state with ⟨_ | result, state⟩
  · rw [ran] at does
    exact reaches.halts does
  · rw [ran] at does
    obtain ⟨more, last, further, lastState, meets⟩ := does
    exact ⟨count + more, last, reaches.trans further, lastState, meets⟩

theorem Does.onward {α : Type} {action : Action I α}
    {demand further : α → Config I → Prop}
    (does : Does block config action demand)
    (goesOn : ∀ result reached, demand result reached → ∃ count last,
      Reaches block count reached last ∧ last.state = reached.state ∧
        further result last) :
    Does block config action further := by
  unfold Does at does ⊢
  rcases ran : action config.state with ⟨_ | result, state⟩
  · simpa [ran] using does
  · rw [ran] at does
    obtain ⟨count, reached, reaches, stateEq, meets⟩ := does
    obtain ⟨more, last, rest, lastState, met⟩ := goesOn result reached meets
    exact ⟨count + more, last, reaches.trans rest, lastState.trans stateEq, met⟩

theorem Does.reaches {α : Type} {action : Action I α}
    {demand : α → Config I → Prop} (does : Does block config action demand)
    {result : α} {state : State I}
    (ran : action config.state = (some result, state)) :
    ∃ count reached, Reaches block count config reached ∧
      reached.state = state ∧ demand result reached := by
  unfold Does at does
  rwa [ran] at does

theorem Does.halts {α : Type} {action : Action I α}
    {demand : α → Config I → Prop} (does : Does block config action demand)
    {final : State I}
    (ran : action config.state = (none, final)) :
    config.Halts block (some .failed) final := by
  unfold Does at does
  rwa [ran] at does

end Config

/-- The code of a statement stands in a block from one instruction to another.
`exit?` is where the innermost loop is left. -/
def StmtAt (types : TypeTable) (typing : Typing) (block : List Instr)
    (exit? : Option Label) (start next : Nat) (s : Stmt) : Prop :=
  types.Agrees typing s.occurrences ∧ ∃ supply emitted,
    Emission.stmt types exit? s supply = .ok emitted ∧
      StandsAt block start emitted.code ∧ next = start + emitted.code.length

/-- The code of statements in order stands in a block from one instruction to
another. -/
def StmtsAt (types : TypeTable) (typing : Typing) (block : List Instr)
    (exit? : Option Label) (start next : Nat) (statements : List Stmt) : Prop :=
  types.Agrees typing (Stmt.allOccurrences statements) ∧ ∃ supply emitted,
    Emission.stmts types exit? statements supply = .ok emitted ∧
      StandsAt block start emitted.code ∧ next = start + emitted.code.length

open Config Emission

variable {types : TypeTable} {typing : Typing} {block : List Instr}
  {exit? : Option Label} {start next : Nat} {position : Position}

theorem StmtsAt.nil_next
    (placed : StmtsAt types typing block exit? start next []) :
    next = start := by
  obtain ⟨_, supply, emitted, emits, _, rfl⟩ := placed
  rw [stmts, pure_eq_ok_iff] at emits
  rw [emits]
  rfl

theorem StmtsAt.cons {first : Stmt} {others : List Stmt}
    (placed : StmtsAt types typing block exit? start next (first :: others)) :
    ∃ between, StmtAt types typing block exit? start between first ∧
      StmtsAt types typing block exit? between next others := by
  obtain ⟨agrees, supply, emitted, emits, stands, rfl⟩ := placed
  obtain ⟨head, tail, headEmits, tailEmits, rfl⟩ := stmts_cons_eq_ok emits
  rw [Stmt.allOccurrences] at agrees
  refine ⟨start + head.code.length,
    ⟨agrees.left, supply, head, headEmits, stands.left, rfl⟩, agrees.right,
    head.supply, tail, tailEmits, stands.right, ?_⟩
  rw [List.length_append, Nat.add_assoc]

theorem StmtAt.statements {statements : List Stmt}
    (placed : StmtAt types typing block exit? start
      next (.block position statements)) :
    StmtsAt types typing block exit? start next statements := by
  obtain ⟨agrees, supply, emitted, emits, stands, nextEq⟩ := placed
  rw [Stmt.occurrences] at agrees
  rw [stmt] at emits
  exact ⟨agrees, supply, emitted, emits, stands, nextEq⟩

/-- Code for a test and the two jumps after it lead behind one of two labels. -/
theorem test_does {test : Condition} {supply : Supply}
    {tested : Emitted Register} {yes no : Label} {yesPoint noPoint : Nat}
    {rest : List Instr} {config : Config I}
    (distinct : (definedLabels block).Nodup)
    (agrees : types.Agrees typing test.occurrences)
    (emits : condition types test supply = .ok tested)
    (stands : StandsAt block config.pc
      (tested.code ++ .jumpIf tested.value yes :: .jump no :: rest))
    (yesFound : block[yesPoint]? = some (.label yes))
    (noFound : block[noPoint]? = some (.label no)) :
    Does block config (test.eval typing) fun holds reached =>
      reached.pc = (if holds then yesPoint else noPoint) + 1 := by
  apply (condition_does agrees emits stands.left).onward
  rintro holds reached ⟨passes, held⟩
  have standsBranch := stands.right
  rw [← passes.pc] at standsBranch
  obtain ⟨count, reaches⟩ := reaches_branch standsBranch held
    (idxOf?_label_eq_some distinct yesFound)
      (idxOf?_label_eq_some distinct noFound)
    yesFound noFound
  exact ⟨count, _, reaches, rfl, rfl⟩

theorem StmtAt.ifThen {test : Condition} {thenBranch : Stmt}
    (distinct : (definedLabels block).Nodup)
    (placed : StmtAt types typing block exit? start
      next (.ifThen position test thenBranch)) :
    ∃ inner between label, StmtAt types typing block exit? inner between
      thenBranch ∧ block[between]? = some (.label label) ∧ next = between + 1 ∧
      ∀ config : Config I, config.pc = start →
        Does block config (test.eval typing) fun holds reached =>
          reached.pc = if holds then inner else next := by
  obtain ⟨agrees, supply, emitted, emits, stands, nextEq⟩ := placed
  obtain ⟨tested, first, testedEmits, firstEmits, rfl⟩ :=
    stmt_ifThen_eq_ok emits
  rw [Stmt.occurrences] at agrees
  have standsInner := stands.right.tail.tail.tail
  have thenFound := stands.right.tail.tail.head
  have endFound := standsInner.right.head
  refine ⟨_, _, _,
    ⟨agrees.right, tested.supply, first, firstEmits, standsInner.left, rfl⟩,
    endFound, ?_, ?_⟩
  · rw [nextEq]
    simp only [List.length_append, List.length_cons, List.length_nil]
    omega
  · rintro config rfl
    apply (test_does distinct agrees.left testedEmits stands thenFound
      endFound).mono
    intro holds reached pcEq
    rw [pcEq, nextEq]
    simp only [List.length_append, List.length_cons, List.length_nil]
    split <;> omega

theorem StmtAt.ifElse {test : Condition} {thenBranch elseBranch : Stmt}
    (distinct : (definedLabels block).Nodup)
    (placed : StmtAt types typing block exit? start next
      (.ifElse position test thenBranch elseBranch)) :
    ∃ yes yesEnd no noEnd label,
      StmtAt types typing block exit? yes yesEnd thenBranch ∧
      block[yesEnd]? = some (.jump label) ∧
      StmtAt types typing block exit? no noEnd elseBranch ∧
      block[noEnd]? = some (.label label) ∧ next = noEnd + 1 ∧
      ∀ config : Config I, config.pc = start →
        Does block config (test.eval typing) fun holds reached =>
          reached.pc = if holds then yes else no := by
  obtain ⟨agrees, supply, emitted, emits, stands, nextEq⟩ := placed
  obtain ⟨tested, first, second, testedEmits, firstEmits, secondEmits, rfl⟩ :=
    stmt_ifElse_eq_ok emits
  rw [Stmt.occurrences] at agrees
  have standsThen := stands.right.tail.tail.tail
  have standsElse := standsThen.right.tail.tail
  have thenFound := stands.right.tail.tail.head
  have elseFound := standsThen.right.tail.head
  refine ⟨_, _, _, _, _,
    ⟨agrees.left.right, tested.supply, first, firstEmits, standsThen.left, rfl⟩,
    standsThen.right.head,
    ⟨agrees.right, first.supply, second, secondEmits, standsElse.left, rfl⟩,
    standsElse.right.head, ?_, ?_⟩
  · rw [nextEq]
    simp only [List.length_append, List.length_cons, List.length_nil]
    omega
  · rintro config rfl
    apply (test_does distinct agrees.left.left testedEmits stands thenFound
      elseFound).mono
    intro holds reached pcEq
    rw [pcEq]
    split <;> rfl

/-- A loop is left at a label of its own, and its test stands behind another. -/
theorem StmtAt.whileDo {test : Condition} {body : Stmt}
    (distinct : (definedLabels block).Nodup)
    (placed : StmtAt types typing block exit? start
      next (.whileDo position test body)) :
    ∃ inner between exitPoint again exit,
      StmtAt types typing block (some exit) inner between body ∧
      block[between]? = some (.jump again) ∧
        block[start]? = some (.label again) ∧
      block[exitPoint]? = some (.label exit) ∧ next = exitPoint + 1 ∧
      ∀ config : Config I, config.pc = start →
        Does block config (test.eval typing) fun holds reached =>
          reached.pc = if holds then inner else next := by
  obtain ⟨agrees, supply, emitted, emits, stands, nextEq⟩ := placed
  obtain ⟨tested, first, testedEmits, firstEmits, rfl⟩ :=
    stmt_whileDo_eq_ok emits
  rw [Stmt.occurrences] at agrees
  have standsTest := stands.tail
  have standsBody := standsTest.right.tail.tail.tail
  have bodyFound := standsTest.right.tail.tail.head
  have exitFound := standsBody.right.tail.head
  refine ⟨_, _, _, _, _,
    ⟨agrees.right, tested.supply, first, firstEmits, standsBody.left, rfl⟩,
    standsBody.right.head, stands.head, exitFound, ?_, ?_⟩
  · rw [nextEq]
    simp only [List.length_append, List.length_cons, List.length_nil]
    omega
  · rintro config rfl
    apply Does.of_reaches (reaches_label stands.head) rfl
    apply (test_does distinct agrees.left testedEmits standsTest bodyFound
      exitFound).mono
    intro holds reached pcEq
    rw [pcEq, nextEq]
    simp only [List.length_append, List.length_cons, List.length_nil]
    split <;> omega

end PL0
