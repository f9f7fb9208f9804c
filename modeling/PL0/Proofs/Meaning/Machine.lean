import PL0.Code.Instr
import PL0.Proofs.Meaning.Source

/-!
# What code means

A machine runs the code of one function from its first instruction on.  It
keeps the variables apart from the registers, and in a register the machine
knows a truth value from any other value.  A jump goes to the first point with
the label.  Where the code makes no sense, because a label is missing, a
register holds the wrong sort of thing or the end is overrun, the machine is
stuck.
-/

namespace PL0

/-- What a register holds. -/
inductive Cell (Value : Type) where
  | value (held : Value)
  | truth (holds : Bool)

/-- The content of a cell as a value. -/
def Cell.value? {Value : Type} : Cell Value → Option Value
  | .value held => some held
  | .truth _ => none

/-- The content of a cell as a truth value. -/
def Cell.truth? {Value : Type} : Cell Value → Option Bool
  | .value _ => none
  | .truth holds => some holds

/-- A machine at an instruction. -/
structure Config (I : Interpretation) where
  pc : Nat
  registers : Register → Cell I.Value
  state : State I

/-- What comes of a step.  A machine that halts without an outcome is stuck. -/
inductive Progress (I : Interpretation) where
  | running (config : Config I)
  | halted (outcome? : Option (Outcome I.Value)) (final : State I)

variable {I : Interpretation}

namespace Config

/-- The value of an operand. -/
def value? (config : Config I) : Operand → Option I.Value
  | .int value => some (I.int value)
  | .float value => some (I.float value)
  | .var name => some (config.state.vars name)
  | .reg register => (config.registers register).value?

/-- The values of operands. -/
def values? (config : Config I) (operands : List Operand) :
    Option (List I.Value) :=
  operands.mapM config.value?

/-- The slot that a target is. -/
def slot? (config : Config I) : Target → Option (Slot I)
  | .var name => some (.var name)
  | .element array index => (config.value? index).map (.element array)

/-- Do something and go on with the next instruction. -/
def proceed (config : Config I) (action : Action I Unit) : Progress I :=
  match action config.state with
  | (none, final) => .halted (some .failed) final
  | (some (), state) => .running ⟨config.pc + 1, config.registers, state⟩

/-- Do something, keep the result in a register and go on with the next
instruction. -/
def keep {α : Type} (config : Config I) (cell : α → Cell I.Value)
    (dest : Register) (action : Action I α) : Progress I :=
  match action config.state with
  | (none, final) => .halted (some .failed) final
  | (some result, state) =>
    .running ⟨config.pc + 1,
      Function.update config.registers dest (cell result), state⟩

/-- Go on at a label. -/
def jump? (block : List Instr) (config : Config I) (target : Label) :
    Option (Progress I) :=
  (block.idxOf? (.label target)).map fun pc => .running { config with pc }

/-- What an instruction does.  There is no result where it makes no sense. -/
def execute? (block : List Instr) (config : Config I) :
    Instr → Option (Progress I)
  | .enter .. => some (config.proceed (pure ()))
  | .leave _ => some (.halted (some .finished) config.state)
  | .alloc type array size => do
    return config.proceed (Action.alloc type array (← config.value? size))
  | .binary op type left right dest => do
    let leftValue ← config.value? left
    let rightValue ← config.value? right
    return config.keep .value dest
      (Action.ofOption (I.arith op type leftValue rightValue))
  | .negate type source dest => do
    return config.keep .value dest
      (Action.ofOption (I.negate type (← config.value? source)))
  | .convert target source dest => do
    return config.keep .value dest
      (Action.ofOption (I.convert target (← config.value? source)))
  | .load type array index dest => do
    return config.keep .value dest
      (Action.load type array (← config.value? index))
  | .compare op type left right dest => do
    let leftValue ← config.value? left
    let rightValue ← config.value? right
    return config.keep .truth dest
      (Action.ofOption (I.compare op type leftValue rightValue))
  | .logic op left right dest => do
    let leftTruth ← (config.registers left).truth?
    let rightTruth ← (config.registers right).truth?
    return config.keep .truth dest (pure (op.apply leftTruth rightTruth))
  | .not source dest => do
    let holds ← (config.registers source).truth?
    return config.keep .truth dest (pure !holds)
  | .move type source dest => do
    let value ← config.value? source
    let slot ← config.slot? dest
    return config.proceed (slot.move type value)
  | .label _ => some (config.proceed (pure ()))
  | .jump target => config.jump? block target
  | .jumpIf condition target => do
    if ← (config.registers condition).truth? then config.jump? block target
    else return config.proceed (pure ())
  | .call callee args (some dest) => do
    return config.keep .value dest
      (Action.onWorld (I.call callee (← config.values? args)))
  | .call callee args none => do
    return config.proceed (Action.callOnly callee (← config.values? args))
  | .returnValue value => do
    return .halted (some (.returned (← config.value? value))) config.state
  | .read dest => do
    let slot ← config.slot? dest
    return config.proceed slot.read
  | .write value => do
    return config.proceed (Action.onWorld (I.write (← config.value? value)))
  | .print text => some (config.proceed (Action.onWorld (I.print text)))

/-- One step of the machine. -/
def step (block : List Instr) (config : Config I) : Progress I :=
  ((block[config.pc]?).bind (config.execute? block)).getD
    (.halted none config.state)

/-- A number of steps at most.  There is no result if the machine has not
halted by then. -/
def run (block : List Instr) :
    Nat → Config I → Option (Option (Outcome I.Value) × State I)
  | 0, _ => none
  | count + 1, config =>
    match config.step block with
    | .running next => run block count next
    | .halted outcome? final => some (outcome?, final)

/-- The machine halts at some time, with an outcome or stuck. -/
def Halts (block : List Instr) (config : Config I)
    (outcome? : Option (Outcome I.Value)) (final : State I) : Prop :=
  ∃ count, config.run block count = some (outcome?, final)

/-- After a number of steps the machine is in another configuration. -/
def Reaches (block : List Instr) (count : Nat) (config next : Config I) :
    Prop :=
  ∀ more, config.run block (count + more) = next.run block more

section Runs

variable {block : List Instr} {config next last : Config I} {count more : Nat}
  {outcome? : Option (Outcome I.Value)} {final : State I}

theorem Reaches.refl : Reaches block 0 config config := by
  intro more
  rw [Nat.zero_add]

theorem Reaches.trans (first : Reaches block count config next)
    (second : Reaches block more next last) :
    Reaches block (count + more) config last := by
  intro rest
  rw [Nat.add_assoc, first (more + rest), second rest]

theorem reaches_of_step (stepped : config.step block = .running next) :
    Reaches block 1 config next := by
  intro more
  rw [Nat.add_comm, run, stepped]

theorem halts_of_step (stepped : config.step block = .halted outcome? final) :
    config.Halts block outcome? final :=
  ⟨1, by rw [run, stepped]⟩

theorem Reaches.halts (reaches : Reaches block count config next)
    (halts : next.Halts block outcome? final) :
    config.Halts block outcome? final := by
  obtain ⟨more, halted⟩ := halts
  exact ⟨count + more, by rw [reaches more, halted]⟩

/-- A machine that has halted stays halted. -/
theorem run_add {result : Option (Outcome I.Value) × State I}
    (halted : config.run block count = some result) :
    ∀ more, config.run block (count + more) = some result := by
  intro more
  induction count generalizing config with
  | zero => cases halted
  | succ count ih =>
      rw [Nat.add_right_comm, run]
      rw [run] at halted
      cases stepped : config.step block with
      | running next =>
          rw [stepped] at halted
          exact ih halted
      | halted outcome? final =>
          rw [stepped] at halted
          exact halted

theorem Halts.unique {other? : Option (Outcome I.Value)} {other : State I}
    (halts : config.Halts block outcome? final)
    (also : config.Halts block other? other) :
    outcome? = other? ∧ final = other := by
  obtain ⟨count, halted⟩ := halts
  obtain ⟨more, alsoHalted⟩ := also
  have longer := run_add halted more
  rw [Nat.add_comm, run_add alsoHalted count] at longer
  cases longer
  exact ⟨rfl, rfl⟩

/-- Where the machine halts, it halts after all that it reaches. -/
theorem Reaches.run_rest (reaches : Reaches block count config next)
    {total : Nat} {result : Option (Outcome I.Value) × State I}
    (halted : config.run block total = some result) :
    ∃ more, total = count + more ∧ next.run block more = some result := by
  by_cases early : total ≤ count
  · have stillRunning : config.run block count = none := reaches 0
    have already := run_add halted (count - total)
    rw [Nat.add_sub_cancel' early, stillRunning] at already
    cases already
  · refine ⟨total - count, by omega, ?_⟩
    rw [← reaches (total - count), Nat.add_sub_cancel' (by omega), halted]

end Runs

section Doing

variable {block : List Instr} {config : Config I} {α β : Type}

/-- The machine does an action: it halts if the action fails, and else it
reaches a configuration with the state after the action that is as
demanded. -/
def Does (block : List Instr) (config : Config I) (action : Action I α)
    (demand : α → Config I → Prop) : Prop :=
  match action config.state with
  | (none, final) => config.Halts block (some .failed) final
  | (some result, state) =>
    ∃ count next, Reaches block count config next ∧ next.state = state ∧
      demand result next

theorem does_pure {result : α} {demand : α → Config I → Prop}
    (meets : demand result config) : Does block config (pure result) demand :=
  ⟨0, config, .refl, rfl, meets⟩

theorem Does.bind {first : Action I α} {next : α → Action I β}
    {between : α → Config I → Prop} {demand : β → Config I → Prop}
    (does : Does block config first between)
    (further : ∀ result reached, between result reached →
      Does block reached (next result) demand) :
    Does block config (first >>= next) demand := by
  unfold Does at does ⊢
  rw [Action.bind_apply]
  rcases ran : first config.state with ⟨_ | result, state⟩
  · simpa [ran] using does
  · rw [ran] at does
    obtain ⟨count, reached, reaches, stateEq, meets⟩ := does
    have after := further result reached meets
    unfold Does at after
    rw [stateEq] at after
    rcases nextRan : next result state with ⟨_ | value, final⟩
    · rw [nextRan] at after
      simpa [nextRan] using reaches.halts after
    · rw [nextRan] at after
      obtain ⟨more, last, rest, finalEq, met⟩ := after
      simpa [nextRan] using ⟨count + more, last, reaches.trans rest,
        finalEq, met⟩

theorem Does.mono {action : Action I α} {demand weaker : α → Config I → Prop}
    (does : Does block config action demand)
    (implies : ∀ result reached, demand result reached →
      weaker result reached) :
    Does block config action weaker := by
  unfold Does at does ⊢
  rcases ran : action config.state with ⟨_ | result, state⟩
  · simpa [ran] using does
  · rw [ran] at does
    obtain ⟨count, reached, reaches, stateEq, meets⟩ := does
    exact ⟨count, reached, reaches, stateEq, implies result reached meets⟩

theorem does_of_keep {cell : α → Cell I.Value} {dest : Register}
    {action : Action I α}
    (stepped : config.step block = config.keep cell dest action) :
    Does block config action fun result reached =>
      reached.pc = config.pc + 1 ∧
        reached.registers = Function.update config.registers dest
          (cell result) ∧
        reached.state = (action config.state).2 := by
  unfold Does
  unfold keep at stepped
  rcases ran : action config.state with ⟨_ | result, state⟩
  · rw [ran] at stepped
    exact halts_of_step stepped
  · rw [ran] at stepped
    exact ⟨1, _, reaches_of_step stepped, rfl, rfl, rfl, rfl⟩

theorem does_of_proceed {action : Action I Unit}
    (stepped : config.step block = config.proceed action) :
    Does block config action fun _ reached => reached.pc = config.pc + 1 := by
  unfold Does
  unfold proceed at stepped
  rcases ran : action config.state with ⟨_ | result, state⟩
  · rw [ran] at stepped
    exact halts_of_step stepped
  · rw [ran] at stepped
    exact ⟨1, _, reaches_of_step stepped, rfl, rfl⟩

theorem step_eq_of_execute? {instr : Instr} {progress : Progress I}
    (found : block[config.pc]? = some instr)
    (executed : config.execute? block instr = some progress) :
    config.step block = progress := by
  simp [step, found, executed]

end Doing

end Config

end PL0
