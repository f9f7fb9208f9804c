import PL0.Proofs.Code.Layout
import PL0.Proofs.Meaning.Machine

/-!
# Code for expressions and conditions

Code for an expression computes its value, whatever code stands around it.
Operands that were computed before keep their values meanwhile: registers with
smaller numbers are left alone, and evaluating an expression changes no
variable.  This is why a variable need not be copied into a register when it
is the left operand.
-/

namespace PL0

/-- The table has the base types that the typing gives. -/
def TypeTable.Agrees (types : TypeTable) (typing : Typing)
    (occurrences : List Occurrence) : Prop :=
  ∀ occurrence ∈ occurrences, ∃ type,
    types[occurrence.node.id]? = some type ∧ type.base = typing occurrence

namespace TypeTable.Agrees

variable {types : TypeTable} {typing : Typing} {first second : List Occurrence}

theorem left (agrees : types.Agrees typing (first ++ second)) :
    types.Agrees typing first :=
  fun occurrence member => agrees occurrence (List.mem_append_left _ member)

theorem right (agrees : types.Agrees typing (first ++ second)) :
    types.Agrees typing second :=
  fun occurrence member => agrees occurrence (List.mem_append_right _ member)

theorem base_eq (agrees : types.Agrees typing first) {occurrence : Occurrence}
    (member : occurrence ∈ first) {type : ValueType}
    (known : types[occurrence.node.id]? = some type) :
    type.base = typing occurrence := by
  obtain ⟨other, otherKnown, baseEq⟩ := agrees occurrence member
  rw [known, Option.some.injEq] at otherKnown
  rw [otherKnown, baseEq]

end TypeTable.Agrees

namespace Config

variable {I : Interpretation} {block : List Instr}
  {config reached last : Config I}

/-- From one configuration to another the machine went through code of some
length and left alone the variables and the registers below a bound. -/
structure Passes (config : Config I) (bound length : Nat) (reached : Config I) :
    Prop where
  pc : reached.pc = config.pc + length
  registers : ∀ register, register.index < bound →
    reached.registers register = config.registers register
  vars : reached.state.vars = config.state.vars

namespace Passes

variable {bound larger length further : Nat}

theorem refl : config.Passes bound 0 config :=
  ⟨rfl, fun _ _ => rfl, rfl⟩

theorem trans (passes : config.Passes bound length reached)
    (rest : reached.Passes larger further last) (le : bound ≤ larger) :
    config.Passes bound (length + further) last := by
  refine ⟨?_, ?_, rest.vars.trans passes.vars⟩
  · rw [rest.pc, passes.pc, Nat.add_assoc]
  · intro register below
    rw [rest.registers register (Nat.lt_of_lt_of_le below le),
      passes.registers register below]

theorem value? (passes : config.Passes bound length reached) {operand : Operand}
    (below : operand.Below bound) :
    reached.value? operand = config.value? operand := by
  cases operand with
  | int value => rfl
  | float value => rfl
  | var name => simp only [Config.value?, passes.vars]
  | reg register => simp only [Config.value?, passes.registers register below]

theorem slot? (passes : config.Passes bound length reached) {dest : Target}
    (below : dest.Below bound) : reached.slot? dest = config.slot? dest := by
  cases dest with
  | var name => rfl
  | element array index => simp only [Config.slot?, passes.value? below]

end Passes

theorem does_result {α : Type} {cell : α → Cell I.Value} {dest : Register}
    {action : Action I α} {bound : Nat}
    (stepped : config.step block = config.keep cell dest action)
    (keepsVars : action.KeepsVars) (le : bound ≤ dest.index) :
    Does block config action fun result reached =>
      config.Passes bound 1 reached ∧ reached.registers dest = cell result := by
  apply (does_of_keep stepped).mono
  rintro result reached ⟨pcEq, registersEq, stateEq⟩
  refine ⟨⟨pcEq, ?_, ?_⟩, ?_⟩
  · intro register below
    have notDest : register ≠ dest := by
      rintro rfl
      omega
    rw [registersEq, Function.update_of_ne notDest]
  · rw [stateEq, keepsVars]
  · rw [registersEq, Function.update_self]

/-- Code that does something is followed by an instruction that leaves a
result in a new register. -/
theorem Does.into {α β : Type} (cell : β → Cell I.Value) {first : Action I α}
    {next : α → Action I β} {holds : α → Config I → Prop} {bound dest : Nat}
    {code : List Instr} {instr : Instr}
    (does : Does block config first fun value reached =>
      config.Passes bound code.length reached ∧ holds value reached)
    (stands : StandsAt block config.pc (code ++ [instr]))
    (executed : ∀ value reached, holds value reached →
      reached.execute? block instr =
        some (reached.keep cell ⟨dest⟩ (next value)))
    (keepsVars : ∀ value, (next value).KeepsVars) (le : bound ≤ dest) :
    Does block config (first >>= next) fun result reached =>
      config.Passes bound (code ++ [instr]).length reached ∧
        reached.registers ⟨dest⟩ = cell result := by
  apply does.bind
  rintro value reached ⟨passes, held⟩
  have found : block[reached.pc]? = some instr := by
    rw [passes.pc]
    exact stands.right.head
  have stepped := step_eq_of_execute? found (executed value reached held)
  apply (does_result stepped (keepsVars value) le).mono
  rintro result last ⟨lastPasses, lastHeld⟩
  refine ⟨?_, lastHeld⟩
  simpa using passes.trans lastPasses (Nat.le_refl _)

theorem Does.intoValue {α : Type} {first : Action I α}
    {next : α → Action I I.Value} {holds : α → Config I → Prop}
    {bound dest : Nat} {code : List Instr} {instr : Instr}
    (does : Does block config first fun value reached =>
      config.Passes bound code.length reached ∧ holds value reached)
    (stands : StandsAt block config.pc (code ++ [instr]))
    (executed : ∀ value reached, holds value reached →
      reached.execute? block instr =
        some (reached.keep .value ⟨dest⟩ (next value)))
    (keepsVars : ∀ value, (next value).KeepsVars) (le : bound ≤ dest) :
    Does block config (first >>= next) fun result reached =>
      config.Passes bound (code ++ [instr]).length reached ∧
        reached.value? (.reg ⟨dest⟩) = some result := by
  apply (does.into .value stands executed keepsVars le).mono
  rintro result reached ⟨passes, held⟩
  exact ⟨passes, by rw [Config.value?, held, Cell.value?]⟩

end Config

namespace Emission

open Config

variable {I : Interpretation} {types : TypeTable} {typing : Typing}
  {block : List Instr}

mutual

theorem expr_does : ∀ (e : Expr) {supply : Supply} {emitted : Emitted Operand}
    {config : Config I}, types.Agrees typing e.occurrences →
      expr types e supply = .ok emitted →
        StandsAt block config.pc emitted.code →
      Does block config (e.eval typing) fun value reached =>
        config.Passes supply.register emitted.code.length reached ∧
          reached.value? emitted.value = some value
  | .int node value, supply, emitted, config => by
      intro agrees emits stands
      rw [expr_int_eq_ok emits, Expr.eval]
      exact does_pure ⟨.refl, rfl⟩
  | .float node value, supply, emitted, config => by
      intro agrees emits stands
      rw [expr_float_eq_ok emits, Expr.eval]
      exact does_pure ⟨.refl, rfl⟩
  | .valueOf node (.var placeNode name), supply, emitted, config => by
      intro agrees emits stands
      rw [expr_var_eq_ok emits, Expr.eval]
      exact ⟨0, config, .refl, rfl, .refl, rfl⟩
  | .valueOf node (.element placeNode name index), supply, emitted, config => by
      intro agrees emits stands
      obtain ⟨type, inner, known, innerEmits, rfl⟩ := expr_element_eq_ok emits
      have baseEq := agrees.base_eq (Expr.mem_occurrences _) known
      have innerAgrees : types.Agrees typing index.occurrences := by
        rw [Expr.occurrences, Place.occurrences] at agrees
        exact agrees.left.left
      have innerDoes := expr_does index innerAgrees innerEmits stands.left
      rw [Expr.eval]
      refine innerDoes.intoValue stands ?_ (fun _ =>
        Action.keepsVars_load _ _ _)
        (expr_straight index innerEmits).1.register
      intro value reached held
      simp [execute?, held, baseEq]
  | .binary node op left right, supply, emitted, config => by
      intro agrees emits stands
      obtain ⟨type, first, second, known, firstEmits, secondEmits, rfl⟩ :=
        expr_binary_eq_ok emits
      have baseEq := agrees.base_eq (Expr.mem_occurrences _) known
      rw [Expr.occurrences] at agrees
      have firstBelow := (expr_straight left firstEmits).2
      have firstRegister := (expr_straight left firstEmits).1.register
      rw [Expr.eval]
      apply (expr_does left agrees.left.left firstEmits stands.left).bind
      rintro leftValue reached ⟨passes, leftHeld⟩
      have standsRight := stands.right
      rw [← passes.pc] at standsRight
      have secondDoes : Does block reached (right.eval typing) fun value last =>
          reached.Passes first.supply.register second.code.length last ∧
            last.value? first.value = some leftValue ∧
            last.value? second.value = some value := by
        apply (expr_does right agrees.left.right secondEmits
          standsRight.left).mono
        rintro value last ⟨lastPasses, rightHeld⟩
        exact ⟨lastPasses, (lastPasses.value? firstBelow).trans leftHeld,
          rightHeld⟩
      apply (secondDoes.intoValue standsRight ?_ (fun _ =>
        Action.keepsVars_ofOption _)
        (expr_straight right secondEmits).1.register).mono
      · rintro value last ⟨lastPasses, held⟩
        refine ⟨?_, held⟩
        simpa using passes.trans lastPasses firstRegister
      · rintro value last ⟨leftStill, rightHeld⟩
        simp [execute?, leftStill, rightHeld, baseEq]
  | .signed node .plus operand, supply, emitted, config => by
      intro agrees emits stands
      rw [Expr.occurrences] at agrees
      rw [Expr.eval]
      exact expr_does operand agrees.left (expr_plus_eq_ok emits) stands
  | .signed node .neg operand, supply, emitted, config => by
      intro agrees emits stands
      obtain ⟨type, inner, known, innerEmits, rfl⟩ := expr_neg_eq_ok emits
      have baseEq := agrees.base_eq (Expr.mem_occurrences _) known
      rw [Expr.occurrences] at agrees
      have innerDoes := expr_does operand agrees.left innerEmits stands.left
      rw [Expr.eval]
      refine innerDoes.intoValue stands ?_ (fun _ =>
        Action.keepsVars_ofOption _)
        (expr_straight operand innerEmits).1.register
      intro value reached held
      simp [execute?, held, baseEq]
  | .call node callee args, supply, emitted, config => by
      intro agrees emits stands
      obtain ⟨inner, innerEmits, rfl⟩ := expr_call_eq_ok emits
      rw [Expr.occurrences] at agrees
      have innerDoes := exprs_does args agrees.left innerEmits stands.left
      rw [Expr.eval]
      refine innerDoes.intoValue stands ?_ (fun _ => Action.keepsVars_onWorld _)
        (exprs_straight args innerEmits).1.register
      intro values reached held
      simp [execute?, held]
  | .cast node target operand, supply, emitted, config => by
      intro agrees emits stands
      obtain ⟨type, inner, known, innerEmits, rfl⟩ := expr_cast_eq_ok emits
      rw [Expr.occurrences] at agrees
      have baseEq := agrees.left.base_eq operand.mem_occurrences known
      rw [Expr.eval, ← baseEq]
      by_cases sameType : type.base = target
      · simp only [if_pos sameType] at stands ⊢
        apply (expr_does operand agrees.left innerEmits stands).bind
        intro value reached held
        exact does_pure held
      · simp only [if_neg sameType] at stands ⊢
        have innerDoes := expr_does operand agrees.left innerEmits stands.left
        refine innerDoes.intoValue stands ?_ (fun _ =>
          Action.keepsVars_ofOption _)
          (expr_straight operand innerEmits).1.register
        intro value reached held
        simp [execute?, held]

theorem exprs_does : ∀ (args : List Expr) {supply : Supply}
    {emitted : Emitted (List Operand)} {config : Config I},
      types.Agrees typing (Expr.allOccurrences args) →
      exprs types args supply = .ok emitted →
        StandsAt block config.pc emitted.code →
      Does block config (Expr.evalAll typing args) fun values reached =>
        config.Passes supply.register emitted.code.length reached ∧
          reached.values? emitted.value = some values
  | [], supply, emitted, config => by
      intro agrees emits stands
      rw [exprs, pure_eq_ok_iff] at emits
      subst emits
      rw [Expr.evalAll]
      exact does_pure ⟨.refl, rfl⟩
  | first :: others, supply, emitted, config => by
      intro agrees emits stands
      obtain ⟨head, tail, headEmits, tailEmits, rfl⟩ := exprs_cons_eq_ok emits
      rw [Expr.allOccurrences] at agrees
      have headBelow := (expr_straight first headEmits).2
      have headRegister := (expr_straight first headEmits).1.register
      rw [Expr.evalAll]
      apply (expr_does first agrees.left headEmits stands.left).bind
      rintro value reached ⟨passes, held⟩
      have standsTail := stands.right
      rw [← passes.pc] at standsTail
      apply (exprs_does others agrees.right tailEmits standsTail).bind
      rintro values last ⟨lastPasses, othersHeld⟩
      have stillHeld := (lastPasses.value? headBelow).trans held
      refine does_pure ⟨?_, ?_⟩
      · simpa using passes.trans lastPasses headRegister
      · unfold values? at othersHeld ⊢
        simp [stillHeld, othersHeld]

end

theorem target_does {held : Place} {supply : Supply}
    {emitted : Emitted (Target × BaseType)} {config : Config I}
    (agrees : types.Agrees typing held.occurrences)
    (emits : target types held supply = .ok emitted)
    (stands : StandsAt block config.pc emitted.code) :
    Does block config (held.locate typing) fun slot reached =>
      config.Passes supply.register emitted.code.length reached ∧
        reached.slot? emitted.value.1 = some slot := by
  cases held with
  | var node name =>
      obtain ⟨type, _, rfl⟩ := target_var_eq_ok emits
      exact does_pure ⟨.refl, rfl⟩
  | element node name index =>
      obtain ⟨type, inner, _, innerEmits, rfl⟩ := target_element_eq_ok emits
      rw [Place.occurrences] at agrees
      apply (expr_does index agrees.left innerEmits stands).bind
      rintro value reached ⟨passes, indexHeld⟩
      refine does_pure ⟨passes, ?_⟩
      rw [Config.slot?, indexHeld]
      rfl

theorem target_base_eq {held : Place} {supply : Supply}
    {emitted : Emitted (Target × BaseType)}
    (agrees : types.Agrees typing held.occurrences)
    (emits : target types held supply = .ok emitted) :
    emitted.value.2 = typing (.place held) := by
  cases held with
  | var node name =>
      obtain ⟨type, known, rfl⟩ := target_var_eq_ok emits
      exact agrees.base_eq (Place.mem_occurrences _) known
  | element node name index =>
      obtain ⟨type, inner, known, innerEmits, rfl⟩ := target_element_eq_ok emits
      exact agrees.base_eq (Place.mem_occurrences _) known

theorem condition_does {test : Condition} {supply : Supply}
    {emitted : Emitted Register} {config : Config I}
    (agrees : types.Agrees typing test.occurrences)
    (emits : condition types test supply = .ok emitted)
    (stands : StandsAt block config.pc emitted.code) :
    Does block config (test.eval typing) fun holds reached =>
      config.Passes supply.register emitted.code.length reached ∧
        reached.registers emitted.value = .truth holds := by
  induction test generalizing supply emitted config with
  | rel position op left right =>
      obtain ⟨type, first, second, known, firstEmits, secondEmits, rfl⟩ :=
        condition_rel_eq_ok emits
      rw [Condition.occurrences] at agrees
      have baseEq := agrees.left.base_eq left.mem_occurrences known
      have firstBelow := (expr_straight left firstEmits).2
      have firstRegister := (expr_straight left firstEmits).1.register
      apply (expr_does left agrees.left firstEmits stands.left).bind
      rintro leftValue reached ⟨passes, leftHeld⟩
      have standsRight := stands.right
      rw [← passes.pc] at standsRight
      have secondDoes : Does block reached (right.eval typing) fun value last =>
          reached.Passes first.supply.register second.code.length last ∧
            last.value? first.value = some leftValue ∧
            last.value? second.value = some value := by
        apply (expr_does right agrees.right secondEmits standsRight.left).mono
        rintro value last ⟨lastPasses, rightHeld⟩
        exact ⟨lastPasses, (lastPasses.value? firstBelow).trans leftHeld,
          rightHeld⟩
      apply (secondDoes.into .truth standsRight ?_ (fun _ =>
        Action.keepsVars_ofOption _)
        (expr_straight right secondEmits).1.register).mono
      · rintro holds last ⟨lastPasses, held⟩
        refine ⟨?_, held⟩
        simpa using passes.trans lastPasses firstRegister
      · rintro value last ⟨leftStill, rightHeld⟩
        simp [execute?, leftStill, rightHeld, baseEq]
  | logic position op left right leftIH rightIH =>
      obtain ⟨first, second, firstEmits, secondEmits, rfl⟩ :=
        condition_logic_eq_ok emits
      rw [Condition.occurrences] at agrees
      obtain ⟨firstStraight, firstBelow⟩ := condition_straight firstEmits
      apply (leftIH agrees.left firstEmits stands.left).bind
      rintro leftTruth reached ⟨passes, leftHeld⟩
      have standsRight := stands.right
      rw [← passes.pc] at standsRight
      have secondDoes : Does block reached (right.eval typing) fun holds last =>
          reached.Passes first.supply.register second.code.length last ∧
            last.registers first.value = .truth leftTruth ∧
            last.registers second.value = .truth holds := by
        apply (rightIH agrees.right secondEmits standsRight.left).mono
        rintro holds last ⟨lastPasses, rightHeld⟩
        exact ⟨lastPasses, (lastPasses.registers _ firstBelow).trans leftHeld,
          rightHeld⟩
      apply (secondDoes.into .truth standsRight ?_ (fun _ =>
        Action.keepsVars_pure _)
        (condition_straight secondEmits).1.register).mono
      · rintro holds last ⟨lastPasses, held⟩
        refine ⟨?_, held⟩
        simpa using passes.trans lastPasses firstStraight.register
      · rintro holds last ⟨leftStill, rightHeld⟩
        simp [execute?, leftStill, rightHeld, Cell.truth?]
  | not position operand ih =>
      obtain ⟨inner, innerEmits, rfl⟩ := condition_not_eq_ok emits
      have innerDoes := ih agrees innerEmits stands.left
      refine innerDoes.into .truth stands ?_ (fun _ => Action.keepsVars_pure _)
        (condition_straight innerEmits).1.register
      intro holds reached held
      simp [execute?, held, Cell.truth?]

end Emission

end PL0
