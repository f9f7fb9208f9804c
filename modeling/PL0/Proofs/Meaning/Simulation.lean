import PL0.Proofs.Meaning.Placement

/-!
# Code and statements do the same

Wherever a statement ends, the machine takes its code to where this ending
leads; this is by induction on the run of the statement.  Conversely, if the
machine halts after starting on the code of a statement, the statement has a
run; this is by induction on the number of steps, and for a given number on
the statement.  A loop needs fewer steps each time around.
-/

namespace PL0

variable {I : Interpretation}

namespace Config

/-- The machine comes to where an ending leads: to the code that follows, to
where the innermost loop is left, or out of the function. -/
def Ends (block : List Instr) (exit? : Option Label) (next : Nat)
    (config : Config I) :
    Ending I.Value → State I → Prop
  | .normal, final => ∃ count reached, Reaches block count config reached ∧
      reached.pc = next ∧ reached.state = final
  | .broke, final => ∃ exit, exit? = some exit ∧
      ∀ point, block.idxOf? (.label exit) = some point →
        ∃ count reached, Reaches block count config reached ∧
          reached.pc = point ∧ reached.state = final
  | .returned value, final => config.Halts block (some (.returned value)) final
  | .failed, final => config.Halts block (some .failed) final

variable {block : List Instr} {exit? : Option Label} {next between : Nat}
  {config reached : Config I} {ending : Ending I.Value} {final : State I}

theorem Ends.of_reaches {count : Nat}
    (reaches : Reaches block count config reached)
    (ends : Ends block exit? next reached ending final) :
    Ends block exit? next config ending final := by
  cases ending with
  | normal =>
      obtain ⟨more, last, rest, pcEq, stateEq⟩ := ends
      exact ⟨count + more, last, reaches.trans rest, pcEq, stateEq⟩
  | broke =>
      obtain ⟨exit, isExit, leads⟩ := ends
      refine ⟨exit, isExit, ?_⟩
      intro point pointAt
      obtain ⟨more, last, rest, pcEq, stateEq⟩ := leads point pointAt
      exact ⟨count + more, last, reaches.trans rest, pcEq, stateEq⟩
  | returned value => exact reaches.halts ends
  | failed => exact reaches.halts ends

/-- Where control goes on at the end of some code, it goes on for a statement
that ends there. -/
theorem Ends.onward (ends : Ends block exit? between config ending final)
    (goesOn : ∀ reached : Config I, reached.pc = between → ∃ count last,
      Reaches block count reached last ∧ last.pc = next ∧
        last.state = reached.state) :
    Ends block exit? next config ending final := by
  cases ending with
  | normal =>
      obtain ⟨count, reached, reaches, pcEq, stateEq⟩ := ends
      obtain ⟨more, last, rest, lastPc, lastState⟩ := goesOn reached pcEq
      exact ⟨count + more, last, reaches.trans rest, lastPc,
        lastState.trans stateEq⟩
  | broke => exact ends
  | returned value => exact ends
  | failed => exact ends

/-- An ending other than the normal one does not depend on what follows. -/
theorem Ends.of_ne_normal (ends : Ends block exit? between config ending final)
    (notNormal : ending ≠ .normal) :
    Ends block exit? next config ending final := by
  cases ending with
  | normal => exact absurd rfl notNormal
  | broke => exact ends
  | returned value => exact ends
  | failed => exact ends

theorem Ends.of_isFinal {other? : Option Label}
    (ends : Ends block exit? between config ending final)
    (isFinal : ending.IsFinal) :
    Ends block other? next config ending final := by
  cases isFinal with
  | returned value => exact ends
  | failed => exact ends

theorem Does.ends {action : Action I (Ending I.Value)}
    {result : Option (Ending I.Value)}
    (does : Does block config action fun ending reached =>
      Ends block exit? next reached ending reached.state)
    (ran : action config.state = (result, final)) :
    Ends block exit? next config (result.getD .failed) final := by
  cases result with
  | none => exact does.halts ran
  | some ending =>
      obtain ⟨count, reached, reaches, stateEq, ends⟩ := does.reaches ran
      rw [stateEq] at ends
      exact ends.of_reaches reaches

theorem ends_normal (pcEq : config.pc = next) :
    Ends block exit? next config .normal config.state :=
  ⟨0, config, .refl, pcEq, rfl⟩

theorem does_step {instr : Instr} {action : Action I Unit}
    (found : block[config.pc]? = some instr)
    (executed : config.execute? block instr = some (config.proceed action)) :
    Does block config (do action; return .normal) fun ending reached =>
      Ends block exit? (config.pc + 1) reached ending reached.state := by
  apply (does_of_proceed (step_eq_of_execute? found executed)).bind
  intro _ reached pcEq
  exact does_pure (ends_normal pcEq)

/-- Code that does something is followed by the last instruction of a
statement. -/
theorem Does.andThen {α : Type} {first : Action I α} {last : α → Action I Unit}
    {holds : α → Config I → Prop} {bound : Nat} {code : List Instr}
    {instr : Instr}
    (does : Does block config first fun value reached =>
      config.Passes bound code.length reached ∧ holds value reached)
    (stands : StandsAt block config.pc (code ++ [instr]))
    (executed : ∀ value reached, holds value reached →
      reached.execute? block instr = some (reached.proceed (last value))) :
    Does block config (do last (← first); return .normal) fun ending reached =>
      Ends block exit? (config.pc + (code ++ [instr]).length) reached ending
        reached.state := by
  apply does.bind
  rintro value reached ⟨passes, held⟩
  have found : block[reached.pc]? = some instr := by
    rw [passes.pc]
    exact stands.right.head
  have steps := @does_step _ _ exit? _ _ _ found (executed value reached held)
  rw [passes.pc] at steps
  simpa [Nat.add_assoc] using steps

end Config

open Config Emission

variable {types : TypeTable} {typing : Typing} {block : List Instr}
  {exit? : Option Label} {start next : Nat}

/-- The code of a statement without statements inside does what the statement
does. -/
theorem StmtAt.simple_does {s : Stmt} {action : Action I (Ending I.Value)}
    (placed : StmtAt types typing block exit? start next s)
    (isSimple : s.simple? typing = some action) {config : Config I}
    (atStart : config.pc = start) :
    Does block config action fun ending reached =>
      Ends block exit? next reached ending reached.state := by
  obtain ⟨agrees, supply, emitted, emits, stands, rfl⟩ := placed
  subst atStart
  cases s with
  | assign position held value =>
      cases isSimple
      obtain ⟨dest, source, destEmits, sourceEmits, rfl⟩ :=
        stmt_assign_eq_ok emits
      rw [Stmt.occurrences] at agrees
      have destBelow := (target_straight destEmits).2
      have baseEq := target_base_eq agrees.left destEmits
      apply (target_does agrees.left destEmits stands.left).bind
      rintro slot reached ⟨passes, slotHeld⟩
      have standsRest := stands.right
      rw [← passes.pc] at standsRest
      have valueDoes : Does block reached (value.eval typing) fun result last =>
          reached.Passes dest.supply.register source.code.length last ∧
            last.slot? dest.value.1 = some slot ∧ last.value? source.value =
              some result := by
        apply (expr_does value agrees.right sourceEmits standsRest.left).mono
        rintro result last ⟨lastPasses, held⟩
        exact ⟨lastPasses, (lastPasses.slot? destBelow).trans slotHeld, held⟩
      have moves :=
        @Does.andThen _ _ exit? _ _ _ (slot.move (typing (.place held))) _ _ _ _
        valueDoes standsRest ?_
      · rw [passes.pc] at moves
        simpa [Nat.add_assoc] using moves
      · rintro result last ⟨slotStill, valueHeld⟩
        simp [execute?, slotStill, valueHeld, baseEq]
  | breakLoop position =>
      cases isSimple
      obtain ⟨exit, isExit, rfl⟩ := stmt_breakLoop_eq_ok emits
      refine does_pure ⟨exit, isExit, ?_⟩
      intro point pointAt
      exact ⟨1, _, reaches_jump stands.head pointAt, rfl, rfl⟩
  | skip position =>
      cases isSimple
      rw [stmt_skip_eq_ok emits]
      exact does_pure (ends_normal rfl)
  | returnValue position value =>
      cases isSimple
      obtain ⟨source, sourceEmits, rfl⟩ := stmt_returnValue_eq_ok emits
      rw [Stmt.occurrences] at agrees
      apply (expr_does value agrees sourceEmits stands.left).bind
      rintro result reached ⟨passes, held⟩
      have found : block[reached.pc]? = some (.returnValue source.value) := by
        rw [passes.pc]
        exact stands.right.head
      refine does_pure (halts_of_step (step_eq_of_execute? found ?_))
      simp [execute?, held]
  | read position held =>
      cases isSimple
      obtain ⟨dest, destEmits, rfl⟩ := stmt_read_eq_ok emits
      rw [Stmt.occurrences] at agrees
      refine (target_does agrees destEmits stands.left).andThen stands ?_
      intro slot reached slotHeld
      simp [execute?, slotHeld]
  | write position value =>
      cases isSimple
      obtain ⟨source, sourceEmits, rfl⟩ := stmt_write_eq_ok emits
      rw [Stmt.occurrences] at agrees
      refine (expr_does value agrees sourceEmits stands.left).andThen stands ?_
      intro result reached held
      simp [execute?, held]
  | print position text =>
      cases isSimple
      rw [stmt_print_eq_ok emits] at stands ⊢
      exact does_step stands.head rfl
  | call position callee args =>
      cases isSimple
      obtain ⟨inner, innerEmits, rfl⟩ := stmt_call_eq_ok emits
      rw [Stmt.occurrences] at agrees
      refine (exprs_does args agrees innerEmits stands.left).andThen stands ?_
      intro values reached held
      simp [execute?, held]
  | ifThen position test thenBranch => cases isSimple
  | ifElse position test thenBranch elseBranch => cases isSimple
  | whileDo position test body => cases isSimple
  | block position statements => cases isSimple

theorem Config.goesOn_label {between : Nat} {label : Label}
    (found : block[between]? = some (.label label)) (reached : Config I)
    (atLabel : reached.pc = between) :
    ∃ count last, Reaches block count reached last ∧ last.pc = between + 1 ∧
      last.state = reached.state := by
  subst atLabel
  exact ⟨1, _, reaches_label found, rfl, rfl⟩

theorem Config.goesOn_jump {between point : Nat} {label : Label}
    (distinct : (definedLabels block).Nodup)
    (found : block[between]? = some (.jump label))
    (labelFound : block[point]? = some (.label label)) (reached : Config I)
    (atJump : reached.pc = between) :
    ∃ count last, Reaches block count reached last ∧ last.pc = point + 1 ∧
      last.state = reached.state := by
  subst atJump
  have jumped := reaches_jump found (idxOf?_label_eq_some distinct labelFound)
  obtain ⟨count, last, behind, lastPc, lastState⟩ :=
    goesOn_label labelFound ⟨point, reached.registers, reached.state⟩ rfl
  exact ⟨1 + count, last, jumped.trans behind, lastPc, lastState⟩

mutual

/-- The machine takes the code of a statement to where a run of the statement
ends. -/
theorem Stmt.Exec.ends (distinct : (definedLabels block).Nodup) :
    ∀ {s : Stmt} {begun final : State I} {ending : Ending I.Value},
    s.Exec typing begun ending final →
      ∀ {exit? : Option Label} {start next : Nat}
      {config : Config I}, StmtAt types typing block exit? start next s →
      config.pc = start → config.state = begun →
        Ends block exit? next config ending final
  | _, _, _, _, .simple isSimple ran, _, _, _, _, placed, atStart, rfl =>
      (placed.simple_does isSimple atStart).ends ran
  | _, _, _, _, .ifThenFailed tested, _, _, _, _, placed, atStart, rfl => by
      obtain ⟨_, _, _, _, _, _, tests⟩ := placed.ifThen distinct
      exact (tests _ atStart).halts tested
  | _, _, _, _, .ifThenTrue tested ran, _, _, _, _, placed, atStart, rfl => by
      obtain ⟨inner, between, label, thenPlaced, labelFound, rfl, tests⟩ :=
        placed.ifThen distinct
      obtain ⟨count, reached, reaches, stateEq, pcEq⟩ :=
        (tests _ atStart).reaches tested
      exact ((Stmt.Exec.ends distinct ran thenPlaced pcEq stateEq).onward
        (goesOn_label labelFound)).of_reaches reaches
  | _, _, _, _, .ifThenFalse tested, _, _, _, _, placed, atStart, rfl => by
      obtain ⟨_, _, _, _, _, _, tests⟩ := placed.ifThen distinct
      obtain ⟨count, reached, reaches, rfl, pcEq⟩ :=
        (tests _ atStart).reaches tested
      exact (ends_normal pcEq).of_reaches reaches
  | _, _, _, _, .ifElseFailed tested, _, _, _, _, placed, atStart, rfl => by
      obtain ⟨_, _, _, _, _, _, _, _, _, _, tests⟩ := placed.ifElse distinct
      exact (tests _ atStart).halts tested
  | _, _, _, _, .ifElseTrue tested ran, _, _, _, _, placed, atStart, rfl => by
      obtain ⟨yes, yesEnd, no, noEnd, label, thenPlaced, jumpFound, _,
        labelFound, rfl, tests⟩ :=
        placed.ifElse distinct
      obtain ⟨count, reached, reaches, stateEq, pcEq⟩ :=
        (tests _ atStart).reaches tested
      exact ((Stmt.Exec.ends distinct ran thenPlaced pcEq stateEq).onward
        (goesOn_jump distinct jumpFound labelFound)).of_reaches reaches
  | _, _, _, _, .ifElseFalse tested ran, _, _, _, _, placed, atStart, rfl => by
      obtain ⟨yes, yesEnd, no, noEnd, label, _, _, elsePlaced, labelFound, rfl,
        tests⟩ :=
        placed.ifElse distinct
      obtain ⟨count, reached, reaches, stateEq, pcEq⟩ :=
        (tests _ atStart).reaches tested
      exact ((Stmt.Exec.ends distinct ran elsePlaced pcEq stateEq).onward
        (goesOn_label labelFound)).of_reaches reaches
  | _, _, _, _, .whileFailed tested, _, _, _, _, placed, atStart, rfl => by
      obtain ⟨_, _, _, _, _, _, _, _, _, _, tests⟩ := placed.whileDo distinct
      exact (tests _ atStart).halts tested
  | _, _, _, _, .whileFalse tested, _, _, _, _, placed, atStart, rfl => by
      obtain ⟨_, _, _, _, _, _, _, _, _, _, tests⟩ := placed.whileDo distinct
      obtain ⟨count, reached, reaches, rfl, pcEq⟩ :=
        (tests _ atStart).reaches tested
      exact (ends_normal pcEq).of_reaches reaches
  | _, _, _, _, .whileAgain tested ran again, _, _, _, _, placed, atStart,
      rfl => by
      obtain ⟨inner, between, exitPoint, back, exit, bodyPlaced, jumpFound,
        backFound, _, _, tests⟩ := placed.whileDo distinct
      obtain ⟨count, reached, reaches, stateEq, pcEq⟩ :=
        (tests _ atStart).reaches tested
      obtain ⟨more, last, rest, lastPc, lastState⟩ :=
        Stmt.Exec.ends distinct ran bodyPlaced pcEq stateEq
      rw [← lastPc] at jumpFound
      have jumped :=
        reaches_jump jumpFound (idxOf?_label_eq_some distinct backFound)
      have repeated : Ends block _ _ ⟨_, last.registers, last.state⟩ _ _ :=
        Stmt.Exec.ends distinct again placed rfl lastState
      exact repeated.of_reaches ((reaches.trans rest).trans jumped)
  | _, _, _, _, .whileBroke tested ran, _, _, _, _, placed, atStart, rfl => by
      obtain ⟨inner, between, exitPoint, back, exit, bodyPlaced, _, _,
        exitFound, rfl, tests⟩ :=
        placed.whileDo distinct
      obtain ⟨count, reached, reaches, stateEq, pcEq⟩ :=
        (tests _ atStart).reaches tested
      obtain ⟨_, isExit, leads⟩ :=
        Stmt.Exec.ends distinct ran bodyPlaced pcEq stateEq
      cases isExit
      obtain ⟨more, last, rest, lastPc, rfl⟩ :=
        leads exitPoint (idxOf?_label_eq_some distinct exitFound)
      obtain ⟨few, behind, passed, behindPc, behindState⟩ :=
        goesOn_label exitFound last lastPc
      exact ⟨count + more + few, behind, (reaches.trans rest).trans passed,
        behindPc, behindState⟩
  | _, _, _, _, .whileFinal tested ran isFinal, _, _, _, _, placed, atStart,
      rfl => by
      obtain ⟨inner, between, exitPoint, back, exit, bodyPlaced, _, _, _, _,
        tests⟩ :=
        placed.whileDo distinct
      obtain ⟨count, reached, reaches, stateEq, pcEq⟩ :=
        (tests _ atStart).reaches tested
      have bodyEnds := Stmt.Exec.ends distinct ran bodyPlaced pcEq stateEq
      exact (bodyEnds.of_isFinal isFinal).of_reaches reaches
  | _, _, _, _, .block ran, _, _, _, _, placed, atStart, begunEq =>
      Stmt.ExecAll.ends distinct ran placed.statements atStart begunEq

theorem Stmt.ExecAll.ends (distinct : (definedLabels block).Nodup) :
    ∀ {statements : List Stmt} {begun final : State I} {ending : Ending I.Value},
      Stmt.ExecAll typing statements begun ending final →
      ∀ {exit? : Option Label} {start next : Nat} {config : Config I},
      StmtsAt types typing block exit? start next statements →
      config.pc = start → config.state = begun →
        Ends block exit? next config ending final
  | _, _, _, _, .nil, _, _, _, _, placed, atStart, rfl => by
      exact ends_normal (atStart.trans placed.nil_next.symm)
  | _, _, _, _, .next ran rest, _, _, _, _, placed, atStart, begunEq => by
      obtain ⟨between, firstPlaced, restPlaced⟩ := placed.cons
      obtain ⟨count, reached, reaches, pcEq, stateEq⟩ :=
        Stmt.Exec.ends distinct ran firstPlaced atStart begunEq
      exact (Stmt.ExecAll.ends distinct rest restPlaced pcEq stateEq).of_reaches
        reaches
  | _, _, _, _, .last ran notNormal, _, _, _, _, placed, atStart, begunEq => by
      obtain ⟨between, firstPlaced, _⟩ := placed.cons
      exact (Stmt.Exec.ends distinct ran firstPlaced atStart
        begunEq).of_ne_normal notNormal

end

/-- Wherever its code stands, a statement has a run if the machine halts after
some number of steps at most. -/
def Stmt.RunsWithin (I : Interpretation) (types : TypeTable) (typing : Typing)
    (block : List Instr) (total : Nat) (s : Stmt) : Prop :=
  ∀ (exit? : Option Label) (start next : Nat) (config : Config I)
    (result : Option (Outcome I.Value) × State I),
    StmtAt types typing block exit? start next s → config.pc = start →
      config.run block total = some result →
        ∃ ending final, s.Exec typing config.state ending final

theorem Config.Reaches.run_total {count total : Nat} {config reached : Config I}
    {result : Option (Outcome I.Value) × State I}
    (reaches : Reaches block count config reached)
    (halted : config.run block total = some result) :
    reached.run block total = some result := by
  obtain ⟨more, rfl, restHalted⟩ := reaches.run_rest halted
  rw [Nat.add_comm]
  exact run_add restHalted count

mutual

theorem Stmt.runsWithin (distinct : (definedLabels block).Nodup) {total : Nat}
    (shorter : ∀ fewer < total, ∀ s : Stmt,
      s.RunsWithin I types typing block fewer) :
    ∀ s : Stmt, s.RunsWithin I types typing block total
  | .assign position held value => fun _ _ _ _ _ _ _ _ =>
      ⟨_, _, .simple rfl rfl⟩
  | .breakLoop position => fun _ _ _ _ _ _ _ _ => ⟨_, _, .simple rfl rfl⟩
  | .skip position => fun _ _ _ _ _ _ _ _ => ⟨_, _, .simple rfl rfl⟩
  | .returnValue position value => fun _ _ _ _ _ _ _ _ =>
      ⟨_, _, .simple rfl rfl⟩
  | .read position held => fun _ _ _ _ _ _ _ _ => ⟨_, _, .simple rfl rfl⟩
  | .write position value => fun _ _ _ _ _ _ _ _ => ⟨_, _, .simple rfl rfl⟩
  | .print position text => fun _ _ _ _ _ _ _ _ => ⟨_, _, .simple rfl rfl⟩
  | .call position callee args => fun _ _ _ _ _ _ _ _ => ⟨_, _, .simple rfl rfl⟩
  | .ifThen position test thenBranch => by
      intro exit? start next config result placed atStart halted
      obtain ⟨inner, between, label, thenPlaced, _, _, tests⟩ :=
        placed.ifThen distinct
      rcases tested : test.eval typing config.state with ⟨_ | _ | _, state⟩
      · exact ⟨_, _, .ifThenFailed tested⟩
      · exact ⟨_, _, .ifThenFalse tested⟩
      · obtain ⟨count, reached, reaches, rfl, pcEq⟩ :=
          (tests _ atStart).reaches tested
        obtain ⟨ending, final, ran⟩ :=
          Stmt.runsWithin distinct shorter thenBranch _ _ _ reached
          _ thenPlaced pcEq (reaches.run_total halted)
        exact ⟨ending, final, .ifThenTrue tested ran⟩
  | .ifElse position test thenBranch elseBranch => by
      intro exit? start next config result placed atStart halted
      obtain ⟨yes, yesEnd, no, noEnd, label, thenPlaced, _, elsePlaced, _, _,
        tests⟩ :=
        placed.ifElse distinct
      rcases tested : test.eval typing config.state with ⟨_ | _ | _, state⟩
      · exact ⟨_, _, .ifElseFailed tested⟩
      · obtain ⟨count, reached, reaches, rfl, pcEq⟩ :=
          (tests _ atStart).reaches tested
        obtain ⟨ending, final, ran⟩ :=
          Stmt.runsWithin distinct shorter elseBranch _ _ _ reached
          _ elsePlaced pcEq (reaches.run_total halted)
        exact ⟨ending, final, .ifElseFalse tested ran⟩
      · obtain ⟨count, reached, reaches, rfl, pcEq⟩ :=
          (tests _ atStart).reaches tested
        obtain ⟨ending, final, ran⟩ :=
          Stmt.runsWithin distinct shorter thenBranch _ _ _ reached
          _ thenPlaced pcEq (reaches.run_total halted)
        exact ⟨ending, final, .ifElseTrue tested ran⟩
  | .whileDo position test body => by
      intro exit? start next config result placed atStart halted
      obtain ⟨inner, between, exitPoint, back, exit, bodyPlaced, jumpFound,
        backFound, _, _, tests⟩ := placed.whileDo distinct
      rcases tested : test.eval typing config.state with ⟨_ | _ | _, state⟩
      · exact ⟨_, _, .whileFailed tested⟩
      · exact ⟨_, _, .whileFalse tested⟩
      · obtain ⟨count, reached, reaches, rfl, pcEq⟩ :=
          (tests _ atStart).reaches tested
        obtain ⟨ending, final, ran⟩ :=
          Stmt.runsWithin distinct shorter body _ _ _ reached
          _ bodyPlaced pcEq (reaches.run_total halted)
        cases ending with
        | normal =>
            -- The jump back is a step, so fewer steps are left for the rest
            -- of the loop.
            obtain ⟨more, last, rest, lastPc, rfl⟩ :=
              ran.ends distinct bodyPlaced pcEq rfl
            rw [← lastPc] at jumpFound
            have jumped :=
              reaches_jump jumpFound (idxOf?_label_eq_some distinct backFound)
            obtain ⟨fewer, totalEq, restHalted⟩ :=
              ((reaches.trans rest).trans jumped).run_rest halted
            obtain ⟨ending, final, again⟩ := shorter fewer (by omega)
              (.whileDo position test body) _ _ _ _ _ placed rfl restHalted
            exact ⟨ending, final, .whileAgain tested ran again⟩
        | broke => exact ⟨_, _, .whileBroke tested ran⟩
        | returned value =>
            exact ⟨_, _, .whileFinal tested ran (.returned value)⟩
        | failed => exact ⟨_, _, .whileFinal tested ran .failed⟩
  | .block position statements => by
      intro exit? start next config result placed atStart halted
      obtain ⟨ending, final, ran⟩ :=
        Stmt.allRunWithin distinct shorter statements
        placed.statements atStart halted
      exact ⟨ending, final, .block ran⟩

theorem Stmt.allRunWithin (distinct : (definedLabels block).Nodup) {total : Nat}
    (shorter : ∀ fewer < total, ∀ s : Stmt,
      s.RunsWithin I types typing block fewer) :
    ∀ (statements : List Stmt) {exit? : Option Label} {start next : Nat}
      {config : Config I} {result : Option (Outcome I.Value) × State I},
      StmtsAt types typing block exit? start next statements →
        config.pc = start → config.run block total = some result →
        ∃ ending final, Stmt.ExecAll typing statements config.state ending final
  | [], _, _, _, _, _, _, _, _ => ⟨_, _, .nil⟩
  | first :: others, exit?, start, next, config, result, placed, atStart,
      halted => by
      obtain ⟨between, firstPlaced, restPlaced⟩ := placed.cons
      obtain ⟨ending, state, ran⟩ :=
        Stmt.runsWithin distinct shorter first _ _ _ config
        _ firstPlaced atStart halted
      by_cases isNormal : ending = .normal
      · subst isNormal
        obtain ⟨count, reached, reaches, pcEq, rfl⟩ :=
          ran.ends distinct firstPlaced atStart rfl
        obtain ⟨ending, final, rest⟩ :=
          Stmt.allRunWithin distinct shorter others restPlaced
          pcEq (reaches.run_total halted)
        exact ⟨ending, final, .next ran rest⟩
      · exact ⟨ending, state, .last ran isNormal⟩

end

theorem Stmt.runsWithin_of_distinct (distinct : (definedLabels block).Nodup)
    (total : Nat) : ∀ s : Stmt, s.RunsWithin I types typing block total := by
  induction total using Nat.strongRecOn with
  | ind total ih => exact Stmt.runsWithin distinct ih

/-- Statements have a run if the machine halts that starts on their code. -/
theorem StmtsAt.exists_execAll (distinct : (definedLabels block).Nodup)
    {statements : List Stmt} {config : Config I}
    {outcome? : Option (Outcome I.Value)}
    {final : State I}
    (placed : StmtsAt types typing block exit? start next statements)
    (atStart : config.pc = start) (halts : config.Halts block outcome? final) :
    ∃ ending reached, Stmt.ExecAll typing statements config.state ending
      reached := by
  obtain ⟨total, halted⟩ := halts
  exact Stmt.allRunWithin distinct (fun fewer _ =>
    Stmt.runsWithin_of_distinct distinct fewer)
    statements placed atStart halted

end PL0
