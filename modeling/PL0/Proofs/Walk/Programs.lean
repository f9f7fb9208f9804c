import PL0.Proofs.Reading.Input
import PL0.Proofs.Reading.Positions
import PL0.Proofs.Walk.Statements

/-!
# Walks over programs

A walk over any tokens that has as much fuel as there are tokens gives what
reading gives.  So it is never stuck: no token is looked for outside of the
tokens or behind the first end of the input, and no loop and no recursion
needs more fuel.  It stops at the first end of the input, and what stands
behind it makes no difference.
-/

namespace PL0

namespace Input

variable {input : Input} {walker : Walker} {fuel limit : Nat}

theorem arraySize_agrees (fueled : input.left walker < fuel) :
    input.Simulates walker (Walk.arraySize fuel) Reader.arraySize := by
  have dynamic :
      input.Simulates walker (do return ArraySize.dynamic (← Walk.expr fuel))
        (do return ArraySize.dynamic (← Reader.expr)) := by
    refine (expr_agrees fueled).bind ?_
    intro count _ _ _
    exact agrees_pure trivial
  refine next?_agrees.bind ?_
  rintro _ _ - ⟨rfl, rfl⟩
  refine agrees_second?_bind ?_
  intro seen read same
  cases head : input.head? walker with
  | none => exact dynamic
  | some kind =>
      cases kind with
      | integer value =>
          have sameHere := same _ head (.symbol .closeBracket) (by simp)
          by_cases closed : seen = some (.symbol .closeBracket)
          · rw [closed, sameHere.mp closed]
            dsimp only
            split
            · refine advance_simulates.bind ?_
              intro _ _ _ _
              exact agrees_pure trivial
            · exact dynamic
          · have notRead : read ≠ some (.symbol .closeBracket) := fun isRead =>
              closed (sameHere.mpr isRead)
            split
            · contradiction
            · split
              · contradiction
              · exact dynamic
      | _ => exact dynamic

theorem baseType_agrees :
    input.Simulates walker Walk.baseType Reader.baseType := by
  refine next?_agrees.bind ?_
  rintro _ _ - ⟨rfl, rfl⟩
  cases head : input.head? walker with
  | none => exact refuse_agrees
  | some kind =>
      cases kind with
      | keyword word =>
          cases word with
          | intWord =>
              refine advance_simulates.bind ?_
              intro _ _ _ _
              exact agrees_pure trivial
          | floatWord =>
              refine advance_simulates.bind ?_
              intro _ _ _ _
              exact agrees_pure trivial
          | _ => exact refuse_agrees
      | _ => exact refuse_agrees

theorem declaredType_agrees (fueled : input.left walker < fuel) :
    input.Simulates walker (Walk.declaredType fuel) Reader.declaredType := by
  refine baseType_agrees.bind ?_
  intro base named namedReaches _
  refine accept_agrees.bind ?_
  intro found opened openedReaches _
  cases found with
  | false => exact agrees_pure trivial
  | true =>
      have fewer := Nat.le_trans openedReaches.left_le namedReaches.left_le
      refine (arraySize_agrees (Nat.lt_of_le_of_lt fewer fueled)).bind ?_
      intro size sized _ _
      refine expect_agrees.bind ?_
      intro _ _ _ _
      exact agrees_pure trivial

theorem declaration_agrees {expected : Expectation}
    (fueled : input.left walker < fuel) :
    input.Agrees walker (Walk.declaration fuel expected)
      (Reader.declaration expected)
      fun _ rest => walker.index < rest.index := by
  refine identifier_agrees.bind ?_
  rintro ⟨name, position⟩ named _ onward
  refine expect_agrees.bind ?_
  intro _ typed typedReaches _
  have passed := typedReaches.after onward
  refine (declaredType_agrees
    (Nat.lt_of_le_of_lt (left_le (Nat.le_of_lt passed)) fueled)).bind ?_
  intro type rest reaches _
  exact agrees_pure (reaches.after passed)

theorem parameters_agrees (fueled : input.left walker < fuel) :
    input.Simulates walker (Walk.parameters fuel) Reader.parameters := by
  refine next?_agrees.bind ?_
  rintro _ _ - ⟨rfl, rfl⟩
  split
  · exact agrees_pure trivial
  · refine agrees_read_bind (remaining_state walker) ?_
    refine commaList_agrees (Nat.le_refl _) fueled ?_
    intro rest onwards
    refine (declaration_agrees
      (Nat.lt_of_le_of_lt (left_le onwards) fueled)).mono ?_
    exact fun _ _ _ _ => trivial

theorem localsWithin_agrees {enough : Nat} (covered : input.left walker ≤ limit)
    (fueled : input.left walker < fuel) (plenty : input.left walker < enough) :
    input.Simulates walker (Walk.localsWith enough fuel)
      (Reader.localsWithin limit) := by
  induction fuel generalizing limit walker with
  | zero => exact absurd fueled (Nat.not_lt_zero _)
  | succ fuel ih =>
      refine agrees_of_limit Reader.localsWithin covered ?_ ?_
      · rintro ⟨⟨_, stop, nextId⟩, errors, recovering⟩ rfl
        rfl
      intro smaller within
      rw [Walk.localsWith, Reader.localsWithin]
      refine next?_agrees.bind ?_
      rintro _ _ - ⟨rfl, rfl⟩
      cases head : input.head? walker with
      | none => exact agrees_pure trivial
      | some kind =>
          cases kind with
          | identifier name =>
              refine (declaration_agrees plenty).bind ?_
              intro first declared _ onward
              refine accept_agrees.bind ?_
              intro found rest reaches _
              cases found with
              | false => exact agrees_pure trivial
              | true =>
                  have shorter :=
                    reaches.contains.left_lt (reaches.after onward)
                  refine (ih (by omega) (by omega) (by omega)).bind ?_
                  intro others _ _ _
                  exact agrees_pure trivial
          | _ => exact agrees_pure trivial

theorem locals_agrees (fueled : input.left walker < fuel) :
    input.Simulates walker (Walk.localsWith fuel fuel) Reader.locals :=
  agrees_read_bind (remaining_state walker)
    (localsWithin_agrees (Nat.le_refl _) fueled fueled)

theorem functionRest_agrees (fueled : input.left walker < fuel) :
    input.Simulates walker (Walk.functionRest fuel) Attempt.functionRest := by
  -- However far the walk has come, the fuel still suffices.
  have enough {rest : Walker} (onwards : walker.index ≤ rest.index) :
      input.left rest < fuel :=
    Nat.lt_of_le_of_lt (left_le onwards) fueled
  refine identifier_agrees.lift.bind ?_
  rintro ⟨name, position⟩ named toNamed _
  refine expect_agrees.lift.bind ?_
  intro _ opened toOpened _
  have opening := toNamed.trans toOpened
  refine (parameters_agrees (enough opening.index_le)).lift.bind ?_
  intro params listed toListed _
  refine expect_agrees.lift.bind ?_
  intro _ closed toClosed _
  have closing := (opening.trans toListed).trans toClosed
  refine (locals_agrees (enough closing.index_le)).lift.bind ?_
  intro declared reached toReached _
  refine expect_agrees.lift.bind ?_
  intro _ begun toBegun _
  have beginning := (closing.trans toReached).trans toBegun
  refine (statements_agrees (enough beginning.index_le)).lift.bind ?_
  intro body ended _ _
  refine expect_agrees.lift.bind ?_
  intro _ _ _ _
  exact agrees_pure trivial

theorem attempt_function_apply (contains : input.Contains walker)
    (head : input.head? walker = some (.keyword .funWord)) :
    Walk.attempt (Walk.function fuel) walker =
      Walk.attempt (Walk.functionRest fuel) (step walker) := by
  have accepted : Walk.accept (.keyword .funWord) walker =
      .ok true (step walker) := by
    unfold Walk.accept
    rw [bind_apply_of_ok (next?_apply contains), if_pos head,
      bind_apply_of_ok (advance_apply contains head)]
    rfl
  have expected : Walk.expect (.keyword .funWord) .function walker =
      .ok () (step walker) := by
    unfold Walk.expect
    rw [bind_apply_of_ok accepted]
    rfl
  have begun :
      Walk.function fuel walker = Walk.functionRest fuel (step walker) :=
    bind_apply_of_ok expected
  unfold Walk.attempt
  rw [begun]

/-- Whether a function could be read or not, its `fun` has been passed. -/
theorem agrees_function_bind {β : Type}
    {nextWalk : Except SyntaxError Function → Walk β}
    {next : Except Expectation Function → Recoverer β}
    {demand : β → Walker → Prop}
    (head : input.head? walker = some (.keyword .funWord))
    (fueled : input.left walker < fuel)
    (ifOk : ∀ function rest, input.Contains rest → walker.index < rest.index →
      input.Agrees rest (nextWalk (.ok function)) (next (.ok function)) demand)
    (ifError : ∀ expected rest, input.Contains rest →
      walker.index < rest.index →
      input.Agrees rest
        (nextWalk (.error ((input.state rest).cursor.unexpected expected)))
        (next (.error expected)) demand) :
    input.Agrees walker (Walk.attempt (Walk.function fuel) >>= nextWalk)
      (Recoverer.attempt Attempt.function >>= next) demand := by
  have passed : input.Agrees walker
      (do Walk.advance; Walk.attempt (Walk.functionRest fuel) >>= nextWalk)
      (do Recoverer.advance; Recoverer.attempt Attempt.functionRest >>= next)
        demand := by
    refine (recoverer_advance_agrees head).bind ?_
    intro _ begun reaches onward
    refine agrees_attempt_bind
      (functionRest_agrees (Nat.lt_of_le_of_lt reaches.left_le fueled)) ?_ ?_
    · intro function rest toRest _
      exact ifOk function rest toRest.contains (toRest.after onward)
    · intro expected rest toRest
      exact ifError expected rest toRest.contains (toRest.after onward)
  refine passed.congr ?_ ?_
  · intro contains
    rw [bind_apply_of_ok (advance_apply contains head)]
    simp [Bind.bind, EStateM.bind, attempt_function_apply contains head]
  · have stateHead : (input.state walker).cursor.kinds.head? =
        some (.keyword .funWord) := by
      rw [← Cursor.next?_eq, next?_state, head]
    have same :
        (Recoverer.attempt Attempt.function >>= next) (input.state walker) =
        (Recoverer.attempt Attempt.functionRest >>= next)
          (input.state walker).advance := by
      change (let (result, after) := Recoverer.attempt Attempt.function (input.state walker)
        next result after) = _
      rw [Setting.attempt_function_of_head stateHead]
      rfl
    rw [Recoverer.lift_apply, same]
    rfl

theorem functionsWithin_agrees (covered : input.left walker ≤ limit)
    (fueled : input.left walker < fuel) :
    input.Agrees walker (Walk.functions fuel) (Recoverer.functionsWithin limit)
      fun _ rest => rest.index = input.tokens.length := by
  induction fuel generalizing limit walker with
  | zero => exact absurd fueled (Nat.not_lt_zero _)
  | succ fuel ih =>
      refine agrees_of_limit Recoverer.functionsWithin covered ?_ ?_
      · rintro ⟨⟨_, stop, nextId⟩, errors, recovering⟩ rfl
        rfl
      intro smaller within
      -- After a token the walk goes on with what is left of the fuel.
      have later (rest : Walker) (onward : walker.index < rest.index) :
          input.Agrees rest (Walk.functions fuel)
            (Recoverer.functionsWithin smaller)
            fun _ last => last.index = input.tokens.length := by
        intro contains
        have shorter := contains.left_lt onward
        exact ih (by omega) (by omega) contains
      rw [Walk.functions, Recoverer.functionsWithin]
      refine recoverer_next?_agrees.bind ?_
      rintro _ _ - ⟨rfl, rfl⟩
      cases head : input.head? walker with
      | none =>
          intro contains
          exact ⟨rfl, contains.reaches, contains.index_eq_of_head? head⟩
      | some kind =>
          have other : input.Agrees walker
              (do Walk.report (← Walk.unexpected .function); Walk.advance
                  Walk.functions fuel)
              (do Recoverer.report .function; Recoverer.advance
                  Recoverer.functionsWithin smaller)
              fun _ rest => rest.index = input.tokens.length := by
            refine agrees_complain_bind ?_
            intro reported _ sameIndex
            refine (recoverer_advance_agrees
              ((head?_congr sameIndex).trans head)).bind ?_
            intro _ rest _ onward
            exact later rest (by omega)
          cases kind with
          | keyword word =>
              cases word with
              | funWord =>
                  refine recovered_agrees.bind ?_
                  intro _ resumed resumedReaches sameIndex
                  have fewer := resumedReaches.left_le
                  refine agrees_function_bind
                    ((head?_congr sameIndex).trans head) (by omega) ?_ ?_
                  · intro function rest _ onward
                    refine (later rest (by omega)).bind ?_
                    intro others last _ atEnd
                    exact agrees_pure atEnd
                  · intro expected rest _ onward
                    refine report_agrees.bind ?_
                    intro _ reported _ sameAgain
                    refine recoverer_next?_agrees.bind ?_
                    rintro _ _ - ⟨rfl, rfl⟩
                    split
                    · exact later reported (by omega)
                    · refine recoverer_advance_simulates.bind ?_
                      intro _ last toLast _
                      exact later last (toLast.after (by omega))
              | _ => exact other
          | _ => exact other

theorem skipRest_apply (contains : input.Contains walker)
    (fueled : input.left walker < fuel) :
    Walk.skipRest fuel walker =
      .ok () { walker with index := input.tokens.length } := by
  induction fuel generalizing walker with
  | zero => exact absurd fueled (Nat.not_lt_zero _)
  | succ fuel ih =>
      rw [Walk.skipRest, bind_apply_of_ok (next?_apply contains)]
      cases head : input.head? walker with
      | none =>
          rw [← contains.index_eq_of_head? head]
          rfl
      | some kind =>
          have reaches := reaches_step contains head
          have shorter :=
            reaches.contains.left_lt (Nat.lt_succ_self walker.index)
          have further := ih reaches.contains (by omega)
          change (Walk.advance >>= fun _ => Walk.skipRest fuel) walker = _
          rw [bind_apply_of_ok (advance_apply contains head), further]
          rfl

theorem skipRest_agrees (fueled : input.left walker < fuel) :
    input.Agrees walker (Walk.skipRest fuel)
      (modify fun state =>
        { state with cursor := { state.cursor with tokens := [] } } :
        Recoverer Unit)
      fun _ rest => rest.index = input.tokens.length := by
  intro contains
  rw [skipRest_apply contains fueled]
  refine ⟨?_, ⟨⟨contains.tokens, Nat.le_refl _⟩, contains.index_le⟩, rfl⟩
  rw [Recoverer.lift_apply]
  simp only [state, List.drop_length]
  rfl

theorem ending_agrees (program : Program) (fueled : input.left walker < fuel) :
    input.Agrees walker (Walk.ending fuel program) (Recoverer.ending program)
      fun _ rest => rest.index = input.tokens.length := by
  have unfolded : Recoverer.ending program =
      (do let _ ← Recoverer.accept (.symbol .semicolon)
          Recoverer.inputEnd program) := rfl
  rw [unfolded]
  refine recoverer_accept_agrees.bind ?_
  intro _ passed passedReaches _
  refine recoverer_next?_agrees.bind ?_
  rintro _ _ - ⟨rfl, rfl⟩
  cases head : input.head? passed with
  | none =>
      intro contains
      exact ⟨rfl, contains.reaches, contains.index_eq_of_head? head⟩
  | some kind =>
      refine agrees_complain_bind ?_
      intro reported toReported _
      have fewer := (passedReaches.trans toReported).left_le
      refine (skipRest_agrees (Nat.lt_of_le_of_lt fewer fueled)).bind ?_
      intro _ last _ atEnd
      exact agrees_pure atEnd

theorem statementProgram_agrees (fueled : input.left walker < fuel) :
    input.Agrees walker (Walk.statementProgram fuel) Recoverer.statementProgram
      fun _ rest => rest.index = input.tokens.length := by
  rw [Recoverer.statementProgram_eq]
  refine agrees_attempt_bind (statement_agrees fueled) ?_ ?_
  · intro statement rest reaches _
    exact ending_agrees _ (Nat.lt_of_le_of_lt reaches.left_le fueled)
  · intro expected rest reaches
    refine report_agrees.bind ?_
    intro _ reported toReported _
    refine recoverer_advance_simulates.bind ?_
    intro _ passed toPassed _
    have fewer := ((reaches.trans toReported).trans toPassed).left_le
    exact ending_agrees _ (Nat.lt_of_le_of_lt fewer fueled)

/-- With enough fuel the walk over a program does what the reader does, and
stops at the end of the input. -/
theorem program_agrees (fueled : input.left walker < fuel) :
    input.Agrees walker (Walk.program fuel) Recoverer.program
      fun _ rest => rest.index = input.tokens.length := by
  refine recoverer_next?_agrees.bind ?_
  rintro _ _ - ⟨rfl, rfl⟩
  cases head : input.head? walker with
  | none =>
      refine agrees_complain_bind ?_
      intro reported toReported sameIndex
      refine agrees_pure ?_
      exact toReported.contains.index_eq_of_head?
        ((head?_congr sameIndex).trans head)
  | some kind =>
      have single := statementProgram_agrees fueled
      cases kind with
      | keyword word =>
          cases word with
          | funWord =>
              refine agrees_read_bind (remaining_state walker) ?_
              refine (functionsWithin_agrees (Nat.le_refl _) fueled).bind ?_
              intro all last _ atEnd
              exact agrees_pure atEnd
          | _ => exact single
      | _ => exact single

/-- Where the reader never fails, the walk comes to its end. -/
theorem Agrees.exists_run {α : Type} {walk : Walk α} {reader : Recoverer α}
    {demand : α → Walker → Prop}
    (agrees : input.Agrees walker walk reader demand)
    (contains : input.Contains walker) :
    ∃ rest, walk walker = .ok (reader (input.state walker)).1 rest ∧
      input.state rest = (reader (input.state walker)).2 ∧ input.Contains rest ∧
        demand (reader (input.state walker)).1 rest := by
  have same := agrees contains
  rw [Recoverer.lift_apply] at same
  cases ran : walk walker with
  | ok value rest =>
      rw [ran] at same
      obtain ⟨read, reaches, met⟩ := same
      obtain ⟨rfl, stateEq⟩ := EStateM.Result.ok.inj read
      exact ⟨rest, rfl, stateEq.symm, reaches.contains, met⟩
  | error halt rest =>
      rw [ran] at same
      cases halt with
      | stuck => exact same.elim
      | refused error =>
          obtain ⟨_, ⟨⟩, _⟩ := same

/-- Tokens as they are read. -/
def ofTokens (tokens : List Token) : Input where
  tokens := (Cursor.ofTokens tokens).tokens
  unended _ := Cursor.kind_ne_endOfInput
  stop := (Cursor.ofTokens tokens).stop
  unread := (withEnd tokens).drop ((Cursor.ofTokens tokens).tokens.length + 1)

theorem all_ofTokens (tokens : List Token) :
    (ofTokens tokens).all = withEnd tokens := by
  obtain ⟨unread, allEq⟩ := withEnd_eq tokens
  simp [all, ofTokens, allEq]

/-- The end of the input is its first token of that kind. -/
theorem first_end (input : Input) :
    input.all[input.tokens.length]?.map Token.kind = some .endOfInput ∧
      ∀ token ∈ input.all.take input.tokens.length, token.kind ≠
        .endOfInput := by
  constructor
  · simp [all]
  · rw [all, List.take_left]
    exact input.unended

end Input

/-- The start of a walk over tokens, with an end of the input put behind them
if need be. -/
def Walker.start (tokens : List Token) : Walker :=
  ⟨withEnd tokens, 0, 0, [], false⟩

theorem Walker.contains_start (tokens : List Token) :
    (Input.ofTokens tokens).Contains (.start tokens) :=
  ⟨(Input.all_ofTokens tokens).symm, Nat.zero_le _⟩

/-- Reading comes to an end for all tokens.  A walk with as much fuel as there
are tokens, or more, is not stuck, so it never looks for a token outside of
them or behind the first end of the input; it gives the same program and the
same errors and stands at that end.  Nothing behind it is read. -/
theorem readProgram_total :
    (∀ (tokens : List Token) (extra : Nat), ∃ final : Walker,
      Walk.program ((withEnd tokens).length + extra) (.start tokens) =
          .ok (readProgram tokens).program final ∧
        final.errors = (readProgram tokens).errors ∧
        (withEnd tokens)[final.index]?.map Token.kind = some .endOfInput ∧
        ∀ token ∈ (withEnd tokens).take final.index, token.kind ≠ .endOfInput) ∧
      ∀ (before unread : List Token) (stop : Token),
        (∀ token ∈ before, token.kind ≠ .endOfInput) → stop.kind = .endOfInput →
          readProgram (before ++ stop :: unread) =
            readProgram (before ++ [stop]) := by
  constructor
  · intro tokens extra
    have fueled : (Input.ofTokens tokens).left (.start tokens) <
        (withEnd tokens).length + extra := by
      rw [← Input.all_ofTokens tokens, Input.all, List.length_append,
        List.length_cons, Input.left]
      omega
    obtain ⟨final, walked, stateEq, _, atEnd⟩ :=
      (Input.program_agrees fueled).exists_run (Walker.contains_start tokens)
    refine ⟨final, walked, congrArg Recovery.errors stateEq, ?_⟩
    rw [atEnd, ← Input.all_ofTokens tokens]
    exact (Input.ofTokens tokens).first_end
  · intro before unread stop unended ends
    unfold readProgram
    rw [Cursor.ofTokens_of_end unended ends,
      Cursor.ofTokens_of_end unended ends]

/-- A block that breaks off in the middle of a statement. -/
def brokenBlock : List Token :=
  [⟨.keyword .beginWord, ⟨1, 1⟩⟩, ⟨.identifier "x", ⟨1, 7⟩⟩,
    ⟨.symbol .assign, ⟨1, 9⟩⟩]

theorem readProgram_total_brokenBlock :
    (readProgram (brokenBlock ++ ⟨.endOfInput, ⟨1, 11⟩⟩ ::
      [⟨.keyword .endWord, ⟨2, 1⟩⟩]) =
        readProgram (brokenBlock ++ [⟨.endOfInput, ⟨1, 11⟩⟩])) ∧
      ∃ final : Walker,
        Walk.program 4 (.start (brokenBlock ++ [⟨.endOfInput, ⟨1, 11⟩⟩])) =
            .ok (.functions []) final ∧
          final.errors = [⟨none, .expression, ⟨1, 11⟩⟩] := by
  refine ⟨readProgram_total.2 brokenBlock _ _ (by decide) rfl, ?_⟩
  obtain ⟨final, walked, errorsEq, _⟩ :=
    readProgram_total.1 (brokenBlock ++ [⟨.endOfInput, ⟨1, 11⟩⟩]) 0
  exact ⟨final, walked, errorsEq⟩

-- A walk over tokens without an end, or without enough fuel, does get stuck.
example : ∃ rest, Walk.program 4 ⟨brokenBlock, 0, 0, [],
    false⟩ = .error .stuck rest :=
  ⟨_, rfl⟩

example : ∃ rest, Walk.program 1 (.start brokenBlock) = .error .stuck rest :=
  ⟨_, rfl⟩

end PL0
