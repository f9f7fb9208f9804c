import PL0.Proofs.Walk.Expressions

/-!
# Walks over statements

A statement that was read has taken a token.  A list of statements goes on
only after a token: the next statement has taken one, or the token that did
not fit has been passed over, or a separator.  So a walk over statements with
more fuel than there are tokens left agrees with the reader, even where
nothing fits.
-/

namespace PL0

namespace Input

variable {input : Input} {walker : Walker} {fuel limit : Nat}

/-- Whether every statement list ends where the walk stands. -/
def listEnds (input : Input) (walker : Walker) : Bool :=
  (input.head? walker).all fun kind =>
    kind = .keyword .endWord || kind = .keyword .funWord

theorem atListEnd_agrees : input.Agrees walker Walk.atListEnd Attempt.atListEnd
    fun ends rest => input.listEnds walker = ends ∧ walker = rest := by
  refine recoverer_next?_agrees.bind ?_
  rintro _ _ - ⟨rfl, rfl⟩
  unfold listEnds
  cases input.head? walker with
  | none => exact agrees_pure ⟨rfl, rfl⟩
  | some kind => exact agrees_pure ⟨by simp, rfl⟩

theorem exists_head_of_listEnds (goesOn : input.listEnds walker = false) :
    ∃ kind, input.head? walker = some kind := by
  cases head : input.head? walker with
  | none => simp [listEnds, head] at goesOn
  | some kind => exact ⟨kind, rfl⟩

theorem listItem_agrees {walkStatement : Walk Stmt} {statement : Attempt Stmt}
    (agrees : input.Agrees walker walkStatement statement
      fun _ rest => walker.index < rest.index) :
    input.Agrees walker (Walk.listItem walkStatement)
      (Attempt.listItem statement)
      fun _ rest => walker.index < rest.index ∨ input.listEnds rest = true := by
  refine agrees_attempt_bind agrees ?_ ?_
  · intro value rest _ onward
    refine recovered_agrees.bind ?_
    intro _ last reaches _
    exact agrees_pure (.inl (reaches.after onward))
  · intro expected rest reaches
    refine report_agrees.bind ?_
    intro _ reported reportedReaches _
    refine atListEnd_agrees.bind ?_
    rintro ends _ - ⟨endsEq, rfl⟩
    cases ends with
    | true => exact agrees_pure (.inr endsEq)
    | false =>
        obtain ⟨kind, head⟩ := exists_head_of_listEnds endsEq
        refine (recoverer_advance_agrees head).bind ?_
        intro _ last _ onward
        have before := Nat.le_trans reaches.index_le reportedReaches.index_le
        exact agrees_pure (.inl (Nat.lt_of_le_of_lt before onward))

theorem separator_agrees : input.Agrees walker Walk.separator Attempt.separator
    fun goesOn rest =>
      goesOn = true → walker.index < rest.index ∨
        input.listEnds walker = false := by
  refine recoverer_accept_agrees.bind ?_
  intro found rest _ met
  cases found with
  | true =>
      refine recovered_agrees.bind ?_
      intro _ resumed resumedReaches _
      refine atListEnd_agrees.bind ?_
      intro ends last lastReaches _
      exact agrees_pure fun _ =>
        .inl (lastReaches.after (resumedReaches.after met))
  | false =>
      obtain rfl := met
      refine atListEnd_agrees.bind ?_
      rintro ends _ - ⟨endsEq, rfl⟩
      cases ends with
      | true => exact agrees_pure (by simp)
      | false =>
          refine agrees_complain_bind ?_
          intro last _ _
          exact agrees_pure fun _ => .inr endsEq

theorem statementList_agrees {walkStatement : Walk Stmt}
    {statement : Attempt Stmt} (covered : input.left walker < limit)
    (fueled : input.left walker < fuel)
    (statements : ∀ rest : Walker, walker.index ≤ rest.index →
      input.Agrees rest walkStatement statement fun _ last =>
        rest.index < last.index) :
    input.Simulates walker (Walk.statementList walkStatement fuel)
      (Attempt.statementList statement limit) := by
  induction fuel generalizing limit walker with
  | zero => exact absurd fueled (Nat.not_lt_zero _)
  | succ fuel ih =>
      cases limit with
      | zero => exact absurd covered (Nat.not_lt_zero _)
      | succ limit =>
          rw [Walk.statementList, Attempt.statementList]
          refine (listItem_agrees (statements walker (Nat.le_refl _))).bind ?_
          intro first item itemReaches progress
          refine separator_agrees.bind ?_
          intro goesOn rest restReaches continues
          cases goesOn with
          | false => exact agrees_pure trivial
          | true =>
              have onward : walker.index < rest.index := by
                rcases progress with taken | ends
                · exact restReaches.after taken
                · rcases continues rfl with passed | goesOn
                  · exact Nat.lt_of_le_of_lt itemReaches.index_le passed
                  · rw [ends] at goesOn
                    cases goesOn
              have shorter := restReaches.contains.left_lt onward
              refine (ih (by omega) (by omega) ?_).bind ?_
              · intro later onwards
                exact statements later
                  (Nat.le_trans (Nat.le_of_lt onward) onwards)
              · intro others _ _ _
                exact agrees_pure trivial

theorem callOrAssignment_agrees {name : String}
    (fueled : input.left walker < fuel)
    (head : input.head? walker = some (.identifier name))
    (position : Position) :
    input.Agrees walker (Walk.callOrAssignment fuel position name)
      (Attempt.callOrAssignment position name) fun _ rest =>
        walker.index < rest.index := by
  refine agrees_ifSecond head (by simp) ?_ ?_
  · refine (advance_agrees head).bind ?_
    intro _ named _ onward
    refine advance_simulates.bind ?_
    intro _ opened openedReaches _
    have passed := openedReaches.after onward
    have fewer : input.left opened ≤ input.left walker :=
      left_le (Nat.le_of_lt passed)
    refine (arguments_agrees (Nat.lt_of_le_of_lt fewer fueled)).bind ?_
    intro args rest reaches _
    exact agrees_pure (reaches.after passed)
  · refine (place_agrees fueled).bind ?_
    intro target placed _ onward
    refine expect_agrees.bind ?_
    intro _ assigned assignedReaches _
    have passed := assignedReaches.after onward
    have fewer : input.left assigned ≤ input.left walker :=
      left_le (Nat.le_of_lt passed)
    refine (expr_agrees (Nat.lt_of_le_of_lt fewer fueled)).bind ?_
    intro value rest reaches _
    exact agrees_pure (reaches.after passed)

theorem readTarget_agrees (fueled : input.left walker < fuel)
    (position : Position) :
    input.Simulates walker (Walk.readTarget fuel position)
      (Attempt.readTarget position) := by
  refine expect_agrees.bind ?_
  intro _ opened reaches _
  refine (place_agrees (Nat.lt_of_le_of_lt reaches.left_le fueled)).bind ?_
  intro target placed _ _
  refine expect_agrees.bind ?_
  intro _ closed _ _
  exact agrees_pure trivial

theorem writeValue_agrees (fueled : input.left walker < fuel)
    (position : Position) :
    input.Simulates walker (Walk.writeValue fuel position)
      (Attempt.writeValue position) := by
  refine expect_agrees.bind ?_
  intro _ opened reaches _
  refine (expr_agrees (Nat.lt_of_le_of_lt reaches.left_le fueled)).bind ?_
  intro value read _ _
  refine expect_agrees.bind ?_
  intro _ closed _ _
  exact agrees_pure trivial

theorem printText_agrees (position : Position) :
    input.Simulates walker (Walk.printText position)
      (Attempt.printText position) := by
  refine expect_agrees.bind ?_
  intro _ opened _ _
  refine next?_agrees.bind ?_
  rintro _ _ - ⟨rfl, rfl⟩
  cases head : input.head? opened with
  | none => exact refuse_agrees
  | some kind =>
      cases kind with
      | string text =>
          refine advance_simulates.bind ?_
          intro _ passed _ _
          refine expect_agrees.bind ?_
          intro _ closed _ _
          exact agrees_pure trivial
      | _ => exact refuse_agrees

/-- What is read after a token has taken a token. -/
theorem agrees_begin {kind : Token.Kind} {nextWalk : Unit → Walk Stmt}
    {next : Unit → Attempt Stmt} (head : input.head? walker = some kind)
    (further : ∀ begun, walker.index < begun.index →
      input.left begun < input.left walker →
      input.Simulates begun (nextWalk ()) (next ())) :
    input.Agrees walker (Walk.advance >>= nextWalk)
      (liftM Reader.advance >>= next)
      fun _ rest => walker.index < rest.index := by
  refine (advance_agrees head).lift.bind ?_
  intro _ begun reaches onward
  refine (further begun onward (reaches.contains.left_lt onward)).mono ?_
  intro _ rest restReaches _
  exact restReaches.after onward

theorem statementWithin_agrees (covered : input.left walker ≤ limit)
    (fueled : input.left walker < fuel) :
    input.Agrees walker (Walk.statement fuel) (Attempt.statementWithin limit)
      fun _ rest => walker.index < rest.index := by
  induction fuel generalizing limit walker with
  | zero => exact absurd fueled (Nat.not_lt_zero _)
  | succ fuel ih =>
      refine agrees_of_limit Attempt.statementWithin covered ?_ ?_
      · rintro ⟨⟨_, stop, nextId⟩, errors, recovering⟩ rfl
        rfl
      intro smaller enough
      -- A statement after a token fits into what is left of the bound and of
      -- the fuel.
      have inside (rest : Walker) (onward : walker.index < rest.index) :
          input.Agrees rest (Walk.statement fuel)
            (Attempt.statementWithin smaller)
            fun _ last => rest.index < last.index := by
        intro contains
        have shorter := contains.left_lt onward
        exact ih (by omega) (by omega) contains
      rw [Walk.statement, Attempt.statementWithin]
      refine position_agrees.lift.bind ?_
      rintro position _ - rfl
      refine next?_agrees.lift.bind ?_
      rintro _ _ - ⟨rfl, rfl⟩
      cases head : input.head? walker with
      | none => exact refuse_agrees.lift
      | some kind =>
          cases kind with
          | identifier name =>
              exact (callOrAssignment_agrees fueled head position).lift
          | keyword word =>
              cases word with
              | ifWord =>
                  refine agrees_begin head ?_
                  intro begun onward shorter
                  refine (condition_agrees (by omega)).lift.bind ?_
                  intro test tested testedReaches _
                  refine expect_agrees.lift.bind ?_
                  intro _ body bodyReaches _
                  have bodyOnward :=
                    bodyReaches.after (testedReaches.after onward)
                  refine (inside body bodyOnward).bind ?_
                  intro thenBranch taken takenReaches _
                  refine accept_agrees.lift.bind ?_
                  intro found other otherReaches _
                  cases found with
                  | false => exact agrees_pure trivial
                  | true =>
                      refine (inside other
                        (otherReaches.after
                          (takenReaches.after bodyOnward))).bind ?_
                      intro elseBranch _ _ _
                      exact agrees_pure trivial
              | whileWord =>
                  refine agrees_begin head ?_
                  intro begun onward shorter
                  refine (condition_agrees (by omega)).lift.bind ?_
                  intro test tested testedReaches _
                  refine expect_agrees.lift.bind ?_
                  intro _ body bodyReaches _
                  refine (inside body
                    (bodyReaches.after (testedReaches.after onward))).bind ?_
                  intro repeated _ _ _
                  exact agrees_pure trivial
              | beginWord =>
                  refine agrees_begin head ?_
                  intro begun onward shorter
                  refine (statementList_agrees (by omega) (by omega)
                    ?_).lift.bind ?_
                  · intro rest onwards
                    exact inside rest (Nat.lt_of_lt_of_le onward onwards)
                  intro statements listed _ _
                  refine expect_agrees.lift.bind ?_
                  intro _ _ _ _
                  exact agrees_pure trivial
              | breakWord =>
                  refine agrees_begin head ?_
                  intro begun _ _
                  exact agrees_pure trivial
              | skipWord =>
                  refine agrees_begin head ?_
                  intro begun _ _
                  exact agrees_pure trivial
              | returnWord =>
                  refine agrees_begin head ?_
                  intro begun _ shorter
                  refine (expr_agrees (by omega)).lift.bind ?_
                  intro value _ _ _
                  exact agrees_pure trivial
              | readWord =>
                  refine agrees_begin head ?_
                  intro begun _ shorter
                  exact (readTarget_agrees (by omega) position).lift
              | writeWord =>
                  refine agrees_begin head ?_
                  intro begun _ shorter
                  exact (writeValue_agrees (by omega) position).lift
              | printWord =>
                  refine agrees_begin head ?_
                  intro begun _ _
                  exact (printText_agrees position).lift
              | _ => exact refuse_agrees.lift
          | _ => exact refuse_agrees.lift

theorem statement_agrees (fueled : input.left walker < fuel) :
    input.Agrees walker (Walk.statement fuel) Attempt.statement
      fun _ rest => walker.index < rest.index :=
  agrees_read_bind (remaining_state walker)
    (statementWithin_agrees (Nat.le_refl _) fueled)

theorem statements_agrees (fueled : input.left walker < fuel) :
    input.Simulates walker (Walk.statementList (Walk.statement fuel) fuel)
      Attempt.statements := by
  refine agrees_read_bind (remaining_state walker) ?_
  refine statementList_agrees (Nat.lt_succ_self _) fueled ?_
  intro rest onwards
  exact statement_agrees (Nat.lt_of_le_of_lt (left_le onwards) fueled)

end Input

end PL0
