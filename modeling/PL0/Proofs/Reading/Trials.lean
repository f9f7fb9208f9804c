import PL0.Proofs.Reading.Alternatives
import PL0.Proofs.Reading.Boundaries
import PL0.Proofs.Reading.Marks
import PL0.Proofs.Walk.Expressions

/-!
# Trials of a parenthesis

At a parenthesis a condition is tried first.  A trial that fails leaves no
trace: nothing on the way reports an error, so it is enough to go back to the
parenthesis and to take back the numbers.  Since the two ways to read a
parenthesis exclude each other, the trial decides nothing that the tokens do
not decide.
-/

namespace PL0

/-- A state with the place and the next number of another one. -/
def Recovery.backTo (state earlier : Recovery) : Recovery :=
  { state with cursor := ⟨earlier.cursor.tokens, state.cursor.stop,
    earlier.cursor.nextId⟩ }

namespace Setting

theorem cursor_before {stop : Position} {cursor : Cursor}
    (stopEq : cursor.stop = stop) :
    (before [] stop).cursor cursor = cursor := by
  subst stopEq
  simp only [Setting.cursor, before, map_displace_renumber, List.append_nil]
  rfl

/-- A reader that follows another one where that one stands does the same. -/
theorem Follows.apply_eq {shown reader : Reader Condition} {cost : Nat}
    {cursor : Cursor}
    (follows : (before [] cursor.stop).Follows
      (Condition.displace (.renumber 0)) shown reader cost
      cursor) : shown cursor = reader cursor := by
  have here : Reads.inSetting (before [] cursor.stop) cursor = cursor :=
    cursor_before rfl
  rw [Follows, here] at follows
  cases ran : reader cursor with
  | ok value rest =>
      rw [ran] at follows
      obtain ⟨shownRan, passes⟩ := follows
      rw [shownRan, Condition.displace_renumber_zero]
      exact congrArg _ (cursor_before passes.stop)
  | error expected rest =>
      rw [ran] at follows
      obtain ⟨shownRan, passes⟩ := follows
      rw [shownRan]
      exact congrArg _ (cursor_before passes.stop)

end Setting

namespace Reader

variable {cursor failed : Cursor} {expected : Expectation} {limit : Nat}

/-- A bound that covers the tokens that are left does not matter. -/
theorem disjunction_eq_condition (covered : cursor.kinds.length ≤ limit) :
    disjunction limit (literal limit) cursor = condition cursor := by
  have fits : (Setting.before [] cursor.stop).Fits cursor := .inr ⟨rfl, rfl⟩
  have follows := Setting.disjunction_mirrors
    (Setting.literal_mirrors (Nat.le_refl cursor.kinds.length) covered)
      (Nat.le_refl _) covered
    cursor fits cursor.span_le_length
  rw [condition, bind_apply_of_ok (remaining_apply cursor)]
  exact follows.apply_eq

theorem either_congr {α : Type} {first other second : Reader α}
    (same : first cursor = other cursor) :
    either first second cursor = either other second cursor := by
  simp only [either, speculate, Bind.bind, EStateM.bind, same]

theorem group_congr {first second : Reader Condition}
    (same : first cursor.advance = second cursor.advance) :
    group first cursor = group second cursor := by
  rw [group, group, bind_apply_of_ok (advance_apply cursor),
    bind_apply_of_ok (advance_apply cursor)]
  simp only [Bind.bind, EStateM.bind, same]

/-- At a parenthesis, a part of a condition is a condition in parentheses or
else a relation. -/
theorem literal_of_openParen
    (opened : cursor.kinds.head? = some (.symbol .openParen))
    (covered : cursor.kinds.length ≤ limit + 1) :
    literal (limit + 1) cursor = groupFirst condition cursor := by
  have inside : disjunction limit (literal limit) cursor.advance =
      condition cursor.advance := by
    refine disjunction_eq_condition ?_
    rw [Cursor.kinds_advance, List.length_tail]
    omega
  rw [literal_eq, literalWith, bind_apply_of_ok (position_apply cursor),
    bind_apply_of_ok (accept_of_ne (by rw [opened]; simp)), if_neg (by simp),
    bind_apply_of_ok (next?_apply cursor), if_pos opened, ← literal_eq,
    groupFirst_eq,
    groupFirst_eq]
  exact either_congr (group_congr inside)

/-- A condition in parentheses that cannot be read was looked for from here
on. -/
theorem passes_of_group_fails
    (opened : cursor.kinds.head? = some (.symbol .openParen))
    (ran : group condition cursor = .error expected failed) :
    cursor.Passes 0 failed := by
  have fits : Setting.nowhere.Fits cursor := Setting.nowhere_fits cursor
  have advances : (group condition).Advances 1 cursor :=
    (Setting.group_follows (fun _ insideFits _ =>
      Setting.condition_follows insideFits) fits
      (Nat.le_succ _) opened).advances
  rwa [Advances, ran] at advances

/-- A trial that fails changes nothing but the place and the next number. -/
theorem restores_of_group_fails {state after : Recovery}
    (opened : state.cursor.kinds.head? = some (.symbol .openParen))
    (ran : (liftM (group condition) : Attempt Condition) state =
      .error expected after) :
    (liftM (speculate (group condition)) : Attempt (Option Condition)) state =
      .ok none state ∧ after.cursor.tokens <:+ state.cursor.tokens ∧
      after.backTo state = state := by
  cases readerRan : group condition state.cursor with
  | ok value cursor =>
      rw [Attempt.lift_apply_of_ok readerRan] at ran
      cases ran
  | error expected cursor =>
      rw [Attempt.lift_apply_of_error readerRan] at ran
      cases ran
      have passes := passes_of_group_fails opened readerRan
      have tried : speculate (group condition) state.cursor =
          .ok none state.cursor :=
        speculate_of_fails ⟨_, _, readerRan⟩
      obtain ⟨passed, tokensEq, _⟩ := passes.tokens
      refine ⟨Attempt.lift_apply_of_ok tried, ⟨passed, tokensEq.symm⟩, ?_⟩
      simp only [Recovery.backTo, passes.stop]

end Reader

/-- A walk that does what a plain reader does reports nothing, so where it is
tried in vain it is back where it was. -/
theorem Input.Agrees.eq_of_speculate {α : Type} {input : Input}
    {walker rest : Walker} {walk : Walk α} {reader : Reader α}
    {demand : α → Walker → Prop}
    (agrees : input.Agrees walker walk reader demand)
    (contains : input.Contains walker)
    (tried : Walk.speculate walk walker = .ok none rest) : rest = walker := by
  have same := agrees.speculate contains
  rw [tried] at same
  obtain ⟨read, reaches, _⟩ := same
  have stateEq : input.state walker = input.state rest := by
    rw [Attempt.lift_apply, Reader.speculate] at read
    cases readerRan : reader (input.state walker).cursor with
    | ok value cursor => simp [readerRan] at read
    | error expected cursor => simpa [readerRan] using read
  have indexEq : walker.index = rest.index := by
    cases ran : walk walker with
    | ok value last => simp [Walk.speculate, ran] at tried
    | error halt last =>
        cases halt with
        | stuck => simp [Walk.speculate, ran] at tried
        | refused error =>
            simp only [Walk.speculate, ran, EStateM.Result.ok.injEq,
              true_and] at tried
            rw [← tried]
  have tokensEq : walker.tokens = rest.tokens :=
    contains.tokens.trans reaches.contains.tokens.symm
  have nextIdEq : walker.nextId = rest.nextId :=
    congrArg (fun state : Recovery => state.cursor.nextId) stateEq
  have errorsEq : walker.errors = rest.errors :=
    congrArg Recovery.errors stateEq
  have recoveringEq : walker.recovering = rest.recovering :=
    congrArg Recovery.recovering stateEq
  cases walker
  cases rest
  simp_all

namespace Reader

/-- A parenthesis can be read in one way only, and trying it leaves no trace.

Where a condition in parentheses can be read, no relation can.  So the order
of the two does not matter, whether it is changed at one parenthesis or at all
of them.  Not looking at the operator behind a parenthesis would not let any
other condition be read before a token that is no operator, and every
condition of the grammar is read.

A trial that fails only moves the cursor and uses up numbers.  So does a walk
by index, which puts just these two back. -/
theorem parenthesis_unambiguous :
    (∀ cursor : Cursor, cursor.next? = some (.symbol .openParen) →
      (∀ limit, cursor.tokens.length ≤ limit + 1 →
        literal (limit + 1) cursor = groupFirst condition cursor) ∧
      (∀ inner rest, group condition cursor = .ok inner rest →
        Fails relation cursor) ∧
      ∀ value rest, relationFirst condition cursor = .ok value rest ↔
        groupFirst condition cursor = .ok value rest) ∧
    SameReadings condition (conditionWith relationFirst) ∧
    Narrows isOperator condition (conditionWith enclosedFirst) ∧
    (∀ kind expected, isOperator kind = false →
      SameReadings (followedBy condition kind expected)
        (followedBy (conditionWith enclosedFirst) kind expected)) ∧
    (∀ bound, Complete condition Condition.erase Grammar.Disjunction bound
      continuesDisjunction) ∧
    (∀ (state failed : Recovery) (expected : Expectation),
      state.cursor.next? = some (.symbol .openParen) →
      (liftM (group condition) : Attempt Condition) state =
        .error expected failed →
        (liftM (speculate (group condition)) : Attempt (Option Condition))
          state = .ok none state ∧
        failed.cursor.tokens <:+ state.cursor.tokens ∧
          failed.backTo state = state) ∧
    ∀ (input : Input) (walker : Walker) (fuel : Nat), input.Contains walker →
      input.head? walker = some (.symbol .openParen) →
        input.left walker < fuel →
        input.Simulates walker
          (Walk.speculate (Walk.group (Walk.condition fuel)))
          (speculate (group condition)) ∧
        ∀ rest, Walk.speculate (Walk.group (Walk.condition fuel)) walker =
          .ok none rest → rest = walker := by
  have exclusive (cursor : Cursor)
      (opened : cursor.kinds.head? = some (.symbol .openParen))
      (inner : Condition) (rest : Cursor)
        (read : group condition cursor = .ok inner rest) :
      Fails relation cursor := by
    have bounded : group (disjunction cursor.advance.kinds.length
        (literal cursor.advance.kinds.length)) cursor = .ok inner rest := by
      rw [← read]
      exact group_congr (disjunction_eq_condition (Nat.le_refl _))
    exact relation_fails_of_enclosed opened (group_eq_ok_iff.mp bounded).1
  refine ⟨?_, condition_sameReadings, condition_narrows_enclosedFirst, ?_,
    condition_complete, ?_, ?_⟩
  · intro cursor opened
    rw [Cursor.next?_eq] at opened
    refine ⟨?_, exclusive cursor opened, ?_⟩
    · intro limit covered
      exact literal_of_openParen opened (by rwa [Cursor.length_kinds])
    · intro value rest
      rw [relationFirst, groupFirst_eq]
      exact (either_swap (exclusive cursor opened)).symm
  · intro kind expected allowed
    exact condition_narrows_enclosedFirst.followedBy allowed expected
  · intro state failed expected opened ran
    rw [Cursor.next?_eq] at opened
    exact restores_of_group_fails opened ran
  · intro input walker fuel contains opened fueled
    have agrees :
        input.Simulates walker (Walk.group (Walk.condition fuel))
          (group condition) := by
      refine Input.group_agrees opened fun rest onward => ?_
      have fewer : input.left rest ≤ input.left walker :=
        Input.left_le (Nat.le_of_lt onward)
      exact Input.condition_agrees (Nat.lt_of_le_of_lt fewer fueled)
    exact ⟨agrees.speculate,
      fun rest tried => agrees.eq_of_speculate contains tried⟩

/-- The tokens of `((a) < b) then`. -/
def nestedGroup : List Token :=
  [⟨.symbol .openParen, ⟨1, 1⟩⟩, ⟨.symbol .openParen, ⟨1, 2⟩⟩,
    ⟨.identifier "a", ⟨1, 3⟩⟩, ⟨.symbol .closeParen, ⟨1, 4⟩⟩,
    ⟨.symbol .less, ⟨1, 6⟩⟩, ⟨.identifier "b", ⟨1, 8⟩⟩,
    ⟨.symbol .closeParen, ⟨1, 9⟩⟩, ⟨.keyword .thenWord, ⟨1, 11⟩⟩]

/-- The tokens of `(a + 1) * 2 < b do`. -/
def groupedOperand : List Token :=
  [⟨.symbol .openParen, ⟨1, 1⟩⟩, ⟨.identifier "a", ⟨1, 2⟩⟩,
    ⟨.symbol .plus, ⟨1, 4⟩⟩, ⟨.integer 1, ⟨1, 6⟩⟩,
    ⟨.symbol .closeParen, ⟨1, 7⟩⟩, ⟨.symbol .times, ⟨1, 9⟩⟩,
    ⟨.integer 2, ⟨1, 11⟩⟩, ⟨.symbol .less, ⟨1, 13⟩⟩, ⟨.identifier "b", ⟨1, 15⟩⟩,
    ⟨.keyword .doWord, ⟨1, 17⟩⟩]

theorem groupedOperand_unended :
    ∀ token ∈ groupedOperand, token.kind ≠ .endOfInput := by
  simp [groupedOperand]

/-- A walk that stands before these tokens, after an error from which it has
not recovered. -/
def groupedOperandWalker : Walker where
  tokens := groupedOperand ++ [⟨.endOfInput, ⟨2, 1⟩⟩]
  index := 0
  nextId := 5
  errors := [⟨some (.symbol .semicolon), .expression, ⟨0, 1⟩⟩]
  recovering := true

theorem parenthesis_unambiguous_nestedGroup :
    (∃ inner rest, group condition ⟨nestedGroup, ⟨2, 1⟩, 5⟩ = .ok inner rest ∧
      literal 8 ⟨nestedGroup, ⟨2, 1⟩, 5⟩ = .ok inner rest ∧
      Fails relation ⟨nestedGroup, ⟨2, 1⟩, 5⟩) ∧
    (∃ test rest, followedBy (conditionWith enclosedFirst) (.keyword .thenWord)
        .thenAfterCondition ⟨nestedGroup, ⟨2, 1⟩, 5⟩ = .ok test rest ∧
      followedBy condition (.keyword .thenWord) .thenAfterCondition
        ⟨nestedGroup, ⟨2, 1⟩, 5⟩ = .ok test rest) ∧
    (Gives condition ⟨nestedGroup.tail, ⟨2, 1⟩, 5⟩ fun value rest =>
      value.erase = .rel default .lt (.valueOf default (.var default "a"))
        (.valueOf default (.var default "b")) ∧
      rest.kinds = [.symbol .closeParen, .keyword .thenWord]) ∧
    (∃ expected failed,
      (liftM (group condition) : Attempt Condition)
        ⟨⟨groupedOperand, ⟨2, 1⟩, 5⟩, groupedOperandWalker.errors, true⟩ =
        .error expected failed ∧
      failed.cursor.nextId = 9 ∧ failed.cursor.tokens = groupedOperand.drop 4 ∧
      failed.backTo
        ⟨⟨groupedOperand, ⟨2, 1⟩, 5⟩, groupedOperandWalker.errors, true⟩ =
        ⟨⟨groupedOperand, ⟨2, 1⟩, 5⟩, groupedOperandWalker.errors, true⟩) ∧
    Walk.speculate (Walk.group (Walk.condition 11)) groupedOperandWalker =
      .ok none groupedOperandWalker := by
  obtain ⟨atParenthesis, -, -, sameFollowed, complete, trialFails, walks⟩ :=
    parenthesis_unambiguous
  refine ⟨?_, ?_, ?_, ?_, ?_⟩
  · obtain ⟨read, exclusive, _⟩ := atParenthesis ⟨nestedGroup, ⟨2, 1⟩, 5⟩ rfl
    refine ⟨_, _, rfl, ?_, exclusive _ _ rfl⟩
    rw [read 7 (by decide)]
    rfl
  · refine ⟨_, _, rfl, ?_⟩
    exact
      (sameFollowed (.keyword .thenWord) .thenAfterCondition rfl _ _ _).mpr rfl
  · have inParentheses : Grammar.Expression
        [.symbol .openParen, .identifier "a", .symbol .closeParen]
        (.valueOf default (.var default "a")) :=
      .single (.single (.paren (.single (.single (.location (.var "a"))))))
    have compared : Grammar.Disjunction
        [.symbol .openParen, .identifier "a", .symbol .closeParen,
          .symbol .less, .identifier "b"]
        (.rel default .lt (.valueOf default (.var default "a"))
          (.valueOf default (.var default "b"))) :=
      .single (.single (.rel .lt inParentheses List.mem_cons_self
        (.single (.single (.location (.var "b"))))))
    exact complete 5 _ _ _ ⟨nestedGroup.tail,
      ⟨2, 1⟩, 5⟩ compared (by decide) (.cons rfl) rfl
  · refine ⟨_, _, rfl, rfl, rfl, ?_⟩
    obtain ⟨-, -, restored⟩ := trialFails
      ⟨⟨groupedOperand, ⟨2, 1⟩, 5⟩, groupedOperandWalker.errors,
        true⟩ _ _ rfl rfl
    exact restored
  · obtain ⟨rest, tried⟩ : ∃ rest,
        Walk.speculate (Walk.group (Walk.condition 11)) groupedOperandWalker =
          .ok none rest :=
      ⟨_, rfl⟩
    obtain ⟨-, restored⟩ := walks ⟨groupedOperand, groupedOperand_unended,
      ⟨2, 1⟩, []⟩ groupedOperandWalker 11 ⟨rfl, by decide⟩ rfl (by decide)
    rw [tried, restored rest tried]

end Reader

end PL0
