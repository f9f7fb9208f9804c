import Mathlib.Data.List.Perm.Subperm
import PL0.Proofs.Reading.Numbering
import PL0.Proofs.Reading.Positions

/-!
# No number is given twice

The readers that recover from errors number nodes like the plain ones.  What a
failed attempt has numbered is left out of the tree, and its numbers are not
given again.  Such a gap comes with an error, since every attempt that fails
is reported.
-/

namespace PL0

section Lifting

variable {α : Type} {occurs : α → List Occurrence}

theorem Onward.withCursor {state : Recovery} {cursor : Cursor}
    (onward : Onward state.cursor cursor) :
    Onward state { state with cursor } :=
  ⟨onward.nextId_le, id, id⟩

theorem Numbers.lift {plain : Reader α} (numbers : Numbers [] plain occurs) :
    Numbers [] (liftM plain : Attempt α) occurs := by
  intro low state numbered
  have read := numbers state.cursor.nextId state.cursor (counted_nil trivial)
  cases ran : plain state.cursor with
  | ok value cursor =>
      rw [ran] at read
      rw [Attempt.lift_apply_of_ok ran]
      have fresh :
          Counted state.cursor.nextId (occurs value) { state with cursor } :=
        ⟨numbered.sane, read.2.low_le, read.2.ascending,
          fun _ => read.2.full trivial⟩
      exact ⟨read.1.withCursor, numbered.append read.1.withCursor fresh⟩
  | error expected cursor =>
      rw [ran] at read
      rw [Attempt.lift_apply_of_error ran]
      exact read.withCursor

theorem Keeps.lift {plain : Reader α} (keeps : Keeps plain) :
    Keeps (liftM plain : Attempt α) := by
  intro state
  have read := keeps state.cursor
  cases ran : plain state.cursor with
  | ok value cursor =>
      rw [ran] at read
      rw [Attempt.lift_apply_of_ok ran]
      exact ⟨read.1.withCursor, read.2⟩
  | error expected cursor =>
      rw [ran] at read
      rw [Attempt.lift_apply_of_error ran]
      exact ⟨read.1.withCursor, read.2⟩

end Lifting

namespace Recoverer

variable {α β : Type} {held : List Occurrence} {reader : Recoverer α}
  {next : α → Recoverer β}
  {occurs between : α → List Occurrence} {occursNext : β → List Occurrence}

/-- As an attempt that never fails, the reader numbers its results. -/
def Numbers (held : List Occurrence) (reader : Recoverer α)
    (occurs : α → List Occurrence) : Prop :=
  PL0.Numbers held (liftM reader : Attempt α) occurs

/-- As an attempt that never fails, the reader numbers nothing. -/
def Keeps (reader : Recoverer α) : Prop :=
  PL0.Keeps (liftM reader : Attempt α)

theorem numbers_pure {value : α} (all : occurs value = held) :
    Numbers held (pure value) occurs :=
  PL0.numbers_pure all

theorem Numbers.bind (numbers : Numbers held reader between)
    (further : ∀ value, Numbers (between value) (next value) occursNext) :
    Numbers held (reader >>= next) occursNext :=
  PL0.Numbers.bind numbers further

theorem Numbers.after (numbers : Numbers [] reader occurs)
    (held : List Occurrence) :
    Numbers held reader fun value => held ++ occurs value :=
  PL0.Numbers.after numbers held

theorem Keeps.bindNumbers (keeps : Keeps reader)
    (further : ∀ value, Numbers held (next value) occursNext) :
    Numbers held (reader >>= next) occursNext :=
  PL0.Keeps.bindNumbers keeps further

theorem keeps_pure (value : α) : Keeps (pure value) :=
  PL0.keeps_pure value

theorem Keeps.bind (keeps : Keeps reader)
    (further : ∀ value, Keeps (next value)) : Keeps (reader >>= next) :=
  PL0.Keeps.bind keeps further

theorem next?_keeps : Keeps next? :=
  fun state => ⟨.refl state, rfl⟩

theorem remaining_keeps : Keeps remaining :=
  fun state => ⟨.refl state, rfl⟩

theorem advance_keeps : Keeps advance :=
  fun _ => ⟨⟨Nat.le_refl _, id, id⟩, rfl⟩

theorem recovered_keeps : Keeps recovered :=
  fun _ => ⟨⟨Nat.le_refl _, id, fun _ => by rintro ⟨⟩⟩, rfl⟩

theorem onward_report (state : Recovery) (expected : Expectation) :
    Onward state (state.report expected) where
  nextId_le :=
    Nat.le_of_eq (congrArg Cursor.nextId (state.report_cursor expected).symm)
  clean := by
    intro noErrors
    obtain ⟨reported, errorsEq, _⟩ :=
      (Recovery.Passes.report state expected).errors
    rw [show (state.report expected).errors = [] from noErrors] at errorsEq
    exact (List.append_eq_nil_iff.mp errorsEq.symm).1
  sane := fun sane _ => sane.report_errors_ne_nil expected

theorem report_keeps (expected : Expectation) : Keeps (report expected) := by
  intro state
  exact ⟨onward_report state expected,
    congrArg Cursor.nextId (state.report_cursor expected)⟩

theorem accept_keeps (kind : Token.Kind) : Keeps (accept kind) := by
  apply next?_keeps.bind
  intro head?
  split
  · exact advance_keeps.bind fun _ => keeps_pure true
  · exact keeps_pure false

/-- An attempt that fails has numbered nothing that is kept.  It may have
given numbers in vain, and so the error has to be reported before anything
else is said. -/
theorem numbers_attempt_bind {reader : Attempt α}
    {next : Except Expectation α → Recoverer β}
    (numbers : PL0.Numbers [] reader occurs)
    (ifOk : ∀ value, Numbers (occurs value) (next (.ok value)) occursNext)
    (ifError : ∀ expected, ∃ further : Unit → Recoverer β,
      next (.error expected) = report expected >>= further ∧
        Numbers [] (further ()) occursNext) :
    Numbers [] (attempt reader >>= next) occursNext := by
  intro low state numbered
  have read := numbers low state numbered
  cases ran : reader state with
  | ok value rest =>
      have attempted : attempt reader state = (.ok value, rest) := by
        simp [attempt, ran]
      rw [ran] at read
      have continued := ifOk value low rest read.2
      change Onward state ((attempt reader >>= next) state).2 ∧
        Counted low (occursNext ((attempt reader >>= next) state).1)
          ((attempt reader >>= next) state).2
      rw [bind_apply_of_eq attempted]
      exact ⟨read.1.trans continued.1, continued.2⟩
  | error expected rest =>
      have attempted : attempt reader state = (.error expected, rest) := by
        simp [attempt, ran]
      rw [ran] at read
      obtain ⟨further, nextEq, numbersFurther⟩ := ifError expected
      have onward : Onward state (rest.report expected) :=
        read.trans (onward_report rest expected)
      have reported : Counted low [] (rest.report expected) :=
        { sane := onward.sane numbered.sane
          low_le := Nat.le_trans numbered.low_le onward.nextId_le
          ascending := .nil
          full := fun noErrors =>
            absurd noErrors
              ((read.sane numbered.sane).report_errors_ne_nil expected) }
      have continued := numbersFurther low (rest.report expected) reported
      change Onward state ((attempt reader >>= next) state).2 ∧
        Counted low (occursNext ((attempt reader >>= next) state).1)
          ((attempt reader >>= next) state).2
      rw [bind_apply_of_eq attempted, nextEq]
      exact ⟨onward.trans continued.1, continued.2⟩

end Recoverer

namespace Attempt

theorem atListEnd_keeps : Recoverer.Keeps atListEnd := by
  intro state
  change Onward state (atListEnd state).2 ∧
    (atListEnd state).2.cursor.nextId = _
  rw [atListEnd_apply]
  exact ⟨.refl state, rfl⟩

theorem listItem_numbers {statement : Attempt Stmt}
    (numbers : Numbers [] statement Stmt.occurrences) :
    Recoverer.Numbers [] (listItem statement) fun first? =>
      first?.elim [] Stmt.occurrences := by
  apply Recoverer.numbers_attempt_bind numbers
  · intro value
    exact Recoverer.recovered_keeps.bindNumbers fun _ =>
      Recoverer.numbers_pure rfl
  · intro expected
    refine ⟨_, rfl, ?_⟩
    apply atListEnd_keeps.bindNumbers
    intro ends
    cases ends with
    | true => exact Recoverer.numbers_pure rfl
    | false =>
        exact Recoverer.advance_keeps.bindNumbers fun _ =>
          Recoverer.numbers_pure rfl

theorem separator_keeps : Recoverer.Keeps separator := by
  apply (Recoverer.accept_keeps _).bind
  intro found
  cases found with
  | true =>
      apply Recoverer.recovered_keeps.bind
      intro _
      exact atListEnd_keeps.bind fun _ => Recoverer.keeps_pure _
  | false =>
      apply atListEnd_keeps.bind
      intro ends
      cases ends with
      | true => exact Recoverer.keeps_pure false
      | false => exact (Recoverer.report_keeps _).bind fun _ =>
          Recoverer.keeps_pure true

theorem statementList_numbers {statement : Attempt Stmt}
    (numbers : Numbers [] statement Stmt.occurrences) (limit : Nat) :
    Recoverer.Numbers [] (statementList statement limit)
      (List.flatMap Stmt.occurrences) := by
  induction limit with
  | zero => exact Recoverer.numbers_pure rfl
  | succ limit ih =>
      apply (listItem_numbers numbers).bind
      intro first?
      apply separator_keeps.bindNumbers
      intro goesOn
      cases goesOn with
      | false => exact Recoverer.numbers_pure (by cases first? <;> simp)
      | true =>
          exact (ih.after _).bind fun others =>
            Recoverer.numbers_pure (by cases first? <;> simp)

theorem callOrAssignment_numbers (position : Position) (name : String) :
    Numbers [] (callOrAssignment position name) Stmt.occurrences := by
  apply Reader.second?_keeps.bindNumbers
  intro second?
  split
  · apply Reader.advance_keeps.bindNumbers
    intro _
    apply Reader.advance_keeps.bindNumbers
    intro _
    exact Reader.arguments_numbers.bind fun args =>
      numbers_pure (by rw [Stmt.occurrences, Expr.allOccurrences_eq])
  · apply Reader.place_numbers.bind
    intro target
    apply (Reader.expect_keeps _ _).bindNumbers
    intro _
    exact (Reader.expr_numbers.after target.occurrences).bind fun value =>
      numbers_pure (by rw [Stmt.occurrences])

theorem printText_numbers (position : Position) :
    Numbers [] (printText position) Stmt.occurrences := by
  apply (Reader.expect_keeps _ _).bindNumbers
  intro _
  apply Reader.next?_keeps.bindNumbers
  intro head?
  split
  · apply Reader.advance_keeps.bindNumbers
    intro _
    exact (Reader.expect_keeps _ _).bindNumbers fun _ =>
      numbers_pure (by rw [Stmt.occurrences])
  · exact numbers_throw

theorem readTarget_numbers (position : Position) :
    Numbers [] (readTarget position) Stmt.occurrences := by
  apply (Reader.expect_keeps _ _).bindNumbers
  intro _
  apply Reader.place_numbers.bind
  intro target
  exact (Reader.expect_keeps _ _).bindNumbers fun _ =>
    numbers_pure (by rw [Stmt.occurrences])

theorem writeValue_numbers (position : Position) :
    Numbers [] (writeValue position) Stmt.occurrences := by
  apply (Reader.expect_keeps _ _).bindNumbers
  intro _
  apply Reader.expr_numbers.bind
  intro value
  exact (Reader.expect_keeps _ _).bindNumbers fun _ =>
    numbers_pure (by rw [Stmt.occurrences])

theorem statementWithin_numbers (limit : Nat) :
    Numbers [] (statementWithin limit) Stmt.occurrences := by
  induction limit with
  | zero => exact numbers_throw
  | succ limit ih =>
      apply Reader.position_keeps.lift.bindNumbers
      intro position
      apply Reader.next?_keeps.lift.bindNumbers
      intro head?
      split
      · apply Reader.advance_keeps.lift.bindNumbers
        intro _
        apply Reader.condition_numbers.lift.bind
        intro test
        apply (Reader.expect_keeps _ _).lift.bindNumbers
        intro _
        apply (ih.after test.occurrences).bind
        intro thenBranch
        apply (Reader.accept_keeps _).lift.bindNumbers
        intro found
        cases found with
        | true => exact (ih.after _).bind fun elseBranch =>
            numbers_pure (by rw [Stmt.occurrences])
        | false => exact numbers_pure (by rw [Stmt.occurrences])
      · apply Reader.advance_keeps.lift.bindNumbers
        intro _
        apply Reader.condition_numbers.lift.bind
        intro test
        apply (Reader.expect_keeps _ _).lift.bindNumbers
        intro _
        exact (ih.after test.occurrences).bind fun body =>
          numbers_pure (by rw [Stmt.occurrences])
      · apply Reader.advance_keeps.lift.bindNumbers
        intro _
        apply Numbers.bind (statementList_numbers ih (limit + 1))
        intro statements
        exact (Reader.expect_keeps _ _).lift.bindNumbers fun _ =>
          numbers_pure (by rw [Stmt.occurrences, Stmt.allOccurrences_eq])
      · exact Reader.advance_keeps.lift.bindNumbers fun _ =>
          numbers_pure (by rw [Stmt.occurrences])
      · exact Reader.advance_keeps.lift.bindNumbers fun _ =>
          numbers_pure (by rw [Stmt.occurrences])
      · apply Reader.advance_keeps.lift.bindNumbers
        intro _
        exact Reader.expr_numbers.lift.bind fun value =>
          numbers_pure (by rw [Stmt.occurrences])
      · exact Reader.advance_keeps.lift.bindNumbers fun _ =>
          (readTarget_numbers _).lift
      · exact Reader.advance_keeps.lift.bindNumbers fun _ =>
          (writeValue_numbers _).lift
      · exact Reader.advance_keeps.lift.bindNumbers fun _ =>
          (printText_numbers _).lift
      · exact (callOrAssignment_numbers _ _).lift
      · exact numbers_throw

theorem statement_numbers : Numbers [] statement Stmt.occurrences :=
  Reader.remaining_keeps.lift.bindNumbers statementWithin_numbers

theorem statements_numbers :
    Recoverer.Numbers [] statements (List.flatMap Stmt.occurrences) :=
  Recoverer.remaining_keeps.bindNumbers fun _ =>
    statementList_numbers statement_numbers _

theorem function_numbers : Numbers [] function Function.occurrences := by
  apply (Reader.expect_keeps _ _).lift.bindNumbers
  intro _
  apply (Reader.identifier_keeps _).lift.bindNumbers
  rintro ⟨name, position⟩
  apply (Reader.expect_keeps _ _).lift.bindNumbers
  intro _
  apply Reader.parameters_numbers.lift.bind
  intro params
  apply (Reader.expect_keeps _ _).lift.bindNumbers
  intro _
  apply (Reader.locals_numbers.lift.after _).bind
  intro locals
  apply (Reader.expect_keeps _ _).lift.bindNumbers
  intro _
  apply Numbers.bind (statements_numbers.after _)
  intro body
  exact (Reader.expect_keeps _ _).lift.bindNumbers fun _ =>
    numbers_pure (by simp [Function.occurrences, Function.declarations,
      Stmt.allOccurrences_eq])

end Attempt

namespace Recoverer

theorem functionsWithin_numbers (limit : Nat) :
    Numbers [] (functionsWithin limit) (List.flatMap Function.occurrences) := by
  induction limit with
  | zero => exact numbers_pure rfl
  | succ limit ih =>
      apply next?_keeps.bindNumbers
      intro head?
      split
      · exact numbers_pure rfl
      · apply recovered_keeps.bindNumbers
        intro _
        apply numbers_attempt_bind Attempt.function_numbers
        · intro definition
          exact (ih.after _).bind fun others => numbers_pure (by simp)
        · intro expected
          refine ⟨_, rfl, ?_⟩
          apply next?_keeps.bindNumbers
          intro second?
          split
          · exact ih
          · exact advance_keeps.bindNumbers fun _ => ih
      · apply (report_keeps _).bindNumbers
        intro _
        exact advance_keeps.bindNumbers fun _ => ih

theorem ending_numbers (program : Program) :
    Numbers program.occurrences (ending program) Program.occurrences := by
  have accepted :
      Keeps (discard (accept (.symbol .semicolon)) : Recoverer Unit) :=
    (accept_keeps (.symbol .semicolon)).bind fun _ => keeps_pure ()
  apply accepted.bindNumbers
  intro _
  apply next?_keeps.bindNumbers
  intro head?
  split
  · apply (report_keeps _).bindNumbers
    intro _
    have dropped : Keeps (modify fun state =>
        { state with cursor := { state.cursor with tokens := [] } } :
          Recoverer Unit) :=
      fun _ => ⟨⟨Nat.le_refl _, id, id⟩, rfl⟩
    exact dropped.bindNumbers fun _ => numbers_pure rfl
  · exact numbers_pure rfl

theorem statementProgram_numbers :
    Numbers [] statementProgram Program.occurrences := by
  rw [statementProgram_eq]
  apply numbers_attempt_bind Attempt.statement_numbers
  · intro statement
    have alone : (Program.statement statement).occurrences =
        statement.occurrences := by
      simp [Program.occurrences, Program.definitions, Function.occurrences,
        Function.declarations, Stmt.allOccurrences]
    have ended := ending_numbers (.statement statement)
    rw [alone] at ended
    exact ended
  · intro expected
    exact ⟨_, rfl,
      advance_keeps.bindNumbers fun _ => ending_numbers (.functions [])⟩

theorem program_numbers : Numbers [] program Program.occurrences := by
  apply next?_keeps.bindNumbers
  intro head?
  split
  · exact (report_keeps _).bindNumbers fun _ => numbers_pure rfl
  · apply remaining_keeps.bindNumbers
    intro limit
    exact (functionsWithin_numbers limit).bind fun all => numbers_pure rfl
  · exact statementProgram_numbers

end Recoverer

theorem readProgram_numbered (tokens : List Token) :
    ∃ state : Recovery, state.errors = (readProgram tokens).errors ∧
      Counted 0 (readProgram tokens).program.occurrences state := by
  have start : Counted 0 [] (Recovery.mk (Cursor.ofTokens tokens) [] false) :=
    ⟨by rintro ⟨⟩, Nat.zero_le _, .nil, fun _ => rfl⟩
  exact ⟨_, rfl, (Recoverer.program_numbers 0 _ start).2⟩

/-- No two nodes of a tree have the same number, whether its text was free of
errors or not. -/
theorem readProgram_ids_nodup (tokens : List Token) :
    (readProgram tokens).program.ids.Nodup := by
  obtain ⟨state, _, numbered⟩ := readProgram_numbered tokens
  exact numbered.ascending.pairwise.imp Nat.ne_of_lt

/-- Ascending numbers that are as many as fit are all the numbers there are. -/
theorem Ascending.ids_eq_range {occurrences : List Occurrence}
    (ascending : Ascending 0 occurrences occurrences.length) :
    Occurrence.ids occurrences = List.range occurrences.length := by
  have subset : Occurrence.ids occurrences ⊆ List.range occurrences.length := by
    intro id member
    exact List.mem_range.mpr (ascending.within id member).2
  have perm :
      (Occurrence.ids occurrences).Perm (List.range occurrences.length) :=
    (List.subperm_of_subset (ascending.pairwise.imp Nat.ne_of_lt)
      subset).perm_of_length_le (by simp [Occurrence.ids])
  exact perm.eq_of_pairwise (fun _ _ _ _ less greater =>
    absurd less (Nat.lt_asymm greater))
    ascending.pairwise List.pairwise_lt_range

theorem readProgram_ids_eq_range {tokens : List Token}
    (noErrors : (readProgram tokens).errors = []) :
    (readProgram tokens).program.ids =
      List.range (readProgram tokens).program.occurrences.length := by
  obtain ⟨state, errorsEq, numbered⟩ := readProgram_numbered tokens
  have full := numbered.full (errorsEq.trans noErrors)
  have ascending := numbered.ascending
  rw [← full, Nat.zero_add] at ascending
  exact ascending.ids_eq_range

/-- The numbers of a tree ascend from the leaves up and from left to right.
If no error was found, they are the first numbers without a gap. -/
theorem readProgram_ids_sequential (tokens : List Token) :
    (readProgram tokens).program.ids.Pairwise (· < ·) ∧
      ((readProgram tokens).errors = [] →
        (readProgram tokens).program.ids =
          List.range (readProgram tokens).program.occurrences.length) := by
  obtain ⟨state, _, numbered⟩ := readProgram_numbered tokens
  exact ⟨numbered.ascending.pairwise, readProgram_ids_eq_range⟩

/-- The tokens of `if (x + 1) < 2 then skip`.  The parenthesis is first tried
as a condition, and what is numbered in the trial is numbered again. -/
def retriedGroup : List Token :=
  [⟨.keyword .ifWord, ⟨1, 1⟩⟩, ⟨.symbol .openParen, ⟨1, 4⟩⟩,
    ⟨.identifier "x", ⟨1, 5⟩⟩, ⟨.symbol .plus, ⟨1, 7⟩⟩, ⟨.integer 1, ⟨1, 9⟩⟩,
    ⟨.symbol .closeParen, ⟨1, 10⟩⟩,
    ⟨.symbol .less, ⟨1, 12⟩⟩, ⟨.integer 2, ⟨1, 14⟩⟩,
    ⟨.keyword .thenWord, ⟨1, 16⟩⟩,
    ⟨.keyword .skipWord, ⟨1, 21⟩⟩]

theorem readProgram_ids_sequential_retriedGroup :
    (readProgram retriedGroup).errors = [] ∧
      (readProgram retriedGroup).program.ids = List.range 5 := by
  have noErrors : (readProgram retriedGroup).errors = [] := by decide +kernel
  have five : (readProgram retriedGroup).program.occurrences.length = 5 := by
    decide +kernel
  have sequential := (readProgram_ids_sequential retriedGroup).2 noErrors
  rw [five] at sequential
  exact ⟨noErrors, sequential⟩

end PL0
