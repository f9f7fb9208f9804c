import PL0.Grammar.Stmt
import PL0.Proofs.Grammar.Conditions
import PL0.Proofs.Grammar.Recovering

/-!
# Reading statements follows the grammar

A statement that is read without an error is one of the grammar, and if an
`else` could still belong to it then none follows.  A statement of the grammar
is read without an error wherever a statement may end.  Lists of statements
come with both, since a block is a statement: the induction is on the bound,
which goes down with every statement inside another.
-/

namespace PL0.Attempt

open Grammar

/-- A statement to which no `else` can belong. -/
def ClosedStatement : Category Stmt := fun word statement =>
  Statement word statement ∧ ¬ statement.EndsOpen

section Soundness

theorem callOrAssignment_ensures {position : Position} {name : String}
    {cursor : Cursor} (head : cursor.kinds.head? = some (.identifier name)) :
    Ensures (callOrAssignment position name) cursor fun value after =>
      ∃ word, cursor.kinds = word ++ after.kinds ∧
        ClosedStatement word value.erase := by
  refine ensures_bind_of_ok (Reader.second?_apply cursor) ?_
  by_cases isCall : cursor.kinds.tail.head? = some (.symbol .openParen)
  · rw [if_pos isCall]
    refine Reader.ensures_advance_bind head ?_
    intro behind nameEq
    have openNext : behind.kinds.head? = some (.symbol .openParen) := by
      rwa [nameEq, List.tail_cons] at isCall
    refine Reader.ensures_advance_bind openNext ?_
    intro opened openEq
    refine (Reader.arguments_sound opened).bind ?_
    rintro args after ⟨_, wordEq, inner, rfl, listed⟩
    refine ensures_pure ⟨_, ?_,
      by rw [Stmt.erase]; exact ⟨.call name listed, id⟩⟩
    rw [nameEq, openEq, wordEq]
    simp
  · rw [if_neg isCall]
    refine (Reader.place_sound cursor).bind ?_
    rintro target reached ⟨first, firstEq, located⟩
    refine Reader.ensures_expect_bind ?_
    intro behind assignEq
    refine (Reader.expr_sound behind).bind ?_
    rintro value after ⟨second, secondEq, assigned⟩
    refine ensures_pure ⟨_, ?_,
      by rw [Stmt.erase]; exact ⟨.assign located assigned, id⟩⟩
    rw [firstEq, assignEq, secondEq]
    simp

/-- What `read` and `write` have after them is read in the same way. -/
theorem parenthesised_ensures {α β : Type} {item : Reader α} {erase : α → β}
    {category : Category β} (itemSound : Sound item erase category)
    {build : α → Stmt}
    {opens closes : Expectation} (cursor : Cursor) :
    Ensures (do
        Reader.expect (.symbol .openParen) opens
        let held ← item
        Reader.expect (.symbol .closeParen) closes
        return build held) cursor fun statement after =>
      ∃ word held, category word (erase held) ∧ statement = build held ∧
        cursor.kinds = .symbol .openParen :: (word ++ [.symbol .closeParen]) ++
          after.kinds := by
  refine Reader.ensures_expect_bind ?_
  intro opened openEq
  refine (itemSound opened).bind ?_
  rintro held reached ⟨word, wordEq, derived⟩
  refine Reader.ensures_expect_bind ?_
  intro closed closeEq
  refine ensures_pure ⟨word, held, derived, rfl, ?_⟩
  rw [openEq, wordEq, closeEq]
  simp

theorem printText_ensures (position : Position) (cursor : Cursor) :
    Ensures (printText position) cursor fun value after =>
      ∃ word, cursor.kinds = word ++ after.kinds ∧
        ClosedStatement (.keyword .printWord :: word) value.erase := by
  refine Reader.ensures_expect_bind ?_
  intro opened openEq
  refine ensures_bind_of_ok (Reader.next?_apply opened) ?_
  split
  · next text head =>
      refine Reader.ensures_advance_bind head ?_
      intro reached textEq
      refine Reader.ensures_expect_bind ?_
      intro closed closeEq
      refine ensures_pure ⟨_, ?_, by rw [Stmt.erase]; exact ⟨.print text, id⟩⟩
      rw [openEq, textEq, closeEq]
      rfl
  · exact ensures_throw

/-- A statement was read as the grammar has it, and no `else` follows that
would belong to it. -/
def ReadsStatement (state : Recovery) (statement : Stmt) (after : Recovery) :
    Prop :=
  ∃ word, state.cursor.kinds = word ++ after.cursor.kinds ∧
    Statement word statement.erase ∧
    (statement.erase.EndsOpen →
      after.cursor.kinds.head? ≠ some (.keyword .elseWord))

/-- Statements were read as the grammar has them. -/
def ReadsStatements (state : Recovery) (statements : List Stmt)
    (after : Recovery) : Prop :=
  ∃ word, state.cursor.kinds = word ++ after.cursor.kinds ∧
    Statements word (statements.map Stmt.erase)

theorem ClosedStatement.reads {word : Word} {statement : Stmt}
    {state after : Recovery} (closed : ClosedStatement word statement.erase)
    (kindsEq : state.cursor.kinds = word ++ after.cursor.kinds) :
    ReadsStatement state statement after :=
  ⟨word, kindsEq, closed.1, fun isOpen => absurd isOpen closed.2⟩

variable {statement : Attempt Stmt} {state : Recovery}

/-- The next token ends every list of statements. -/
def listEnds : Word → Bool
  | [] => true
  | kind :: _ => kind = .keyword .endWord || kind = .keyword .funWord

theorem atListEnd_apply (state : Recovery) :
    atListEnd state = (listEnds state.cursor.kinds, state) := by
  unfold atListEnd
  rw [Recoverer.bind_apply_of_eq (Recoverer.next?_apply state)]
  cases state.cursor.kinds with
  | nil => rfl
  | cons kind others => rfl

theorem listItem_tracks
    (tracks : Tracks statement state (ReadsStatement state)) :
    Recoverer.Tracks (listItem statement) state fun first after =>
      ∃ value, first = some value ∧ ReadsStatement state value after := by
  refine (Recoverer.attempt_tracks tracks).bind ?_
  intro result after
  cases result with
  | ok value =>
      refine Recoverer.tracks_recovered_bind ?_
      refine Recoverer.tracks_pure ?_
      intro read
      exact ⟨value, rfl, read value rfl⟩
  | error expected =>
      refine Recoverer.tracks_report_bind ?_
      intro reported
      refine Recoverer.tracks_bind_of_eq (atListEnd_apply reported) ?_
      split
      · exact Recoverer.tracks_pure trivial
      · exact Recoverer.tracks_bind_of_eq (Recoverer.advance_apply reported)
          (Recoverer.tracks_pure trivial)

theorem separator_tracks (state : Recovery) :
    Recoverer.Tracks separator state fun goesOn after =>
      ∃ tail, Optional (.symbol .semicolon) tail ∧
        state.cursor.kinds = tail ++ after.cursor.kinds ∧
        (goesOn = true → tail = [.symbol .semicolon]) := by
  by_cases found : state.cursor.kinds.head? = some (.symbol .semicolon)
  · refine Recoverer.tracks_bind_of_eq (Recoverer.accept_of_head found) ?_
    refine Recoverer.tracks_recovered_bind ?_
    refine Recoverer.tracks_bind_of_eq (atListEnd_apply _) ?_
    exact Recoverer.tracks_pure
      ⟨_, .present, Cursor.kinds_eq_cons found, fun _ => rfl⟩
  · refine Recoverer.tracks_bind_of_eq (Recoverer.accept_of_ne found) ?_
    refine Recoverer.tracks_bind_of_eq (atListEnd_apply state) ?_
    split
    · exact Recoverer.tracks_pure ⟨[], .absent, rfl, by simp⟩
    · exact Recoverer.tracks_report_bind fun _ => Recoverer.tracks_pure trivial

theorem statements_cons {first others : Word} {value : Stmt}
    {values : List Stmt} (derived : Statement first value)
    (more : Statements others values) :
    Statements (first ++ .symbol .semicolon :: others) (value :: values) := by
  cases more with
  | mk separated ended =>
      rw [← List.cons_append, ← List.append_assoc]
      exact .mk (.cons derived separated) ended

/-- An empty list is only read where the bound allows none. -/
theorem statementList_tracks
    (tracks : ∀ state, Tracks statement state (ReadsStatement state))
    (limit : Nat) (state : Recovery) :
    Recoverer.Tracks (statementList statement limit) state fun values after =>
      (limit = 0 ∧ values = [] ∧ after = state) ∨
        ReadsStatements state values after := by
  induction limit generalizing state with
  | zero => exact Recoverer.tracks_pure (.inl ⟨rfl, rfl, rfl⟩)
  | succ limit ih =>
      refine (listItem_tracks (tracks state)).bind ?_
      intro first reached
      refine (separator_tracks reached).bind ?_
      intro goesOn behind
      cases goesOn with
      | false =>
          refine Recoverer.tracks_pure ?_
          rintro ⟨tail, ended, tailEq, _⟩ ⟨value, rfl, word, wordEq, derived, _⟩
          refine .inr ⟨word ++ tail, ?_, .mk (.single derived) ended⟩
          rw [wordEq, tailEq, List.append_assoc]
      | true =>
          refine (ih behind).bind ?_
          intro others last
          refine Recoverer.tracks_pure ?_
          -- Where the bound is used up, the semicolon before is the last one.
          rintro (⟨_, rfl, rfl⟩ | ⟨more, moreEq, moreDerived⟩)
            ⟨tail, ended, tailEq, tailIs⟩ ⟨value, rfl, word, wordEq, derived, _⟩
          · refine .inr ⟨word ++ tail, ?_, .mk (.single derived) ended⟩
            rw [wordEq, tailEq, List.append_assoc]
          · obtain rfl := tailIs rfl
            refine .inr ⟨word ++ .symbol .semicolon :: more, ?_,
              statements_cons derived moreDerived⟩
            rw [wordEq, tailEq, moreEq]
            simp

theorem statementWithin_tracks (limit : Nat) (state : Recovery) :
    Tracks (statementWithin limit) state (ReadsStatement state) := by
  induction limit generalizing state with
  | zero => exact tracks_throw
  | succ limit ih =>
      refine tracks_bind_of_ok (Reader.position_apply state.cursor) ?_
      refine tracks_bind_of_ok (Reader.next?_apply state.cursor) ?_
      split
      · next head =>
          refine tracks_advance_bind head ?_
          intro opened ifEq
          refine tracks_lift_bind (Reader.condition_sound opened) ?_
          rintro condition tested ⟨first, firstEq, test⟩
          refine tracks_expect_bind ?_
          intro behind thenEq
          refine (ih _).bind ?_
          intro thenBranch reached
          refine tracks_accept_bind ?_ ?_
          · intro elseCursor elseEq
            refine (ih _).bind ?_
            intro elseBranch last
            refine tracks_pure ?_
            rintro ⟨third, thirdEq, otherwise, elseOpen⟩
              ⟨second, secondEq, taken, thenOpen⟩
            -- An open branch would have taken this `else` for itself.
            have closed : ¬ thenBranch.erase.EndsOpen := fun isOpen =>
              thenOpen isOpen (by rw [elseEq]; rfl)
            refine ⟨_, ?_,
              by rw [Stmt.erase]; exact .ifElse test taken closed otherwise, ?_⟩
            · rw [ifEq, firstEq, thenEq, secondEq, elseEq, thirdEq]
              simp
            · rw [Stmt.erase, Stmt.EndsOpen]
              exact elseOpen
          · intro noElse
            refine tracks_pure ?_
            rintro ⟨second, secondEq, taken, _⟩
            refine ⟨_, ?_, by rw [Stmt.erase]; exact .ifThen test taken,
              fun _ => noElse⟩
            rw [ifEq, firstEq, thenEq, secondEq]
            simp
      · next head =>
          refine tracks_advance_bind head ?_
          intro opened whileEq
          refine tracks_lift_bind (Reader.condition_sound opened) ?_
          rintro condition tested ⟨first, firstEq, test⟩
          refine tracks_expect_bind ?_
          intro behind doEq
          refine (ih _).bind ?_
          intro body last
          refine tracks_pure ?_
          rintro ⟨second, secondEq, repeated, bodyOpen⟩
          refine ⟨_, ?_, by rw [Stmt.erase]; exact .whileDo test repeated, ?_⟩
          · rw [whileEq, firstEq, doEq, secondEq]
            simp
          · rw [Stmt.erase, Stmt.EndsOpen]
            exact bodyOpen
      · next head =>
          refine tracks_advance_bind head ?_
          intro opened beginEq
          refine tracks_recoverer_bind
            (statementList_tracks ih (limit + 1) _) ?_
          intro statements reached
          refine tracks_expect_bind ?_
          intro closed endEq
          refine tracks_pure ?_
          rintro (⟨⟨⟩, _⟩ | ⟨_, wordEq, ⟨separated, ended⟩⟩)
          refine ClosedStatement.reads
            ⟨by rw [Stmt.erase]; exact .block separated ended,
            by simp [Stmt.erase, Stmt.EndsOpen]⟩ ?_
          rw [beginEq, wordEq, endEq]
          simp
      · next head =>
          refine tracks_advance_bind head ?_
          intro behind breakEq
          exact tracks_pure
            (ClosedStatement.reads ⟨by rw [Stmt.erase]; exact .breakLoop,
            by simp [Stmt.erase, Stmt.EndsOpen]⟩ breakEq)
      · next head =>
          refine tracks_advance_bind head ?_
          intro behind skipEq
          exact tracks_pure
            (ClosedStatement.reads ⟨by rw [Stmt.erase]; exact .skip,
            by simp [Stmt.erase, Stmt.EndsOpen]⟩ skipEq)
      · next head =>
          refine tracks_advance_bind head ?_
          intro behind returnEq
          refine tracks_lift_bind (Reader.expr_sound behind) ?_
          rintro value last ⟨word, wordEq, returned⟩
          refine tracks_pure
            (ClosedStatement.reads
              ⟨by rw [Stmt.erase]; exact .returnValue returned,
            by simp [Stmt.erase, Stmt.EndsOpen]⟩ ?_)
          rw [returnEq, wordEq]
          rfl
      · next head =>
          refine tracks_advance_bind head ?_
          intro behind readEq
          refine tracks_lift
            (parenthesised_ensures Reader.place_sound behind) ?_
          rintro _ last ⟨word, target, located, rfl, wordEq⟩
          exact ClosedStatement.reads ⟨by rw [Stmt.erase]; exact .read located,
            by simp [Stmt.erase, Stmt.EndsOpen]⟩ (by rw [readEq, wordEq]; rfl)
      · next head =>
          refine tracks_advance_bind head ?_
          intro behind writeEq
          refine tracks_lift (parenthesised_ensures Reader.expr_sound behind) ?_
          rintro _ last ⟨word, value, written, rfl, wordEq⟩
          exact ClosedStatement.reads ⟨by rw [Stmt.erase]; exact .write written,
            by simp [Stmt.erase, Stmt.EndsOpen]⟩ (by rw [writeEq, wordEq]; rfl)
      · next head =>
          refine tracks_advance_bind head ?_
          intro behind printEq
          refine tracks_lift (printText_ensures _ behind) ?_
          rintro value last ⟨word, wordEq, closed⟩
          exact closed.reads (by rw [printEq, wordEq]; rfl)
      · next name head =>
          refine tracks_lift (callOrAssignment_ensures head) ?_
          rintro value last ⟨word, wordEq, closed⟩
          exact closed.reads wordEq
      · exact tracks_throw

theorem statement_tracks (state : Recovery) :
    Tracks Attempt.statement state (ReadsStatement state) :=
  tracks_bind_of_ok (Reader.remaining_apply state.cursor)
    (statementWithin_tracks _ state)

theorem statements_tracks (state : Recovery) :
    Recoverer.Tracks statements state (ReadsStatements state) := by
  refine Recoverer.tracks_bind_of_eq (Recoverer.remaining_apply state) ?_
  refine (statementList_tracks statement_tracks _ state).mono ?_
  rintro values after (⟨⟨⟩, _⟩ | read)
  exact read

end Soundness

/-- The tokens that a statement can start with. -/
def startsStatement : Token.Kind → Bool
  | .identifier _ => true
  | .keyword .ifWord | .keyword .whileWord | .keyword .beginWord
  | .keyword .breakWord => true
  | .keyword .skipWord | .keyword .returnWord | .keyword .readWord => true
  | .keyword .writeWord | .keyword .printWord => true
  | _ => false

theorem statement_starts : Starts startsStatement Statement := by
  intro word value derived
  cases derived with
  | assign located assigned =>
      obtain ⟨name, others, rfl, _⟩ := Reader.location_head located (free_nil _)
      exact ⟨_, _, rfl, rfl⟩
  | call callee passed => exact ⟨_, _, rfl, rfl⟩
  | ifThen test taken => exact ⟨_, _, rfl, rfl⟩
  | ifElse test taken closed otherwise => exact ⟨_, _, rfl, rfl⟩
  | whileDo test repeated => exact ⟨_, _, rfl, rfl⟩
  | block separated ended => exact ⟨_, _, rfl, rfl⟩
  | breakLoop => exact ⟨_, _, rfl, rfl⟩
  | skip => exact ⟨_, _, rfl, rfl⟩
  | returnValue returned => exact ⟨_, _, rfl, rfl⟩
  | read located => exact ⟨_, _, rfl, rfl⟩
  | write written => exact ⟨_, _, rfl, rfl⟩
  | print text => exact ⟨_, _, rfl, rfl⟩

section Completeness

/-- A statement can end here: the next token does not continue an expression,
and is no `else` that would belong to the statement. -/
structure CanEnd (statement : Stmt) (rest : Word) : Prop where
  free : Free Reader.continuesSum rest
  noElse : statement.EndsOpen → rest.head? ≠ some (.keyword .elseWord)

/-- The reader reads every statement of the grammar up to a length, where it
can end. -/
def ReadsWithin (statement : Attempt Stmt) (bound : Nat) : Prop :=
  ∀ (word : Word) (tree : Stmt) (rest : Word) (errors : List SyntaxError)
    (state : Recovery),
    Statement word tree → word.length ≤ bound → CanEnd tree rest →
    state.Stands (word ++ rest) errors →
    Gives statement state fun value after =>
      value.erase = tree ∧ after.Stands rest errors

theorem listEnds_canEnd {rest : Word} (ends : listEnds rest = true)
    (statement : Stmt) : CanEnd statement rest := by
  cases rest with
  | nil => exact ⟨free_nil _, by simp⟩
  | cons kind others =>
      have isEnd : kind = .keyword .endWord ∨ kind = .keyword .funWord := by
        simpa [listEnds] using ends
      rcases isEnd with rfl | rfl
      · exact ⟨.cons rfl, by simp⟩
      · exact ⟨.cons rfl, by simp⟩

theorem semicolon_canEnd (statement : Stmt) (rest : Word) :
    CanEnd statement (.symbol .semicolon :: rest) :=
  ⟨.cons rfl, by simp⟩

theorem listItem_yields {statement : Attempt Stmt} {state : Recovery}
    {tree : Stmt} {rest : Word} {errors : List SyntaxError}
    (gives : Gives statement state fun value after =>
      value.erase = tree ∧ after.Stands rest errors) :
    Recoverer.Yields (listItem statement) state fun first after =>
      ∃ value, first = some value ∧ value.erase = tree ∧
        after.Stands rest errors := by
  refine (Recoverer.attempt_yields gives).bind ?_
  rintro _ after ⟨value, rfl, valueEq, stands⟩
  exact ⟨value, rfl, valueEq, stands.kinds, stands.errors⟩

theorem separator_yields_of_semicolon {state : Recovery} {rest : Word}
    {errors : List SyntaxError}
    (stands : state.Stands (.symbol .semicolon :: rest) errors) :
    Recoverer.Yields separator state fun goesOn after =>
      goesOn = !listEnds rest ∧ after.Stands rest errors := by
  have head : state.cursor.kinds.head? = some (.symbol .semicolon) := by
    rw [stands.kinds]; rfl
  have restEq : state.cursor.advance.kinds = rest := by
    rw [Cursor.kinds_advance, stands.kinds, List.tail_cons]
  refine Recoverer.yields_bind_of_eq (Recoverer.accept_of_head head) ?_
  refine Recoverer.yields_bind_of_eq (Recoverer.recovered_apply _) ?_
  refine Recoverer.yields_bind_of_eq (atListEnd_apply _) ?_
  rw [← restEq]
  exact ⟨rfl, rfl, stands.errors⟩

theorem separator_yields_of_listEnds {state : Recovery} {rest : Word}
    {errors : List SyntaxError} (stands : state.Stands rest errors)
    (ends : listEnds rest = true) :
    Recoverer.Yields separator state fun goesOn after =>
      goesOn = false ∧ after.Stands rest errors := by
  have noSemicolon : state.cursor.kinds.head? ≠ some (.symbol .semicolon) := by
    rw [stands.kinds]
    cases rest with
    | nil => simp
    | cons kind others =>
        rintro ⟨⟩
        cases ends
  refine Recoverer.yields_bind_of_eq (Recoverer.accept_of_ne noSemicolon) ?_
  refine Recoverer.yields_bind_of_eq (atListEnd_apply state) ?_
  rw [stands.kinds, ends]
  exact ⟨rfl, stands⟩

theorem statementList_yields {statement : Attempt Stmt} {bound limit : Nat}
    (reads : ReadsWithin statement bound) {word tail rest : Word}
    {trees : List Stmt}
    {errors : List SyntaxError} {state : Recovery}
    (separated : Separated (.symbol .semicolon) Statement word trees)
    (ended : Optional (.symbol .semicolon) tail) (short : word.length ≤ bound)
    (fits : word.length ≤ limit) (ends : listEnds rest = true)
    (stands : state.Stands (word ++ tail ++ rest) errors) :
    Recoverer.Yields (statementList statement limit) state fun values after =>
      values.map Stmt.erase = trees ∧ after.Stands rest errors := by
  induction separated generalizing limit state with
  | @single word tree derived =>
      obtain ⟨kind, others, rfl, _⟩ := statement_starts word tree derived
      obtain ⟨smaller, rfl⟩ : ∃ smaller, limit = smaller + 1 :=
        ⟨limit - 1, by simp at fits; omega⟩
      rw [List.append_assoc] at stands
      cases ended with
      | absent =>
          refine (listItem_yields (reads _ tree rest errors state derived short
            (listEnds_canEnd ends tree) stands)).bind ?_
          rintro _ reached ⟨value, rfl, valueEq, reachedStands⟩
          refine (separator_yields_of_listEnds reachedStands ends).bind ?_
          rintro _ last ⟨rfl, lastStands⟩
          exact Recoverer.yields_pure ⟨by simp [valueEq], lastStands⟩
      | present =>
          refine (listItem_yields (reads _ tree _ errors state derived short
            (semicolon_canEnd tree rest) stands)).bind ?_
          rintro _ reached ⟨value, rfl, valueEq, reachedStands⟩
          refine (separator_yields_of_semicolon reachedStands).bind ?_
          rintro _ last ⟨rfl, lastStands⟩
          rw [ends]
          exact Recoverer.yields_pure ⟨by simp [valueEq], lastStands⟩
  | @cons first others tree trees derived separated ih =>
      simp only [List.length_append, List.length_cons] at short fits
      obtain ⟨smaller, rfl⟩ : ∃ smaller, limit = smaller + 1 :=
        ⟨limit - 1, by omega⟩
      have firstStands : state.Stands
          (first ++ .symbol .semicolon :: (others ++ tail ++ rest)) errors := by
        simpa using stands
      have goesOn : listEnds (others ++ tail ++ rest) = false := by
        obtain ⟨kind, more, rfl, isStart⟩ :=
          statement_starts.separated others trees separated
        simp only [List.cons_append, listEnds, Bool.or_eq_false_iff,
          decide_eq_false_iff_not]
        constructor
        · rintro rfl
          cases isStart
        · rintro rfl
          cases isStart
      refine (listItem_yields
        (reads first tree _ errors state derived (by omega)
        (semicolon_canEnd tree _) firstStands)).bind ?_
      rintro _ reached ⟨value, rfl, valueEq, reachedStands⟩
      refine (separator_yields_of_semicolon reachedStands).bind ?_
      rintro _ behind ⟨rfl, behindStands⟩
      rw [goesOn]
      refine (ih (by omega) (by omega) behindStands).bind ?_
      rintro values last ⟨valuesEq, lastStands⟩
      refine Recoverer.yields_pure ⟨?_, lastStands⟩
      rw [Option.toList_some, List.singleton_append, List.map_cons, valueEq,
        valuesEq]

theorem assignment_gives {position : Position} {first second rest : Word}
    {target : Place} {value : Expr} {cursor : Cursor}
    (located : Location Expression first target)
    (assigned : Expression second value) (free : Free Reader.continuesSum rest)
    (kindsEq : cursor.kinds = first ++ .symbol .assign :: (second ++ rest)) :
    ∃ name, cursor.kinds.head? = some (.identifier name) ∧
      Gives (callOrAssignment position name) cursor fun statement after =>
        statement.erase = .assign default target value ∧
          after.kinds = rest := by
  have assignFree :
      Free Reader.continuesFactor (.symbol .assign :: (second ++ rest)) :=
    .cons rfl
  obtain ⟨name, others, wordEq, notCall⟩ :=
    Reader.location_head located assignFree
  refine ⟨name, by rw [kindsEq, wordEq]; rfl, ?_⟩
  refine gives_bind_of_ok (Reader.second?_apply cursor) ?_
  rw [if_neg (by rw [kindsEq, wordEq]; exact notCall)]
  refine (Reader.place_complete _ first target _ cursor located (Nat.le_refl _)
    assignFree kindsEq).bind ?_
  rintro place reached ⟨placeEq, reachedEq⟩
  refine Reader.gives_expect_bind reachedEq ?_
  intro behind behindEq
  refine (Reader.expr_complete _ second value rest behind assigned
    (Nat.le_refl _) free behindEq).bind ?_
  rintro read last ⟨valueEq, lastEq⟩
  exact gives_pure ⟨by rw [Stmt.erase, placeEq, valueEq], lastEq⟩

theorem call_gives {position : Position} {callee : String} {word rest : Word}
    {values : List Expr} {cursor : Cursor}
    (passed : Listed (.symbol .comma) Expression word values)
    (kindsEq : cursor.kinds = .identifier callee :: .symbol .openParen ::
      (word ++ .symbol .closeParen :: rest)) :
    Gives (callOrAssignment position callee) cursor fun statement after =>
      statement.erase = .call default callee values ∧ after.kinds = rest := by
  refine gives_bind_of_ok (Reader.second?_apply cursor) ?_
  rw [if_pos (by rw [kindsEq]; rfl)]
  refine Reader.gives_advance_bind kindsEq ?_
  intro named namedEq
  refine Reader.gives_advance_bind namedEq ?_
  intro opened openedEq
  refine (Reader.arguments_complete passed openedEq).bind ?_
  rintro args after ⟨argsEq, afterEq⟩
  exact gives_pure ⟨by rw [Stmt.erase, argsEq], afterEq⟩

theorem parenthesised_gives {α β : Type} {item : Reader α} {erase : α → β}
    {category : Category β} {bound : Nat} {continues : Token.Kind → Bool}
    (itemComplete : Complete item erase category bound continues)
    (apart : continues (.symbol .closeParen) = false) {build : α → Stmt}
    {opens closes : Expectation} {word rest : Word} {tree : β} {cursor : Cursor}
    (derived : category word tree) (short : word.length ≤ bound)
    (kindsEq : cursor.kinds = .symbol .openParen ::
      (word ++ .symbol .closeParen :: rest)) :
    Gives (do
        Reader.expect (.symbol .openParen) opens
        let held ← item
        Reader.expect (.symbol .closeParen) closes
        return build held) cursor fun statement after =>
      (∃ held, erase held = tree ∧ statement = build held) ∧
        after.kinds = rest := by
  refine Reader.gives_expect_bind kindsEq ?_
  intro opened openedEq
  refine (itemComplete word tree _ opened derived short (.cons apart)
    openedEq).bind ?_
  rintro held reached ⟨heldEq, reachedEq⟩
  refine Reader.gives_expect_bind reachedEq ?_
  intro closed closedEq
  exact gives_pure ⟨⟨held, heldEq, rfl⟩, closedEq⟩

theorem printText_gives {position : Position} {text : String} {rest : Word}
    {cursor : Cursor} (kindsEq : cursor.kinds =
      .symbol .openParen :: .string text :: .symbol .closeParen :: rest) :
    Gives (printText position) cursor fun statement after =>
      statement.erase = .print default text ∧ after.kinds = rest := by
  refine Reader.gives_expect_bind kindsEq ?_
  intro opened openedEq
  refine gives_bind_of_ok (Reader.next?_apply opened) ?_
  rw [openedEq]
  refine Reader.gives_advance_bind openedEq ?_
  intro reached reachedEq
  refine Reader.gives_expect_bind reachedEq ?_
  intro closed closedEq
  exact gives_pure ⟨by rw [Stmt.erase], closedEq⟩

theorem gives_guard_bind {β : Type} {opening closing : Token.Kind}
    {expected : Expectation} {next : Condition → Attempt β}
    {demand : β → Recovery → Prop} {first rest : Word}
    {test : Condition} {errors : List SyntaxError} {state : Recovery}
    (tested : Disjunction first test)
    (apart : Reader.continuesDisjunction closing = false)
    (stands : state.Stands (opening :: (first ++ closing :: rest)) errors)
    (further : ∀ condition after, condition.erase = test →
      after.Stands rest errors → Gives (next condition) after demand) :
    Gives (do
        Reader.advance
        let condition ← Reader.condition
        Reader.expect closing expected
        next condition : Attempt β) state demand := by
  refine gives_advance_bind stands ?_
  intro opened openedStands
  refine gives_lift_bind
    (Reader.condition_complete _ first test _ opened.cursor tested
    (Nat.le_refl _) (.cons apart) openedStands.kinds) openedStands.errors ?_
  intro condition reached conditionEq reachedStands
  refine gives_expect_bind reachedStands ?_
  intro after afterStands
  exact further condition after conditionEq afterStands

theorem statementWithin_reads (limit : Nat) :
    ReadsWithin (statementWithin limit) limit := by
  induction limit with
  | zero =>
      intro word tree rest errors state derived short
      obtain ⟨kind, others, rfl, _⟩ := statement_starts word tree derived
      simp at short
  | succ limit ih =>
      intro word tree rest errors state derived short canEnd stands
      refine gives_bind_of_ok
        (lift_apply_of_ok (Reader.position_apply state.cursor)) ?_
      refine gives_bind_of_ok
        (lift_apply_of_ok (Reader.next?_apply state.cursor)) ?_
      cases derived with
      | assign located assigned =>
          obtain ⟨name, head, gives⟩ :=
            assignment_gives located assigned canEnd.free
            (by simpa using stands.kinds)
          rw [head]
          exact gives_lift gives stands.errors
      | call callee passed =>
          rw [stands.kinds]
          exact gives_lift (call_gives passed (by simpa using stands.kinds))
            stands.errors
      | @ifThen first second test thenBranch tested taken =>
          have branchShort : second.length ≤ limit := by
            simp only [List.length_append, List.length_cons] at short
            omega
          have noElse := canEnd.noElse trivial
          rw [stands.kinds]
          refine gives_guard_bind tested rfl (by simpa using stands) ?_
          intro condition behind conditionEq behindStands
          refine (ih second thenBranch rest errors behind taken branchShort
            ⟨canEnd.free, fun _ => noElse⟩ behindStands).bind ?_
          rintro branch reached ⟨branchEq, reachedStands⟩
          refine gives_bind_of_ok (lift_apply_of_ok (Reader.accept_of_ne
            (by rw [reachedStands.kinds]; exact noElse))) ?_
          exact gives_pure ⟨by rw [Stmt.erase, conditionEq, branchEq],
            reachedStands⟩
      | @ifElse first second third test thenBranch elseBranch tested taken
          closed otherwise =>
          have branchesShort : second.length ≤ limit ∧
              third.length ≤ limit := by
            simp only [List.length_append, List.length_cons] at short
            omega
          rw [stands.kinds]
          refine gives_guard_bind tested rfl (by simpa using stands) ?_
          intro condition behind conditionEq behindStands
          refine (ih second thenBranch _ errors behind taken branchesShort.1
            ⟨(free_cons _ (.keyword .elseWord) (third ++ rest)).mpr rfl,
              fun isOpen => absurd isOpen closed⟩ (by simpa
                using behindStands)).bind ?_
          rintro branch reached ⟨branchEq, reachedStands⟩
          have elseNext :
              reached.cursor.kinds.head? = some (.keyword .elseWord) := by
            rw [reachedStands.kinds]
            rfl
          refine gives_bind_of_ok
            (lift_apply_of_ok (Reader.accept_of_head elseNext)) ?_
          have elseStands :
              Recovery.Stands { reached with cursor := reached.cursor.advance }
              (third ++ rest) errors :=
            ⟨by rw [Cursor.kinds_advance, reachedStands.kinds]; rfl,
              reachedStands.errors⟩
          refine (ih third elseBranch rest errors _ otherwise branchesShort.2
            ⟨canEnd.free, canEnd.noElse⟩ elseStands).bind ?_
          rintro other last ⟨otherEq, lastStands⟩
          exact gives_pure ⟨by rw [Stmt.erase, conditionEq, branchEq, otherEq],
            lastStands⟩
      | @whileDo first second test body tested repeated =>
          have bodyShort : second.length ≤ limit := by
            simp only [List.length_append, List.length_cons] at short
            omega
          rw [stands.kinds]
          refine gives_guard_bind tested rfl (by simpa using stands) ?_
          intro condition behind conditionEq behindStands
          refine (ih second body rest errors behind repeated bodyShort
            ⟨canEnd.free, canEnd.noElse⟩ behindStands).bind ?_
          rintro read last ⟨readEq, lastStands⟩
          exact gives_pure ⟨by rw [Stmt.erase, conditionEq, readEq], lastStands⟩
      | @block word tail statements separated ended =>
          have wordShort : word.length ≤ limit := by
            simp only [List.length_append, List.length_cons] at short
            omega
          rw [stands.kinds]
          refine gives_advance_bind stands ?_
          intro opened openedStands
          refine gives_recoverer_bind
            (statementList_yields ih separated ended wordShort
            (Nat.le_succ_of_le wordShort) rfl (by simpa using openedStands)) ?_
          rintro values reached ⟨valuesEq, reachedStands⟩
          refine gives_expect_bind reachedStands ?_
          intro ended endedStands
          exact gives_pure ⟨by rw [Stmt.erase, valuesEq], endedStands⟩
      | breakLoop =>
          rw [stands.kinds]
          refine gives_advance_bind stands ?_
          intro after afterStands
          exact gives_pure ⟨by rw [Stmt.erase], afterStands⟩
      | skip =>
          rw [stands.kinds]
          refine gives_advance_bind stands ?_
          intro after afterStands
          exact gives_pure ⟨by rw [Stmt.erase], afterStands⟩
      | @returnValue word value returned =>
          rw [stands.kinds]
          refine gives_advance_bind stands ?_
          intro behind behindStands
          refine gives_lift_bind
            (Reader.expr_complete _ word value rest behind.cursor returned
            (Nat.le_refl _) canEnd.free behindStands.kinds)
              behindStands.errors ?_
          intro read after valueEq afterStands
          exact gives_pure ⟨by rw [Stmt.erase, valueEq], afterStands⟩
      | read located =>
          rw [stands.kinds]
          refine gives_advance_bind stands ?_
          intro behind behindStands
          refine (gives_lift
            (parenthesised_gives (Reader.place_complete _) rfl located
            (Nat.le_refl _) (by simpa using behindStands.kinds))
              behindStands.errors).mono ?_
          rintro _ after ⟨⟨target, targetEq, rfl⟩, afterStands⟩
          exact ⟨by rw [Stmt.erase, targetEq], afterStands⟩
      | write written =>
          rw [stands.kinds]
          refine gives_advance_bind stands ?_
          intro behind behindStands
          refine (gives_lift
            (parenthesised_gives (Reader.expr_complete _) rfl written
            (Nat.le_refl _) (by simpa using behindStands.kinds))
              behindStands.errors).mono ?_
          rintro _ after ⟨⟨value, valueEq, rfl⟩, afterStands⟩
          exact ⟨by rw [Stmt.erase, valueEq], afterStands⟩
      | print text =>
          rw [stands.kinds]
          refine gives_advance_bind stands ?_
          intro behind behindStands
          exact gives_lift (printText_gives behindStands.kinds)
            behindStands.errors

theorem statement_reads (bound : Nat) :
    ReadsWithin Attempt.statement bound := by
  intro word tree rest errors state derived _ canEnd stands
  refine gives_bind_of_ok
    (lift_apply_of_ok (Reader.remaining_apply state.cursor)) ?_
  have short := Cursor.length_le_of_kinds_eq stands.kinds
  exact statementWithin_reads _ word tree rest errors state derived short
    canEnd stands

theorem statements_yields {word rest : Word} {trees : List Stmt}
    {errors : List SyntaxError} {state : Recovery}
    (derived : Statements word trees) (ends : listEnds rest = true)
    (stands : state.Stands (word ++ rest) errors) :
    Recoverer.Yields statements state fun values after =>
      values.map Stmt.erase = trees ∧ after.Stands rest errors := by
  refine Recoverer.yields_bind_of_eq (Recoverer.remaining_apply state) ?_
  cases derived with
  | @mk word tail trees separated ended =>
      have fits : word.length ≤ state.cursor.kinds.length + 1 := by
        rw [stands.kinds]
        simp only [List.length_append]
        omega
      exact statementList_yields (statement_reads word.length) separated ended
        (Nat.le_refl _) fits ends stands

end Completeness

end PL0.Attempt
