import PL0.Proofs.Reading.Boundaries
import PL0.Proofs.Reading.Dividers

/-!
# Segments of a list of statements

The tokens of a list of statements without blocks are cut into segments by the
semicolons.  In every round of reading the list one statement is tried.  It
takes a part of a segment that is a statement, or it stops at a token that
does not fit, which is then skipped.  That token can be the semicolon behind
the segment.  The segment is then said to break off, and since its semicolon
was skipped and does not count as a separator, errors are kept quiet behind
it.

So every segment that is no statement is reported, unless the one before it
breaks off.  Even then it is reported if a statement is read inside it, since
errors are reported again behind a statement.  A round is shown to pass this
on from the segments that are left to all of them, and a list follows from its
rounds.
-/

namespace PL0

open Grammar

/-- The tokens up to a separator. -/
structure Segment where
  tokens : List Token
  separator : Token
  nonempty : tokens ≠ []
  plain : ∀ token ∈ tokens, token.kind.isDivider = false

namespace Segment

/-- A segment with its separator. -/
def all (segment : Segment) : List Token :=
  segment.tokens ++ [segment.separator]

/-- The kinds of the tokens of a segment. -/
def word (segment : Segment) : Word :=
  segment.tokens.map Token.kind

/-- The segment is a statement on its own. -/
def IsStatement (segment : Segment) : Prop :=
  ∃ tree, Statement segment.word tree

/-- An error stands at a token of the segment or at its separator. -/
def ReportedIn (errors : List SyntaxError) (segment : Segment) : Prop :=
  ∃ error ∈ errors, ∃ token ∈ segment.all, error.position = token.position

end Segment

/-- Semicolons stand between the segments and `end` behind the last of them. -/
inductive Divided : List Segment → Prop where
  | last {segment : Segment}
      (isEnd : segment.separator.kind = .keyword .endWord) :
      Divided [segment]
  | cons {segment : Segment} {others : List Segment}
      (isSemicolon : segment.separator.kind = .symbol .semicolon)
        (more : Divided others) :
      Divided (segment :: others)

/-- What an attempt at a statement leaves: the tokens behind the statement, or
those behind the token that did not fit. -/
inductive Leaves (cursor : Cursor) : List Token → Prop where
  | read {statement : Stmt} {rest : Cursor}
      (succeeds : Attempt.statement ⟨cursor, [], false⟩ = .ok statement ⟨rest,
        [], false⟩) :
      Leaves cursor rest.tokens
  | skipped {expected : Expectation} {rest : Cursor}
      (fails : Attempt.statement ⟨cursor, [], false⟩ = .error expected ⟨rest,
        [], false⟩) :
      Leaves cursor rest.tokens.tail

/-- Reading statements from the given tokens on, one attempt after the other,
comes to the separator behind them as a token that does not fit. -/
inductive BreaksOff (separator : Token) (behind : List Token) :
    List Token → Prop where
  | here {tokens : List Token} {cursor rest : Cursor} {expected : Expectation}
      (nonempty : tokens ≠ [])
        (starts : cursor.tokens = tokens ++ separator :: behind)
      (fails : Attempt.statement ⟨cursor, [], false⟩ = .error expected ⟨rest,
        [], false⟩)
      (stops : rest.tokens = separator :: behind) :
        BreaksOff separator behind tokens
  | later {tokens left : List Token} {cursor : Cursor} (nonempty : tokens ≠ [])
      (starts : cursor.tokens = tokens ++ separator :: behind)
      (leaves : Leaves cursor (left ++ separator :: behind))
      (more : BreaksOff separator behind left) :
        BreaksOff separator behind tokens

/-- With the given tokens behind it the segment breaks off at its separator. -/
def Segment.BreaksOff (segment : Segment) (behind : List Token) : Prop :=
  PL0.BreaksOff segment.separator behind segment.tokens

/-- Reading statements from the given tokens on, one attempt after the other,
comes to no statement with a token left before the separator: every attempt
fails, up to one that may take the rest. -/
inductive Unrecovered (separator : Token) (behind : List Token) :
    List Token → Prop where
  | nil : Unrecovered separator behind []
  | whole {tokens : List Token} {tree : Stmt}
      (derived : Statement (tokens.map Token.kind) tree) :
      Unrecovered separator behind tokens
  | stopped {tokens : List Token} {cursor rest : Cursor}
      {expected : Expectation}
      (starts : cursor.tokens = tokens ++ separator :: behind)
      (fails : Attempt.statement ⟨cursor, [], false⟩ = .error expected ⟨rest,
        [], false⟩)
      (stops : rest.tokens = separator :: behind) :
        Unrecovered separator behind tokens
  | skipped {tokens left : List Token} {token : Token} {cursor rest : Cursor}
      {expected : Expectation}
        (starts : cursor.tokens = tokens ++ separator :: behind)
      (fails : Attempt.statement ⟨cursor, [], false⟩ = .error expected ⟨rest,
        [], false⟩)
      (stops : rest.tokens = token :: left ++ separator :: behind)
      (more : Unrecovered separator behind left) :
        Unrecovered separator behind tokens

/-- With the given tokens behind it no statement is read inside the segment. -/
def Segment.Unrecovered (segment : Segment) (behind : List Token) : Prop :=
  PL0.Unrecovered segment.separator behind segment.tokens

/-- The segment is a statement, or it is reported, or it need not be. -/
def Segment.Settled (segment : Segment) (errors : List SyntaxError)
    (excused : Prop) : Prop :=
  segment.IsStatement ∨ segment.ReportedIn errors ∨ excused

/-- Every segment is settled, where one without a statement inside it need not
be reported behind a segment that breaks off.  For the first segment this is
`excused`. -/
def Covers (errors : List SyntaxError) (tail : List Token) :
    Prop → List Segment → Prop
  | _, [] => True
  | excused, segment :: others =>
    segment.Settled errors (excused ∧
      segment.Unrecovered (others.flatMap Segment.all ++ tail)) ∧
      Covers errors tail
        (segment.BreaksOff (others.flatMap Segment.all ++ tail)) others

theorem Divided.ne_nil {segments : List Segment} (divided : Divided segments) :
    segments ≠ [] := by
  cases divided <;> simp

/-- What is left of a segment. -/
def Segment.dropTo (segment : Segment) {passed left : List Token}
    (parts : segment.tokens = passed ++ left) (nonempty : left ≠ []) :
    Segment where
  tokens := left
  separator := segment.separator
  nonempty := nonempty
  plain token member :=
    segment.plain token (by rw [parts]; exact List.mem_append_right _ member)

theorem Divided.dropTo {segment : Segment} {others : List Segment}
    {passed left : List Token} (divided : Divided (segment :: others))
    (parts : segment.tokens = passed ++ left)
    (nonempty : left ≠ []) :
    Divided (segment.dropTo parts nonempty :: others) := by
  cases divided with
  | last isEnd => exact .last isEnd
  | cons isSemicolon more => exact .cons isSemicolon more

theorem Divided.separates {segment : Segment} {others : List Segment}
    (divided : Divided (segment :: others)) :
    segment.separator.kind = .symbol .semicolon ∨ segment.separator.kind =
      .keyword .endWord := by
  cases divided with
  | last isEnd => exact .inr isEnd
  | cons isSemicolon more => exact .inl isSemicolon

/-- The first token of segments is a plain one. -/
theorem Divided.exists_head {segments : List Segment}
    (divided : Divided segments) :
    ∃ token others, segments.flatMap Segment.all = token :: others ∧
      token.kind.isDivider = false := by
  obtain ⟨segment, others, rfl⟩ := List.exists_cons_of_ne_nil divided.ne_nil
  obtain ⟨token, more, tokensEq⟩ := List.exists_cons_of_ne_nil segment.nonempty
  exact ⟨token, more ++ [segment.separator] ++ others.flatMap Segment.all,
    by simp [Segment.all, tokensEq], segment.plain token (by simp [tokensEq])⟩

theorem Covers.mono {errors : List SyntaxError} {tail : List Token}
    {excused weaker : Prop} {segments : List Segment}
    (covers : Covers errors tail excused segments)
    (implies : excused → weaker) : Covers errors tail weaker segments := by
  cases segments with
  | nil => trivial
  | cons segment others =>
      exact ⟨covers.1.imp_right (Or.imp_right (And.imp_left implies)), covers.2⟩

/-- What was covered is found again for every segment. -/
theorem Covers.of_append {errors : List SyntaxError} {tail : List Token}
    {excused : Prop} {before after : List Segment} {segment : Segment}
    (covers : Covers errors tail excused (before ++ segment :: after))
    (broken : ¬ segment.IsStatement) :
    segment.ReportedIn errors ∨
      segment.Unrecovered (after.flatMap Segment.all ++ tail) ∧
      (before = [] ∧ excused ∨ ∃ previous, before.getLast? = some previous ∧
        previous.BreaksOff
          ((segment :: after).flatMap Segment.all ++ tail)) := by
  induction before generalizing excused with
  | nil =>
      rcases covers.1 with isStatement | reported | ⟨isExcused, unrecovered⟩
      · exact absurd isStatement broken
      · exact .inl reported
      · exact .inr ⟨unrecovered, .inl ⟨rfl, isExcused⟩⟩
  | cons first others ih =>
      rcases ih covers.2 with reported | ⟨unrecovered, ⟨rfl, breaksOff⟩ |
        ⟨previous, isLast, breaksOff⟩⟩
      · exact .inl reported
      · exact .inr ⟨unrecovered, .inr ⟨first, rfl, breaksOff⟩⟩
      · refine .inr ⟨unrecovered, .inr ⟨previous, ?_, breaksOff⟩⟩
        rw [List.getLast?_cons, isLast]
        rfl

/-- From a segment one only reaches the rest of it. -/
theorem Cursor.Reaches.left {cursor rest : Cursor} {tokens behind : List Token}
    {separator : Token} (reaches : cursor.Reaches rest)
    (starts : cursor.tokens = tokens ++ separator :: behind)
    (divides : separator.kind.isDivider = true) :
    ∃ passed left, tokens = passed ++ left ∧
      rest.tokens = left ++ separator :: behind := by
  obtain ⟨passed, tokensEq, plain⟩ := reaches
  rw [starts] at tokensEq
  rcases List.append_eq_append_iff.mp tokensEq with ⟨more, passedEq, moreEq⟩ |
    ⟨left, tokensEq, restEq⟩
  · cases more with
    | nil => exact ⟨passed, [], by simpa using passedEq.symm,
        by simpa using moreEq.symm⟩
    | cons token more =>
        -- Otherwise the separator would have been passed.
        obtain ⟨rfl, -⟩ := List.cons.inj moreEq
        have isPlain := plain separator (by rw [passedEq]; simp)
        rw [divides] at isPlain
        cases isPlain
  · exact ⟨passed, left, tokensEq, restEq⟩

theorem Segment.blockless {segment : Segment} {cursor : Cursor}
    {behind : List Token}
    (starts : cursor.tokens = segment.tokens ++ segment.separator :: behind)
    (divides : segment.separator.kind.isDivider = true)
    (noBlock : segment.separator.kind ≠ .keyword .beginWord) :
    cursor.Blockless := by
  intro rest reaches isBegin
  obtain ⟨passed, left, tokensEq, restEq⟩ := reaches.left starts divides
  rw [Cursor.kinds, restEq] at isBegin
  cases left with
  | nil => exact noBlock (by simpa using isBegin)
  | cons token left =>
      have isPlain := segment.plain token (by rw [tokensEq]; simp)
      have kindEq : token.kind = .keyword .beginWord := by simpa using isBegin
      rw [kindEq] at isPlain
      cases isPlain

/-- How an attempt at a statement can go at the start of a segment: it takes a
part of the segment that is a statement, or it stops at a token of the segment
or at the separator. -/
inductive Attempted (segment : Segment) (behind : List Token)
    (cursor : Cursor) : Prop where
  | read {value : Stmt} {rest : Cursor} {passed left : List Token}
      (parts : segment.tokens = passed ++ left)
      (stops : rest.tokens = left ++ segment.separator :: behind)
      (isStatement : ∃ tree, Statement (passed.map Token.kind) tree)
      (ran : ∀ errors recovering, Attempt.statement ⟨cursor, errors,
        recovering⟩ = .ok value ⟨rest, errors, recovering⟩)
  | failed {expected : Expectation} {rest : Cursor} {passed left : List Token}
      (parts : segment.tokens = passed ++ left)
      (stops : rest.tokens = left ++ segment.separator :: behind)
      (ran : ∀ errors recovering, Attempt.statement ⟨cursor, errors,
        recovering⟩ = .error expected ⟨rest, errors, recovering⟩)

theorem Segment.attempted {segment : Segment} {cursor : Cursor}
    {behind : List Token}
    (starts : cursor.tokens = segment.tokens ++ segment.separator :: behind)
    (divides : segment.separator.kind.isDivider = true)
    (noBlock : segment.separator.kind ≠ .keyword .beginWord) :
    Attempted segment behind cursor := by
  rcases Attempt.statement_quiet (segment.blockless starts divides noBlock) with
    ⟨value, rest, reaches, ran⟩ | ⟨expected, rest, reaches, ran⟩
  · obtain ⟨passed, left, parts, stops⟩ := reaches.left starts divides
    -- With nothing reported before, nothing is reported in the end.
    have tracks := Attempt.statement_tracks ⟨cursor, [], false⟩ (by rintro ⟨⟩)
    rw [ran] at tracks
    obtain ⟨word, wordEq, derived, -⟩ := tracks.holds rfl
    have passedEq : passed.map Token.kind = word := by
      rw [Cursor.kinds, Cursor.kinds, starts, stops, parts, List.append_assoc,
        List.map_append] at wordEq
      exact List.append_cancel_right wordEq
    exact .read parts stops ⟨_, passedEq ▸ derived⟩ ran
  · obtain ⟨passed, left, parts, stops⟩ := reaches.left starts divides
    exact .failed parts stops ran

theorem BreaksOff.ne_nil {separator : Token} {behind tokens : List Token}
    (breaksOff : BreaksOff separator behind tokens) : tokens ≠ [] := by
  cases breaksOff with
  | here nonempty => exact nonempty
  | later nonempty => exact nonempty

/-- A segment that is a statement does not break off. -/
theorem BreaksOff.not_statement {separator : Token} {behind tokens : List Token}
    (breaksOff : BreaksOff separator behind tokens)
    (isSemicolon : separator.kind = .symbol .semicolon) (tree : Stmt) :
    ¬ Statement (tokens.map Token.kind) tree := by
  intro derived
  have reads {cursor : Cursor}
      (starts : cursor.tokens = tokens ++ separator :: behind) :
      ∃ value rest, Attempt.statement ⟨cursor, [], false⟩ = .ok value rest ∧
        rest.cursor.tokens.length = behind.length + 1 := by
    have stands : Recovery.Stands ⟨cursor, [], false⟩
        (tokens.map Token.kind ++ .symbol .semicolon :: behind.map Token.kind)
          [] :=
      ⟨by simp [Cursor.kinds, starts, isSemicolon], rfl⟩
    obtain ⟨value, rest, ran, -, restStands⟩ :=
      Attempt.statement_reads _ _ tree _ [] _ derived
      (Nat.le_refl _) (Attempt.semicolon_canEnd tree _) stands
    refine ⟨value, rest, ran, ?_⟩
    rw [← Cursor.length_kinds, restStands.kinds]
    simp
  cases breaksOff with
  | here nonempty starts fails stops =>
      obtain ⟨value, rest, ran, -⟩ := reads starts
      rw [ran] at fails
      cases fails
  | @later _ left _ _ starts leaves more =>
      obtain ⟨value, rest, ran, restLength⟩ := reads starts
      generalize leftEq : left ++ separator :: behind = tokens at leaves
      cases leaves with
      | read succeeds =>
          rw [ran] at succeeds
          cases succeeds
          have leftLength := congrArg List.length leftEq
          rw [restLength, List.length_append, List.length_cons] at leftLength
          exact more.ne_nil (List.eq_nil_of_length_eq_zero (by omega))
      | skipped fails =>
          rw [ran] at fails
          cases fails

namespace Recovery

variable {state : Recovery} {token : Token} {others : List Token}

theorem report_errors_subset (state : Recovery) (expected : Expectation) :
    state.errors ⊆ (state.report expected).errors := by
  obtain ⟨reported, errorsEq, -⟩ := (Passes.report state expected).errors
  rw [errorsEq]
  exact List.subset_append_left _ _

/-- An error at a token is reported unless errors are kept quiet. -/
theorem report_of_tokens (head : state.cursor.tokens = token :: others)
    (expected : Expectation) :
    state.report expected = if state.recovering then state else
      { state with
        errors := state.errors ++ [⟨some token.kind, expected, token.position⟩]
        recovering := true } := by
  simp [report, Cursor.unexpected, Cursor.next?, Cursor.position,
    SyntaxError.isAtEnd, head]

theorem exists_mem_report (head : state.cursor.tokens = token :: others)
    (alert : state.recovering = false) (expected : Expectation) :
    ∃ error ∈ (state.report expected).errors, error.position =
      token.position := by
  rw [report_of_tokens head, if_neg (by simp [alert])]
  exact ⟨_, List.mem_append_right _ (List.mem_singleton_self _), rfl⟩

end Recovery

namespace Attempt

variable {statement : Attempt Stmt} {state : Recovery}

theorem listItem_of_ok {value : Stmt} {after : Recovery}
    (ran : statement state = .ok value after) :
    listItem statement state = (some value, after.recovered) := by
  have attempted : Recoverer.attempt statement state = (.ok value, after) := by
    simp [Recoverer.attempt, ran]
  rw [listItem, Recoverer.bind_apply_of_eq attempted]
  rfl

theorem listItem_of_error {expected : Expectation} {after : Recovery}
    (ran : statement state = .error expected after) :
    listItem statement state = (none,
      if listEnds after.cursor.kinds then after.report expected
      else (after.report expected).advance) := by
  have attempted : Recoverer.attempt statement state = (.error expected,
      after) := by
    simp [Recoverer.attempt, ran]
  rw [listItem, Recoverer.bind_apply_of_eq attempted]
  simp only
  rw [Recoverer.bind_apply_of_eq (Recoverer.report_apply expected after),
    Recoverer.bind_apply_of_eq (atListEnd_apply _), Recovery.report_cursor]
  split <;> rfl

theorem separator_of_semicolon
    (head : state.cursor.kinds.head? = some (.symbol .semicolon)) :
    separator state = (!listEnds state.cursor.advance.kinds,
      state.advance.recovered) := by
  rw [separator, Recoverer.bind_apply_of_eq (Recoverer.accept_of_head head)]
  simp only [if_true]
  rw [Recoverer.bind_apply_of_eq (Recoverer.recovered_apply _),
    Recoverer.bind_apply_of_eq (atListEnd_apply _)]
  rfl

theorem separator_of_ne
    (other : state.cursor.kinds.head? ≠ some (.symbol .semicolon)) :
    separator state = if listEnds state.cursor.kinds then (false, state)
      else (true, state.report .separatorOrEnd) := by
  rw [separator, Recoverer.bind_apply_of_eq (Recoverer.accept_of_ne other)]
  simp only [Bool.false_eq_true, if_false]
  rw [Recoverer.bind_apply_of_eq (atListEnd_apply _)]
  split <;> rfl

variable {token first : Token} {more : List Token}

theorem listEnds_of_plain (tokensEq : state.cursor.tokens = token :: more)
    (plain : token.kind.isDivider = false) :
    listEnds state.cursor.kinds = false := by
  rw [Cursor.kinds, tokensEq, List.map_cons, listEnds]
  by_contra ends
  rw [Bool.not_eq_false] at ends
  have isEnd : token.kind = .keyword .endWord ∨
      token.kind = .keyword .funWord := by
    simpa using ends
  rcases isEnd with isEnd | isFun
  · rw [isEnd] at plain
    cases plain
  · rw [isFun] at plain
    cases plain

theorem separator_of_plain (tokensEq : state.cursor.tokens = token :: more)
    (plain : token.kind.isDivider = false) :
    separator state = (true, state.report .separatorOrEnd) := by
  have noSemicolon : state.cursor.kinds.head? ≠ some (.symbol .semicolon) := by
    rw [Cursor.kinds, tokensEq, List.map_cons, List.head?_cons]
    rintro isSemicolon
    rw [Option.some.inj isSemicolon] at plain
    cases plain
  rw [separator_of_ne noSemicolon, listEnds_of_plain tokensEq plain,
    if_neg Bool.false_ne_true]

theorem separator_of_end (tokensEq : state.cursor.tokens = token :: more)
    (isEnd : token.kind = .keyword .endWord) :
    separator state = (false, state) := by
  have head :
      state.cursor.kinds = .keyword .endWord :: more.map Token.kind := by
    rw [Cursor.kinds, tokensEq, List.map_cons, isEnd]
  rw [separator_of_ne (by simp [head]), head]
  rfl

theorem separator_of_semicolon_plain
    (tokensEq : state.cursor.tokens = token :: first :: more)
    (isSemicolon : token.kind = .symbol .semicolon)
    (plain : first.kind.isDivider = false) :
    separator state = (true, state.advance.recovered) := by
  have head : state.cursor.kinds.head? = some (.symbol .semicolon) := by
    simp [Cursor.kinds, tokensEq, isSemicolon]
  have ahead : state.advance.cursor.tokens = first :: more := by
    simp [Recovery.advance, Cursor.advance, tokensEq]
  have goesOn : listEnds state.cursor.advance.kinds = false :=
    listEnds_of_plain ahead plain
  rw [separator_of_semicolon head, goesOn]
  rfl

end Attempt

/-- Where reading a list stands after one item of it, which started with the
segment. -/
inductive ItemRead (segment : Segment) (behind : List Token)
    (state after : Recovery) : Prop where
  | inside {passed left : List Token} (parts : segment.tokens = passed ++ left)
      (moved : passed ≠ []) (stops : after.cursor.tokens =
        left ++ segment.separator :: behind)
      (leaves : Leaves state.cursor (left ++ segment.separator :: behind))
      (settled : segment.Settled after.errors (state.recovering = true ∧
          (PL0.Unrecovered segment.separator behind left →
            segment.Unrecovered behind)) ∨
        after.recovering = false ∧ left ≠ [])
  | atEnd (stops : after.cursor.tokens = segment.separator :: behind)
      (isEnd : segment.separator.kind = .keyword .endWord)
      (settled : segment.Settled after.errors
        (state.recovering = true ∧ segment.Unrecovered behind))
  | brokenOff (stops : after.cursor.tokens = behind)
      (isSemicolon : segment.separator.kind = .symbol .semicolon)
      (settled : segment.Settled after.errors
        (state.recovering = true ∧ segment.Unrecovered behind))
      (breaksOff : segment.BreaksOff behind)

theorem Segment.settled_report {segment : Segment} {state : Recovery}
    {token : Token} {others : List Token} {quiet : Prop}
    (head : state.cursor.tokens = token :: others)
    (member : token ∈ segment.all) (expected : Expectation) (isQuiet : quiet) :
    segment.Settled (state.report expected).errors
      (state.recovering = true ∧ quiet) := by
  cases recovering : state.recovering with
  | true => exact .inr (.inr ⟨rfl, isQuiet⟩)
  | false =>
      obtain ⟨error, reported, positionEq⟩ :=
        state.exists_mem_report head recovering expected
      exact .inr (.inl ⟨error, reported, token, member, positionEq⟩)

/-- After a statement that could not be read the token that did not fit is
skipped, also if it is the semicolon behind the segment. -/
theorem Segment.listItem_failed {segment : Segment}
    {passed left behind : List Token} {state stopped : Recovery}
    {expected : Expectation}
    (starts : state.cursor.tokens = segment.tokens ++
      segment.separator :: behind)
    (separates : segment.separator.kind = .symbol .semicolon ∨
      segment.separator.kind = .keyword .endWord)
    (parts : segment.tokens = passed ++ left)
    (stops : stopped.cursor.tokens = left ++ segment.separator :: behind)
    (failed : Attempt.statement state = .error expected stopped)
    (sameErrors : stopped.errors = state.errors)
    (sameMode : stopped.recovering = state.recovering)
    (afresh : Attempt.statement ⟨state.cursor, [], false⟩ =
      .error expected ⟨stopped.cursor, [], false⟩) :
    ∃ first after, Attempt.listItem Attempt.statement state = (first, after) ∧
      state.errors ⊆ after.errors ∧ ItemRead segment behind state after := by
  have item := Attempt.listItem_of_error failed
  have reported : state.errors ⊆ (stopped.report expected).errors :=
    sameErrors ▸ stopped.report_errors_subset expected
  have settled {token : Token} {others : List Token} {quiet : Prop}
      (head : stopped.cursor.tokens = token :: others)
        (member : token ∈ segment.all)
      (isQuiet : quiet) :
      segment.Settled (stopped.report expected).errors
        (state.recovering = true ∧ quiet) := by
    rw [← sameMode]
    exact segment.settled_report head member expected isQuiet
  have ahead : (stopped.report expected).advance.cursor.tokens =
      stopped.cursor.tokens.tail := by
    simp [Recovery.advance, Cursor.advance, Recovery.report_cursor]
  cases left with
  | cons token left =>
      have plain := segment.plain token (by rw [parts]; simp)
      rw [Attempt.listEnds_of_plain stops plain,
        if_neg Bool.false_ne_true] at item
      have leaves : Leaves state.cursor stopped.cursor.tokens.tail :=
        .skipped afresh
      rw [stops] at leaves ahead
      refine ⟨_, _, item, reported,
        .inside (parts.trans (List.append_cons ..)) (by simp) ahead
        leaves (.inl (settled stops ?_ (.skipped starts afresh stops)))⟩
      rw [Segment.all, parts]
      simp
  | nil =>
      rw [List.nil_append] at stops
      have unrecovered : segment.Unrecovered behind :=
        .stopped starts afresh stops
      have atSeparator := settled stops (by simp [Segment.all]) unrecovered
      rcases separates with isSemicolon | isEnd
      · have goesOn : Attempt.listEnds stopped.cursor.kinds = false := by
          rw [Cursor.kinds, stops, List.map_cons, isSemicolon]
          rfl
        rw [goesOn, if_neg Bool.false_ne_true] at item
        rw [stops] at ahead
        exact ⟨_, _, item, reported, .brokenOff ahead isSemicolon atSeparator
          (.here segment.nonempty starts afresh stops)⟩
      · have ends : Attempt.listEnds stopped.cursor.kinds = true := by
          rw [Cursor.kinds, stops, List.map_cons, isEnd]
          rfl
        rw [ends, if_pos rfl] at item
        exact ⟨_, _, item, reported,
          .atEnd (by rw [Recovery.report_cursor, stops]) isEnd
          atSeparator⟩

theorem Segment.listItem_read {segment : Segment} {behind : List Token}
    {state : Recovery}
    (starts : state.cursor.tokens = segment.tokens ++
      segment.separator :: behind)
    (separates : segment.separator.kind = .symbol .semicolon ∨
      segment.separator.kind = .keyword .endWord) :
    ∃ first after, Attempt.listItem Attempt.statement state = (first, after) ∧
      state.errors ⊆ after.errors ∧ ItemRead segment behind state after := by
  have divides : segment.separator.kind.isDivider = true := by
    rcases separates with isSeparator | isSeparator <;> rw [isSeparator] <;> rfl
  have noBlock : segment.separator.kind ≠ .keyword .beginWord := by
    rcases separates with isSeparator | isSeparator <;> simp [isSeparator]
  cases segment.attempted starts divides noBlock with
  | @read value rest passed left parts stops isStatement ran =>
      refine ⟨_, _, Attempt.listItem_of_ok (ran state.errors state.recovering),
        List.Subset.refl _, ?_⟩
      have moved : passed ≠ [] := by
        rintro rfl
        obtain ⟨tree, derived⟩ := isStatement
        obtain ⟨kind, others, wordEq, -⟩ := Attempt.statement_starts _ _ derived
        cases wordEq
      refine .inside parts moved stops (stops ▸ .read (ran [] false)) ?_
      by_cases whole : left = []
      · rw [whole, List.append_nil] at parts
        exact .inl (.inl (by rwa [Segment.IsStatement, Segment.word, parts]))
      · exact .inr ⟨rfl, whole⟩
  | failed parts stops ran =>
      exact segment.listItem_failed starts separates parts stops
        (ran state.errors state.recovering) rfl rfl (ran [] false)

/-- What one round of reading a list does, by whether the list goes on.  If it
does, it goes on with segments that are left, and what is then covered for
them is covered for all. -/
inductive Round (segments : List Segment) (tail : List Token)
    (state next : Recovery) : Bool → Prop where
  | goesOn {left : List Segment} (divided : Divided left)
      (stops : next.cursor.tokens = left.flatMap Segment.all ++ tail)
      (shorter : next.cursor.tokens.length < state.cursor.tokens.length)
      (covers : ∀ errors, next.errors ⊆ errors →
        Covers errors tail (next.recovering = true) left →
        Covers errors tail (state.recovering = true) segments) :
      Round segments tail state next true
  | ends {ending : Token} (isEnd : ending.kind = .keyword .endWord)
      (stops : next.cursor.tokens = ending :: tail)
      (covers : Covers next.errors tail (state.recovering = true) segments) :
      Round segments tail state next false

theorem Segment.Settled.mono {segment : Segment}
    {errors more : List SyntaxError} {excused weaker : Prop}
    (settled : segment.Settled errors excused) (kept : errors ⊆ more)
    (implies : excused → weaker) : segment.Settled more weaker := by
  refine settled.imp_right (Or.imp ?_ implies)
  rintro ⟨error, member, located⟩
  exact ⟨error, kept member, located⟩

theorem Segment.Settled.covers {segment : Segment}
    {errors more : List SyntaxError} {tail : List Token} {excused quiet : Prop}
    {others : List Segment}
    (settled : segment.Settled errors
      (quiet ∧ segment.Unrecovered (others.flatMap Segment.all ++ tail)))
    (kept : errors ⊆ more) (covers : Covers more tail excused others)
    (implies : excused →
      segment.BreaksOff (others.flatMap Segment.all ++ tail)) :
    Covers more tail quiet (segment :: others) :=
  ⟨settled.mono kept id, covers.mono implies⟩

/-- What is settled for the rest of a segment is settled for the segment. -/
theorem Segment.Settled.of_dropTo {segment : Segment}
    {errors : List SyntaxError} {quiet : Prop} {passed left behind : List Token}
    {excused : Prop} (parts : segment.tokens = passed ++ left)
    (nonempty : left ≠ [])
    (settled : (segment.dropTo parts nonempty).Settled errors
      (excused ∧ (segment.dropTo parts nonempty).Unrecovered behind))
    (isQuiet : quiet)
    (implies : PL0.Unrecovered segment.separator behind left →
      segment.Unrecovered behind) :
    segment.Settled errors (quiet ∧ segment.Unrecovered behind) := by
  rcases settled with ⟨tree, derived⟩ | ⟨error, reported, token, member,
    located⟩ |
    ⟨-, unrecovered⟩
  · exact .inr (.inr ⟨isQuiet, implies (.whole derived)⟩)
  · refine .inr (.inl ⟨error, reported, token, ?_, located⟩)
    rw [Segment.all, parts, List.append_assoc]
    exact List.mem_append_right _ member
  · exact .inr (.inr ⟨isQuiet, implies unrecovered⟩)

/-- The round where the item ends inside the segment or just before the
separator. -/
theorem Divided.round_inside {segment : Segment} {others : List Segment}
    {passed left tail : List Token} {state after : Recovery}
    (divided : Divided (segment :: others))
    (starts : state.cursor.tokens =
      segment.tokens ++ segment.separator ::
        (others.flatMap Segment.all ++ tail))
    (parts : segment.tokens = passed ++ left) (moved : passed ≠ [])
    (stops : after.cursor.tokens =
      left ++ segment.separator :: (others.flatMap Segment.all ++ tail))
    (leaves : Leaves state.cursor
      (left ++ segment.separator :: (others.flatMap Segment.all ++ tail)))
    (settled : segment.Settled after.errors (state.recovering = true ∧
        (PL0.Unrecovered segment.separator (others.flatMap Segment.all ++ tail)
          left → segment.Unrecovered (others.flatMap Segment.all ++ tail))) ∨
      after.recovering = false ∧ left ≠ []) :
    ∃ goesOn next, Attempt.separator after = (goesOn, next) ∧
      after.errors ⊆ next.errors ∧
      Round (segment :: others) tail state next goesOn := by
  have shorter : passed.length ≠ 0 := by simpa using moved
  cases left with
  | nil =>
      have isSettled :=
        (settled.resolve_right (by simp)).mono (List.Subset.refl _)
        (And.imp_right fun implies => implies .nil)
      rw [List.nil_append] at stops
      cases divided with
      | last isEnd =>
          exact ⟨false, after, Attempt.separator_of_end stops isEnd,
            List.Subset.refl _,
            .ends isEnd (by simpa using stops)
              (isSettled.covers (List.Subset.refl _) trivial id)⟩
      | cons isSemicolon more =>
          obtain ⟨token, behind, headEq, plain⟩ := more.exists_head
          have ahead : after.advance.recovered.cursor.tokens =
              others.flatMap Segment.all ++ tail := by
            simp [Recovery.recovered, Recovery.advance, Cursor.advance, stops]
          refine ⟨true, after.advance.recovered,
            Attempt.separator_of_semicolon_plain
            (by rw [stops, headEq]; rfl) isSemicolon plain, List.Subset.refl _,
            .goesOn more ahead ?_ ?_⟩
          · rw [ahead, starts]
            simp only [List.length_append, List.length_cons]
            omega
          · intro errors included covers
            exact isSettled.covers included covers (by rintro ⟨⟩)
  | cons token left =>
      have kept := after.report_errors_subset .separatorOrEnd
      have plain := segment.plain token (by rw [parts]; simp)
      refine ⟨true, _, Attempt.separator_of_plain stops plain, kept,
        .goesOn (divided.dropTo parts (by simp)) ?_ ?_ ?_⟩
      · simp [Recovery.report_cursor, stops, Segment.dropTo, Segment.all]
      · rw [Recovery.report_cursor, stops, starts, parts]
        simp only [List.length_append, List.length_cons]
        omega
      · intro errors included covers
        refine ⟨?_, covers.2.mono fun breaksOff =>
          .later segment.nonempty starts leaves breaksOff⟩
        rcases settled with
          (isStatement | reported | ⟨quiet, implies⟩) | ⟨alert, -⟩
        · exact .inl isStatement
        · obtain ⟨error, member, located⟩ := reported
          exact .inr (.inl ⟨error, included (kept member), located⟩)
        · exact .of_dropTo parts (by simp) covers.1 quiet implies
        · obtain ⟨error, member, located⟩ :=
            after.exists_mem_report stops alert .separatorOrEnd
          exact .inr (.inl ⟨error, included member, token,
            by simp [Segment.all, parts], located⟩)

theorem Divided.round {segment : Segment} {others : List Segment}
    {tail : List Token} {state : Recovery}
    (divided : Divided (segment :: others))
    (starts : state.cursor.tokens =
      (segment :: others).flatMap Segment.all ++ tail) :
    ∃ first after goesOn next, Attempt.listItem Attempt.statement state =
      (first, after) ∧
      Attempt.separator after = (goesOn, next) ∧ state.errors ⊆ next.errors ∧
      Round (segment :: others) tail state next goesOn := by
  have startsHere : state.cursor.tokens =
      segment.tokens ++ segment.separator ::
        (others.flatMap Segment.all ++ tail) := by
    simpa [Segment.all] using starts
  obtain ⟨first, after, item, errors, read⟩ :=
    segment.listItem_read startsHere divided.separates
  cases read with
  | inside parts moved stops leaves settled =>
      obtain ⟨goesOn, next, separated, kept, round⟩ :=
        divided.round_inside startsHere parts moved stops leaves settled
      exact ⟨first, after, goesOn, next, item, separated,
        List.Subset.trans errors kept, round⟩
  | atEnd stops isEnd settled =>
      cases divided with
      | last =>
          exact ⟨first, after, false, after, item,
            Attempt.separator_of_end stops isEnd, errors,
            .ends isEnd (by simpa using stops)
              (settled.covers (List.Subset.refl _) trivial id)⟩
      | cons isSemicolon =>
          rw [isSemicolon] at isEnd
          cases isEnd
  | brokenOff stops isSemicolon settled breaksOff =>
      cases divided with
      | last isEnd =>
          rw [isSemicolon] at isEnd
          cases isEnd
      | cons _ more =>
          obtain ⟨token, behind, headEq, plain⟩ := more.exists_head
          have kept := after.report_errors_subset .separatorOrEnd
          refine ⟨first, after, true, _, item,
            Attempt.separator_of_plain (by rw [stops, headEq]; rfl) plain,
            List.Subset.trans errors kept, .goesOn more ?_ ?_ ?_⟩
          · rw [Recovery.report_cursor, stops]
          · rw [Recovery.report_cursor, stops, startsHere]
            simp only [List.length_append, List.length_cons]
            omega
          · intro all included covers
            exact settled.covers (List.Subset.trans kept included) covers
              fun _ => breaksOff

/-- A list of statements is read to its `end`, errors are only added, and its
segments are covered in the end. -/
theorem statementList_covers {segments : List Segment} {tail : List Token}
    {limit : Nat} {state : Recovery} (divided : Divided segments)
    (starts : state.cursor.tokens = segments.flatMap Segment.all ++ tail)
    (enough : state.cursor.tokens.length ≤ limit) :
    Recoverer.Yields (Attempt.statementList Attempt.statement limit) state
      fun _ final =>
      state.errors ⊆ final.errors ∧
        Covers final.errors tail (state.recovering = true) segments ∧
        ∃ ending, ending.kind = .keyword .endWord ∧ final.cursor.tokens =
          ending :: tail := by
  induction limit generalizing state segments with
  | zero =>
      obtain ⟨token, others, headEq, -⟩ := divided.exists_head
      rw [starts, headEq] at enough
      simp at enough
  | succ limit ih =>
      obtain ⟨segment, others, rfl⟩ := List.exists_cons_of_ne_nil divided.ne_nil
      obtain ⟨first, after, goesOn, next, item, separated, kept, round⟩ :=
        divided.round starts
      refine Recoverer.yields_bind_of_eq item
        (Recoverer.yields_bind_of_eq separated ?_)
      cases round with
      | goesOn leftDivided stops shorter covers =>
          refine (ih leftDivided stops (by omega)).bind ?_
          rintro values final ⟨more, leftCovers, ending⟩
          exact Recoverer.yields_pure
            ⟨List.Subset.trans kept more, covers final.errors more leftCovers,
              ending⟩
      | ends isEnd stops covers =>
          exact Recoverer.yields_pure ⟨kept, covers, _, isEnd, stops⟩

theorem statements_covers {segments : List Segment} {state : Recovery}
    (divided : Divided segments)
    (starts : state.cursor.tokens = segments.flatMap Segment.all) :
    Recoverer.Yields Attempt.statements state fun _ final =>
      Covers final.errors [] (state.recovering = true) segments ∧
        ∃ ending, ending.kind = .keyword .endWord ∧
          final.cursor.tokens = [ending] := by
  refine Recoverer.yields_bind_of_eq (Recoverer.remaining_apply state) ?_
  rw [Cursor.length_kinds]
  exact (statementList_covers divided (starts.trans (List.append_nil _).symm)
    (Nat.le_succ _)).2

end PL0
