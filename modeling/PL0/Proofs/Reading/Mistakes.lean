import PL0.Proofs.Reading.Segments

/-!
# Which mistakes are reported

The body of a function is cut into segments by its semicolons.  A segment that
is no statement is reported: there is an error at one of its tokens or at the
separator behind it.  The one exception is a segment without a statement
inside it directly behind another one that breaks off.  The two then count as
a single mistake.
-/

namespace PL0

open Grammar

theorem Segment.unended (segment : Segment) :
    ∀ token ∈ segment.tokens, token.kind ≠ .endOfInput := by
  intro token member isEnd
  have plain := segment.plain token member
  rw [isEnd] at plain
  cases plain

/-- What cannot be read without an error is no statement. -/
theorem Segment.not_isStatement (segment : Segment)
    (reported : (readProgram segment.tokens).errors ≠ []) :
    ¬ segment.IsStatement := by
  rintro ⟨tree, derived⟩
  have whole : inputKinds (segment.tokens ++ []) = segment.word ++ [] :=
    inputKinds_append segment.unended
  rw [List.append_nil segment.tokens] at whole
  have alone : Derives (inputKinds segment.tokens) (.statement tree) := by
    rw [whole]
    exact .statement derived .absent
  exact reported (readProgram_of_derives alone).1

theorem Divided.unended {segments : List Segment} (divided : Divided segments) :
    ∀ token ∈ segments.flatMap Segment.all, token.kind ≠ .endOfInput := by
  induction divided with
  | @last segment isEnd =>
      simpa [Segment.all, isEnd, or_imp, forall_and] using segment.unended
  | @cons segment others isSemicolon more ih =>
      simp only [List.flatMap_cons, Segment.all, List.forall_mem_append,
        List.forall_mem_singleton]
      exact ⟨⟨segment.unended, by simp [isSemicolon]⟩, ih⟩

theorem Divided.semicolon_of_append {before after : List Segment}
    {segment previous : Segment}
    (divided : Divided (before ++ segment :: after))
    (member : previous ∈ before) :
    previous.separator.kind = .symbol .semicolon := by
  induction before with
  | nil => cases member
  | cons first others ih =>
      generalize restEq : others ++ segment :: after = rest at divided
      rw [List.cons_append, restEq] at divided
      cases divided with
      | last => simp at restEq
      | cons isSemicolon more =>
          rcases List.mem_cons.mp member with rfl | inOthers
          · exact isSemicolon
          · exact ih (restEq ▸ more) inOthers

namespace Reader

theorem parameters_of_close {cursor : Cursor}
    (head : cursor.kinds.head? = some (.symbol .closeParen)) :
    parameters cursor = .ok [] cursor := by
  rw [parameters, bind_apply_of_ok (next?_apply cursor), if_pos head]
  rfl

theorem locals_of_begin {cursor : Cursor}
    (head : cursor.kinds.head? = some (.keyword .beginWord)) :
    locals cursor = .ok [] cursor := by
  rw [locals, bind_apply_of_ok (remaining_apply cursor)]
  exact Setting.localsWithin_of_ne (by simp [head])

end Reader

/-- The kinds of the tokens before the body of a function without parameters
and variables. -/
def plainHeader (name : String) : Word :=
  [.keyword .funWord, .identifier name, .symbol .openParen, .symbol .closeParen,
    .keyword .beginWord]

section Header

variable {β : Type} {state : Recovery} {token : Token} {rest : List Token}
  {demand : β → Recovery → Prop}

theorem kinds_head? {cursor : Cursor} {kind : Token.Kind}
    (starts : cursor.tokens = token :: rest) (isKind : token.kind = kind) :
    cursor.kinds.head? = some kind := by
  rw [Cursor.kinds, starts, List.map_cons, List.head?_cons, isKind]

theorem gives_expect_bind_of_tokens {kind : Token.Kind} {expected : Expectation}
    {next : Unit → Attempt β} (starts : state.cursor.tokens = token :: rest)
    (isKind : token.kind = kind)
    (further : ∀ cursor : Cursor, cursor.tokens = rest →
      Gives (next ()) { state with cursor } demand) :
    Gives (liftM (Reader.expect kind expected) >>= next : Attempt β) state
      demand :=
  gives_bind_of_ok
    (Attempt.lift_apply_of_ok
      (Reader.expect_of_head (kinds_head? starts isKind)))
    (further _ (by rw [Cursor.advance, starts]; rfl))

theorem gives_identifier_bind_of_tokens {name : String} {expected : Expectation}
    {next : String × Position → Attempt β}
    (starts : state.cursor.tokens = token :: rest)
    (isName : token.kind = .identifier name)
    (further : ∀ (position : Position) (cursor : Cursor), cursor.tokens = rest →
      Gives (next (name, position)) { state with cursor } demand) :
    Gives (liftM (Reader.identifier expected) >>= next : Attempt β) state
      demand :=
  gives_bind_of_ok
    (Attempt.lift_apply_of_ok
      (Reader.identifier_of_head (kinds_head? starts isName)))
    (further _ _ (by rw [Cursor.advance, starts]; rfl))

end Header

theorem function_covers {header : List Token} {name : String}
    {segments : List Segment} {state : Recovery}
    (headerKinds : header.map Token.kind = plainHeader name)
    (divided : Divided segments)
    (starts : state.cursor.tokens = header ++ segments.flatMap Segment.all) :
    Gives Attempt.function state fun _ final =>
      Covers final.errors [] (state.recovering = true) segments ∧
        final.cursor.kinds = [] := by
  obtain ⟨funToken, _, rfl, isFun, headerKinds⟩ :=
    List.map_eq_cons_iff.mp headerKinds
  obtain ⟨nameToken, _, rfl, isName, headerKinds⟩ :=
    List.map_eq_cons_iff.mp headerKinds
  obtain ⟨openToken, _, rfl, isOpen, headerKinds⟩ :=
    List.map_eq_cons_iff.mp headerKinds
  obtain ⟨closeToken, _, rfl, isClose, headerKinds⟩ :=
    List.map_eq_cons_iff.mp headerKinds
  obtain ⟨beginToken, _, rfl, isBegin, headerKinds⟩ :=
    List.map_eq_cons_iff.mp headerKinds
  obtain rfl := List.map_eq_nil_iff.mp headerKinds
  refine gives_expect_bind_of_tokens starts isFun ?_
  intro begun begunStarts
  refine gives_identifier_bind_of_tokens begunStarts isName ?_
  intro position named namedStarts
  refine gives_expect_bind_of_tokens namedStarts isOpen ?_
  intro opened openedStarts
  refine gives_bind_of_ok (Attempt.lift_apply_of_ok
    (Reader.parameters_of_close (kinds_head? openedStarts isClose))) ?_
  refine gives_expect_bind_of_tokens openedStarts isClose ?_
  intro closed closedStarts
  refine gives_bind_of_ok (Attempt.lift_apply_of_ok
    (Reader.locals_of_begin (kinds_head? closedStarts isBegin))) ?_
  refine gives_expect_bind_of_tokens closedStarts isBegin ?_
  intro body bodyStarts
  refine Attempt.gives_recoverer_bind (statements_covers divided bodyStarts) ?_
  rintro statements final ⟨covers, ending, isEnd, stops⟩
  refine gives_expect_bind_of_tokens stops isEnd ?_
  intro last lastStarts
  exact gives_pure ⟨covers, by rw [Cursor.kinds, lastStarts]; rfl⟩

/-- A program that is a single function with such a header and body covers the
segments. -/
theorem readProgram_covers {header : List Token} {name : String}
    {segments : List Segment} {stop : Token}
    (headerKinds : header.map Token.kind = plainHeader name)
    (divided : Divided segments) (isStop : stop.kind = .endOfInput) :
    Covers (readProgram (header ++ segments.flatMap Segment.all ++
      [stop])).errors [] False segments := by
  have unended : ∀ token ∈ header ++ segments.flatMap Segment.all,
      token.kind ≠ .endOfInput := by
    have inHeader : ∀ kind ∈ header.map Token.kind, kind ≠ .endOfInput := by
      rw [headerKinds]
      simp [plainHeader]
    exact List.forall_mem_append.mpr
      ⟨fun token member => inHeader _ (List.mem_map_of_mem member),
        divided.unended⟩
  have head :
      (inputKinds (header ++ segments.flatMap Segment.all ++ [stop])).head? =
      some (.keyword .funWord) := by
    rw [inputKinds_append unended, List.map_append, headerKinds]
    rfl
  have starts :
      (Recovery.resume (header ++ segments.flatMap Segment.all ++ [stop]) 0 []
        false).cursor.tokens = header ++ segments.flatMap Segment.all := by
    rw [Recovery.resume, Cursor.tokens_ofTokens_append unended]
    simp [Cursor.ofTokens, isStop]
  obtain ⟨function, final, read, covers, ended⟩ :=
    function_covers headerKinds divided starts
  have startHead :
      (Recovery.resume (header ++ segments.flatMap Segment.all ++ [stop]) 0 []
        false).cursor.kinds.head? = some (.keyword .funWord) := head
  have round := Recoverer.round_of_read startHead read
  rw [readProgram_of_fun head (Nat.le_succ _),
    Recoverer.functionsWithin_of_round startHead round
    (Recoverer.functionsWithin_of_kinds_eq_nil ended _)]
  exact covers.mono (by rintro ⟨⟩)

/-- A segment that is no statement is reported at one of its tokens or at its
separator, unless no statement is read inside it and the segment before it
breaks off at the semicolon between them.  That segment is then no statement
either. -/
theorem readProgram_reports_segments {header : List Token} {name : String}
    {stop : Token} {before after : List Segment} {segment : Segment}
    (headerKinds : header.map Token.kind = plainHeader name)
    (divided : Divided (before ++ segment :: after))
    (isStop : stop.kind = .endOfInput)
    (broken : ¬ segment.IsStatement) :
    segment.ReportedIn (readProgram
      (header ++ (before ++ segment :: after).flatMap Segment.all ++
        [stop])).errors ∨
    segment.Unrecovered (after.flatMap Segment.all) ∧
      ∃ previous, before.getLast? = some previous ∧
        previous.BreaksOff ((segment :: after).flatMap Segment.all) ∧
          ¬ previous.IsStatement := by
  have covers := readProgram_covers headerKinds divided isStop
  rcases covers.of_append broken with reported |
    ⟨unrecovered, ⟨-, ⟨⟩⟩ | ⟨previous, isLast, breaksOff⟩⟩
  · exact .inl reported
  · have isSemicolon :=
      divided.semicolon_of_append (List.mem_of_getLast? isLast)
    rw [List.append_nil] at unrecovered breaksOff
    refine .inr ⟨unrecovered, previous, isLast, breaksOff, ?_⟩
    rintro ⟨tree, derived⟩
    exact breaksOff.not_statement isSemicolon tree derived

/-- The header of a program on its first line. -/
def mainHeader : List Token :=
  [⟨.keyword .funWord, ⟨1, 1⟩⟩, ⟨.identifier "main", ⟨1, 5⟩⟩,
    ⟨.symbol .openParen, ⟨1, 9⟩⟩, ⟨.symbol .closeParen, ⟨1, 10⟩⟩,
    ⟨.keyword .beginWord, ⟨1, 12⟩⟩]

/-- An assignment `x :=` without a value. -/
def unfinishedFirst : Segment where
  tokens := [⟨.identifier "x", ⟨1, 18⟩⟩, ⟨.symbol .assign, ⟨1, 20⟩⟩]
  separator := ⟨.symbol .semicolon, ⟨1, 23⟩⟩
  nonempty := by simp
  plain := by simp [Token.Kind.isDivider]

/-- An assignment `y :=` without a value, behind the first one. -/
def unfinishedSecond : Segment where
  tokens := [⟨.identifier "y", ⟨1, 25⟩⟩, ⟨.symbol .assign, ⟨1, 27⟩⟩]
  separator := ⟨.symbol .semicolon, ⟨1, 30⟩⟩
  nonempty := by simp
  plain := by simp [Token.Kind.isDivider]

/-- The last statement of the program. -/
def lastSkip : Segment where
  tokens := [⟨.keyword .skipWord, ⟨1, 32⟩⟩]
  separator := ⟨.keyword .endWord, ⟨1, 37⟩⟩
  nonempty := by simp
  plain := by simp [Token.Kind.isDivider]

theorem divided_unfinished :
    Divided [unfinishedFirst, unfinishedSecond, lastSkip] :=
  .cons rfl (.cons rfl (.last rfl))

theorem unfinishedFirst_not_statement : ¬ unfinishedFirst.IsStatement :=
  unfinishedFirst.not_isStatement (by decide +kernel)

theorem unfinishedSecond_not_statement : ¬ unfinishedSecond.IsStatement :=
  unfinishedSecond.not_isStatement (by decide +kernel)

/-- The first mistake in `fun main() begin x := ; y := ; skip end` is
reported. -/
theorem readProgram_reports_unfinishedFirst :
    mainHeader.map Token.kind = plainHeader "main" ∧
      Divided [unfinishedFirst, unfinishedSecond, lastSkip] ∧
        ¬ unfinishedFirst.IsStatement ∧
      unfinishedFirst.ReportedIn (readProgram (mainHeader ++
        [unfinishedFirst, unfinishedSecond, lastSkip].flatMap Segment.all ++
          [⟨.endOfInput, ⟨1, 40⟩⟩])).errors := by
  refine ⟨rfl, divided_unfinished, unfinishedFirst_not_statement, ?_⟩
  have reports := @readProgram_reports_segments mainHeader "main" ⟨.endOfInput,
      ⟨1, 40⟩⟩ []
    [unfinishedSecond, lastSkip] unfinishedFirst rfl divided_unfinished rfl
    unfinishedFirst_not_statement
  exact reports.resolve_right (by simp)

/-- The second mistake is not, since the first assignment breaks off at the
semicolon between them. -/
theorem readProgram_unreported_segment :
    Divided [unfinishedFirst, unfinishedSecond, lastSkip] ∧
      ¬ unfinishedSecond.IsStatement ∧
      ¬ unfinishedSecond.ReportedIn (readProgram (mainHeader ++
        [unfinishedFirst, unfinishedSecond, lastSkip].flatMap Segment.all ++
          [⟨.endOfInput, ⟨1, 40⟩⟩])).errors := by
  have errors : (readProgram (mainHeader ++
      [unfinishedFirst, unfinishedSecond, lastSkip].flatMap Segment.all ++
        [⟨.endOfInput, ⟨1, 40⟩⟩])).errors =
      [⟨some (.symbol .semicolon), .expression, ⟨1, 23⟩⟩] := by decide +kernel
  rw [errors]
  exact ⟨divided_unfinished, unfinishedSecond_not_statement,
    by simp [Segment.ReportedIn, Segment.all, unfinishedSecond]⟩

end PL0
