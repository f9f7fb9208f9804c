import PL0.Proofs.Grammar.Declarations
import PL0.Proofs.Grammar.Statements

/-!
# Reading programs is exactly the grammar

A program is read without an error if and only if its tokens can be derived in
the grammar, and then the tree that was read is the only tree they have, up to
numbers and positions.  That no other tree is derived needs no argument about
derivations: every derivation is followed by the same run of the reader.
-/

namespace PL0

open Grammar

namespace Attempt

/-- A function was read as the grammar has it. -/
def ReadsFunction (state : Recovery) (function : Function) (after : Recovery) :
    Prop :=
  ∃ word, state.cursor.kinds = word ++ after.cursor.kinds ∧
    Definition word function.erase

theorem function_tracks (state : Recovery) :
    Tracks Attempt.function state (ReadsFunction state) := by
  refine tracks_expect_bind ?_
  intro begun funEq
  refine tracks_lift_bind (Reader.identifier_ensures begun) ?_
  rintro ⟨name, position⟩ named nameEq
  refine tracks_expect_bind ?_
  intro opened openEq
  refine tracks_lift_bind (Reader.parameters_sound opened) ?_
  rintro params listed ⟨first, firstEq, parameters⟩
  refine tracks_expect_bind ?_
  intro closed closeEq
  refine tracks_lift_bind (Reader.locals_sound closed) ?_
  rintro declared reached ⟨second, secondEq, locals⟩
  refine tracks_expect_bind ?_
  intro body beginEq
  refine tracks_recoverer_bind (statements_tracks _) ?_
  intro statements last
  refine tracks_expect_bind ?_
  intro final endEq
  refine tracks_pure ?_
  rintro ⟨third, thirdEq, derived⟩
  refine ⟨_, ?_, .mk name parameters locals derived⟩
  rw [funEq, nameEq, openEq, firstEq, closeEq, secondEq, beginEq,
    thirdEq, endEq]
  simp

theorem function_gives {word rest : Word} {tree : Function}
    {errors : List SyntaxError} {state : Recovery}
    (derived : Definition word tree)
    (stands : state.Stands (word ++ rest) errors) :
    Gives Attempt.function state fun function after =>
      function.erase = tree ∧ after.Stands rest errors := by
  obtain ⟨name, parameters, locals, statements⟩ := derived
  simp only [List.cons_append, List.append_assoc, List.nil_append] at stands
  refine gives_expect_bind stands ?_
  intro begun begunStands
  refine gives_identifier_bind begunStands ?_
  intro position named namedStands
  refine gives_expect_bind namedStands ?_
  intro opened openedStands
  refine gives_lift_bind (Reader.parameters_gives parameters openedStands.kinds)
    openedStands.errors ?_
  intro params listed paramsEq listedStands
  refine gives_expect_bind listedStands ?_
  intro closed closedStands
  refine gives_lift_bind (Reader.locals_gives locals closedStands.kinds)
    closedStands.errors ?_
  intro declared reached declaredEq reachedStands
  refine gives_expect_bind reachedStands ?_
  intro body bodyStands
  refine gives_recoverer_bind (statements_yields statements rfl bodyStands) ?_
  rintro read last ⟨readEq, lastStands⟩
  refine gives_expect_bind lastStands ?_
  intro final finalStands
  exact gives_pure ⟨by rw [Function.erase, paramsEq, declaredEq, readEq],
    finalStands⟩

end Attempt

/-- The token that a function starts with. -/
def startsDefinition (kind : Token.Kind) : Bool :=
  kind = .keyword .funWord

theorem definition_starts : Starts startsDefinition Definition := by
  rintro _ _ ⟨name, parameters, locals, statements⟩
  exact ⟨_, _, rfl, rfl⟩

namespace Recoverer

theorem functionsWithin_tracks (limit : Nat) (state : Recovery) :
    Tracks (functionsWithin limit) state fun functions _ =>
      state.cursor.kinds.length ≤ limit →
        ∃ words, state.cursor.kinds = words.flatten ∧
        List.Forall₂ Definition words (functions.map Function.erase) := by
  induction limit generalizing state with
  | zero =>
      refine tracks_pure ?_
      intro short
      exact ⟨[], List.eq_nil_of_length_eq_zero (Nat.le_zero.mp short), .nil⟩
  | succ limit ih =>
      refine tracks_bind_of_eq (next?_apply state) ?_
      split
      · next atEnd =>
          refine tracks_pure ?_
          intro _
          exact ⟨[], List.head?_eq_none_iff.mp atEnd, .nil⟩
      · next head =>
          refine tracks_recovered_bind ?_
          refine (attempt_tracks (Attempt.function_tracks _)).bind ?_
          intro result after
          cases result with
          | ok function =>
              refine (ih after).bind ?_
              intro others last
              refine tracks_pure ?_
              intro read readFirst short
              obtain ⟨word, wordEq, derived⟩ := readFirst function rfl
              -- A function has at least one token, so the bound still covers
              -- what is left.
              obtain ⟨kind, rest, rfl, _⟩ := definition_starts word _ derived
              have lengthEq : state.cursor.kinds.length =
                  (kind :: rest).length + after.cursor.kinds.length := by
                rw [← List.length_append, ← wordEq]
                rfl
              rw [List.length_cons] at lengthEq
              obtain ⟨words, wordsEq, each⟩ := read (by omega)
              refine ⟨(kind :: rest) :: words, ?_, .cons derived each⟩
              rw [List.flatten_cons, ← wordsEq]
              exact wordEq
          | error expected =>
              refine tracks_report_bind ?_
              intro reported
              refine tracks_bind_of_eq (next?_apply reported) ?_
              split
              · exact (ih _).mono fun _ _ _ => trivial
              · exact tracks_bind_of_eq (advance_apply reported)
                  ((ih _).mono fun _ _ _ => trivial)
      · refine tracks_report_bind ?_
        intro reported
        exact tracks_bind_of_eq (advance_apply reported)
          ((ih _).mono fun _ _ _ => trivial)

theorem discard_apply_of_eq {α : Type} {reader : Recoverer α}
    {state after : Recovery} {value : α} (ran : reader state = (value, after)) :
    (discard reader : Recoverer Unit) state = ((), after) := by
  change ((), (reader state).2) = _
  rw [ran]

/-- The end of the input, which is reported if it is missing. -/
def inputEnd (program : Program) : Recoverer Program := do
  if (← next?).isSome then
    report .endOfInput
    modify fun state =>
      { state with cursor := { state.cursor with tokens := [] } }
  return program

/-- What follows the statement of a program. -/
def ending (program : Program) : Recoverer Program := do
  discard <| accept (.symbol .semicolon)
  inputEnd program

/-- A program that is a single statement, by whether the statement could be
read. -/
theorem statementProgram_eq :
    statementProgram = (do
      match ← attempt Attempt.statement with
      | .ok statement => ending (.statement statement)
      | .error expected =>
        report expected
        advance
        ending (.functions [])) := by
  funext state
  cases ran : attempt Attempt.statement state with
  | mk result rest =>
      rw [statementProgram, bind_apply_of_eq ran, bind_apply_of_eq ran]
      cases result with
      | ok statement => rfl
      | error expected => rfl

theorem inputEnd_tracks (program : Program) (state : Recovery) :
    Tracks (inputEnd program) state fun result _ =>
      result = program ∧ state.cursor.kinds = [] := by
  refine tracks_bind_of_eq (next?_apply state) ?_
  split
  · refine tracks_report_bind ?_
    intro reported
    exact tracks_bind_of_eq rfl (tracks_pure trivial)
  · next atEnd =>
      refine tracks_pure ⟨rfl, ?_⟩
      rwa [Bool.not_eq_true, Option.isSome_eq_false_iff,
        Option.isNone_iff_eq_none, List.head?_eq_none_iff] at atEnd

/-- After the statement of a program there is at most a semicolon, or an error
is reported. -/
theorem ending_tracks (program : Program) (state : Recovery) :
    Tracks (ending program) state fun result _ =>
      result = program ∧ Optional (.symbol .semicolon) state.cursor.kinds := by
  by_cases found : state.cursor.kinds.head? = some (.symbol .semicolon)
  · refine tracks_bind_of_eq (discard_apply_of_eq (accept_of_head found)) ?_
    refine (inputEnd_tracks program _).mono ?_
    rintro _ _ ⟨rfl, atEnd⟩
    have kindsEq : state.cursor.kinds = [.symbol .semicolon] := by
      rw [Cursor.kinds_eq_cons found]
      exact congrArg _ atEnd
    exact ⟨rfl, by rw [kindsEq]; exact .present⟩
  · refine tracks_bind_of_eq (discard_apply_of_eq (accept_of_ne found)) ?_
    refine (inputEnd_tracks program _).mono ?_
    rintro _ _ ⟨rfl, atEnd⟩
    have kindsEq : state.cursor.kinds = [] := atEnd
    exact ⟨rfl, by rw [kindsEq]; exact .absent⟩

theorem statementProgram_tracks (state : Recovery) :
    Tracks statementProgram state fun program _ =>
      Derives state.cursor.kinds program.erase := by
  refine (attempt_tracks (Attempt.statement_tracks state)).bind ?_
  intro result after
  cases result with
  | error expected =>
      refine tracks_report_bind ?_
      intro reported
      exact tracks_bind_of_eq (advance_apply reported)
        ((ending_tracks (.functions []) _).mono fun _ _ _ => trivial)
  | ok body =>
      refine (ending_tracks (.statement body) after).mono ?_
      rintro _ _ ⟨rfl, ended⟩ read
      obtain ⟨word, wordEq, derived, _⟩ := read body rfl
      rw [wordEq]
      exact .statement derived ended

theorem program_tracks (state : Recovery) :
    Tracks program state fun result _ =>
      Derives state.cursor.kinds result.erase := by
  refine tracks_bind_of_eq (next?_apply state) ?_
  split
  · exact tracks_report_bind fun _ => tracks_pure trivial
  · next head =>
      refine tracks_bind_of_eq (remaining_apply state) ?_
      refine (functionsWithin_tracks _ state).bind ?_
      intro functions _
      refine tracks_pure ?_
      intro read
      obtain ⟨words, wordsEq, each⟩ := read (Nat.le_refl _)
      have nonempty : functions.map Function.erase ≠ [] := by
        intro none
        rw [none] at each
        cases each
        rw [wordsEq] at head
        cases head
      rw [wordsEq]
      exact .functions each nonempty
  · exact statementProgram_tracks state

theorem functionsWithin_yields {limit : Nat} {words : List Word}
    {trees : List Function} {errors : List SyntaxError} {state : Recovery}
    (each : List.Forall₂ Definition words trees) (fits : words.length ≤ limit)
    (stands : state.Stands words.flatten errors) :
    Yields (functionsWithin limit) state fun functions after =>
      functions.map Function.erase = trees ∧ after.errors = errors := by
  induction each generalizing limit state with
  | nil =>
      cases limit with
      | zero => exact yields_pure ⟨rfl, stands.errors⟩
      | succ limit =>
          refine yields_bind_of_eq (next?_apply state) ?_
          rw [stands.kinds]
          exact yields_pure ⟨rfl, stands.errors⟩
  | @cons word tree words trees derived each ih =>
      obtain ⟨smaller, rfl⟩ : ∃ smaller, limit = smaller + 1 :=
        ⟨limit - 1, by simp at fits; omega⟩
      rw [List.flatten_cons] at stands
      obtain ⟨kind, others, rfl, isFun⟩ := definition_starts word tree derived
      obtain rfl : kind = .keyword .funWord := by simpa [startsDefinition]
        using isFun
      refine yields_bind_of_eq (next?_apply state) ?_
      rw [stands.kinds]
      refine yields_bind_of_eq (recovered_apply state) ?_
      have afresh : state.recovered.Stands _ errors :=
        ⟨stands.kinds, stands.errors⟩
      refine (attempt_yields (Attempt.function_gives derived afresh)).bind ?_
      rintro _ after ⟨function, rfl, functionEq, afterStands⟩
      refine (ih (Nat.le_of_succ_le_succ fits) afterStands).bind ?_
      rintro others last ⟨othersEq, errorsEq⟩
      exact yields_pure ⟨by rw [List.map_cons, functionEq, othersEq], errorsEq⟩

theorem inputEnd_yields (program : Program) {state : Recovery}
    {errors : List SyntaxError} (stands : state.Stands [] errors) :
    Yields (inputEnd program) state fun result after =>
      result = program ∧ after.errors = errors := by
  refine yields_bind_of_eq (next?_apply state) ?_
  rw [stands.kinds]
  exact yields_pure ⟨rfl, stands.errors⟩

theorem statementProgram_yields {word tail : Word} {body : Stmt}
    {errors : List SyntaxError} {state : Recovery}
    (single : Statement word body)
    (ended : Optional (.symbol .semicolon) tail)
    (stands : state.Stands (word ++ tail) errors) :
    Yields statementProgram state fun program after =>
      program.erase = .statement body ∧ after.errors = errors := by
  have canEnd : Attempt.CanEnd body tail := by
    cases ended with
    | absent => exact Attempt.listEnds_canEnd rfl body
    | present => exact Attempt.semicolon_canEnd body []
  refine (attempt_yields
    (Attempt.statement_reads word.length word body tail errors state single
    (Nat.le_refl _) canEnd stands)).bind ?_
  rintro _ after ⟨value, rfl, valueEq, afterStands⟩
  have programEq : (Program.statement value).erase = .statement body := by
    rw [Program.erase, valueEq]
  cases ended with
  | absent =>
      have noSemicolon :
          after.cursor.kinds.head? ≠ some (.symbol .semicolon) := by
        rw [afterStands.kinds]
        simp
      refine yields_bind_of_eq
        (discard_apply_of_eq (accept_of_ne noSemicolon)) ?_
      obtain ⟨resultEq, errorsEq⟩ :=
        inputEnd_yields (.statement value) afterStands
      exact ⟨(congrArg Program.erase resultEq).trans programEq, errorsEq⟩
  | present =>
      have semicolon :
          after.cursor.kinds.head? = some (.symbol .semicolon) := by
        rw [afterStands.kinds]
        rfl
      have endStands : after.advance.Stands [] errors :=
        ⟨by rw [Recovery.advance, Cursor.kinds_advance, afterStands.kinds]; rfl,
          afterStands.errors⟩
      refine yields_bind_of_eq
        (discard_apply_of_eq (accept_of_head semicolon)) ?_
      obtain ⟨resultEq, errorsEq⟩ :=
        inputEnd_yields (.statement value) endStands
      exact ⟨(congrArg Program.erase resultEq).trans programEq, errorsEq⟩

theorem length_le_length_flatten {words : List Word} {trees : List Function}
    (each : List.Forall₂ Definition words trees) :
    words.length ≤ words.flatten.length := by
  induction each with
  | nil => simp
  | @cons word tree words trees derived each ih =>
      obtain ⟨kind, others, rfl, _⟩ := definition_starts word tree derived
      simp only [List.length_cons, List.flatten_cons, List.length_append]
      omega

theorem program_yields {word : Word} {tree : Program}
    {errors : List SyntaxError} {state : Recovery} (derived : Derives word tree)
    (stands : state.Stands word errors) :
    Yields program state fun result after =>
      result.erase = tree ∧ after.errors = errors := by
  refine yields_bind_of_eq (next?_apply state) ?_
  cases derived with
  | @functions words trees each nonempty =>
      have head : state.cursor.kinds.head? = some (.keyword .funWord) := by
        cases each with
        | nil => exact absurd rfl nonempty
        | cons derived each =>
            obtain ⟨kind, others, rfl, isFun⟩ := definition_starts _ _ derived
            obtain rfl : kind = .keyword .funWord := by simpa [startsDefinition]
              using isFun
            rw [stands.kinds]
            rfl
      rw [head]
      refine yields_bind_of_eq (remaining_apply state) ?_
      rw [stands.kinds]
      refine (functionsWithin_yields each (length_le_length_flatten each)
        stands).bind ?_
      rintro functions last ⟨functionsEq, errorsEq⟩
      exact yields_pure ⟨by rw [Program.erase, functionsEq], errorsEq⟩
  | @statement word tail body single ended =>
      obtain ⟨kind, others, wordEq, isStart⟩ :=
        Attempt.statement_starts word body single
      have head : state.cursor.kinds.head? = some kind := by
        rw [stands.kinds, wordEq]
        rfl
      split
      · next atEnd =>
          rw [head] at atEnd
          cases atEnd
      · next isFun =>
          rw [head] at isFun
          cases isFun
          cases isStart
      · exact statementProgram_yields single ended stands

end Recoverer

/-- The kinds of the tokens before the end of the input. -/
def inputKinds (tokens : List Token) : Word :=
  (tokens.takeWhile fun token => token.kind ≠ .endOfInput).map Token.kind

theorem derives_of_errors_eq_nil {tokens : List Token}
    (noErrors : (readProgram tokens).errors = []) :
    Derives (inputKinds tokens) (readProgram tokens).program.erase := by
  have sane : Recovery.Sane ⟨Cursor.ofTokens tokens, [], false⟩ := by
    rintro ⟨⟩
  exact (Recoverer.program_tracks _ sane).holds noErrors

theorem readProgram_of_derives {tokens : List Token} {tree : Program}
    (derived : Derives (inputKinds tokens) tree) :
    (readProgram tokens).errors = [] ∧
      (readProgram tokens).program.erase = tree := by
  have stands : Recovery.Stands ⟨Cursor.ofTokens tokens, [],
      false⟩ (inputKinds tokens) [] :=
    ⟨rfl, rfl⟩
  exact (Recoverer.program_yields derived stands).symm

/-- Reading accepts exactly the programs of the grammar, and reads the one
tree that each of them has. -/
theorem readProgram_exact (tokens : List Token) :
    ((readProgram tokens).errors = [] ↔
      ∃ tree, Derives (inputKinds tokens) tree) ∧
      ∀ tree, Derives (inputKinds tokens) tree ↔
        (readProgram tokens).errors = [] ∧
          tree = (readProgram tokens).program.erase := by
  refine ⟨⟨?_, ?_⟩, ?_⟩
  · intro noErrors
    exact ⟨_, derives_of_errors_eq_nil noErrors⟩
  · rintro ⟨tree, derived⟩
    exact (readProgram_of_derives derived).1
  · intro tree
    constructor
    · intro derived
      obtain ⟨noErrors, treeEq⟩ := readProgram_of_derives derived
      exact ⟨noErrors, treeEq.symm⟩
    · rintro ⟨noErrors, rfl⟩
      exact derives_of_errors_eq_nil noErrors

end PL0
