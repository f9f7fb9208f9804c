import PL0.Grammar.Program
import PL0.Proofs.Reading.Statements

/-!
# Functions in another setting

A `fun` is passed over only where a function starts.  What comes after it is
read in another setting as it is on its own, as long as the rest of the piece
shows nothing of what comes behind.  The functions of a program are read in
rounds, each of which takes at least one token.
-/

namespace PL0

namespace Setting

variable {setting : Setting}

section Declarations

variable {cursor : Cursor}

theorem arraySize_follows (fits : setting.Fits cursor) :
    setting.Follows (ArraySize.displace setting.toDisplacement) Reader.arraySize
      Reader.arraySize 0 cursor := by
  have dynamic : setting.Follows (ArraySize.displace setting.toDisplacement)
      (do return .dynamic (← Reader.expr)) (do return .dynamic (← Reader.expr))
        0 cursor := by
    apply ((expr_follows fits).mono (Nat.zero_le 1)).readerBind fits
    intro count rest _ _
    exact follows_build rfl
  unfold Reader.arraySize
  apply follows_next?_bind fits
  by_cases isNumber : ∃ value, cursor.kinds.head? = some (.integer value)
  · obtain ⟨value, head⟩ := isNumber
    apply follows_second?_bind fits head (by simp)
    rw [head]
    split
    · next number isInteger _ =>
        cases isInteger
        by_cases positive : 0 ≤ value
        · rw [if_pos positive]
          apply follows_advance_bind fits head (by simp)
          intro rest _ _ _
          exact follows_build rfl
        · rw [if_neg positive]
          exact dynamic
    · exact dynamic
  · -- What comes after the next token is looked at, but makes no difference.
    have shownRan : Reader.second? (setting.cursor cursor) =
        .ok (setting.cursor cursor).kinds.tail.head? (setting.cursor cursor) :=
      Reader.second?_apply _
    apply follows_bind_of_ok (Reader.second?_apply cursor) shownRan
      (Cursor.Passes.refl cursor)
    split
    · next value head _ => exact absurd ⟨value, head⟩ isNumber
    · split
      · next value head _ => exact absurd ⟨value, head⟩ isNumber
      · exact dynamic

theorem baseType_follows (fits : setting.Fits cursor) :
    setting.Follows id Reader.baseType Reader.baseType 1 cursor := by
  unfold Reader.baseType
  apply follows_next?_bind fits
  split
  · next head =>
      apply follows_advance_bind fits head (by simp)
      intro rest _ _ _
      exact follows_build rfl
  · next head =>
      apply follows_advance_bind fits head (by simp)
      intro rest _ _ _
      exact follows_build rfl
  · exact follows_throw

theorem declaredType_follows (fits : setting.Fits cursor) :
    setting.Follows (DeclaredType.displace setting.toDisplacement)
      Reader.declaredType Reader.declaredType 1 cursor := by
  apply (baseType_follows fits).readerBind fits
  intro base reached reachedFits _
  apply follows_accept_bind reachedFits (by simp)
  · intro opened openedFits _ _
    apply (arraySize_follows openedFits).readerBind openedFits
    intro size sized sizedFits _
    apply follows_expect_bind sizedFits (by simp)
    intro closed _ _
    exact follows_build rfl
  · intro _
    exact follows_build rfl

theorem declaration_follows (expected : Expectation)
    (fits : setting.Fits cursor) :
    setting.Follows (Declaration.displace setting.toDisplacement)
      (Reader.declaration expected) (Reader.declaration expected) 1 cursor := by
  apply follows_identifier_bind fits
  intro name position named namedFits _
  apply follows_expect_bind namedFits (by simp)
  intro behind behindFits _
  apply ((declaredType_follows behindFits).mono (Nat.zero_le 1)).readerBind
    behindFits
  intro type rest _ _
  exact follows_build rfl

theorem parameters_follows (fits : setting.Fits cursor) :
    setting.Follows (List.map (Declaration.displace setting.toDisplacement))
      Reader.parameters Reader.parameters 0 cursor := by
  apply follows_next?_bind fits
  by_cases closing : cursor.kinds.head? = some (.symbol .closeParen)
  · rw [if_pos closing]
    exact follows_build rfl
  · rw [if_neg closing]
    have shownRan : Reader.remaining (setting.cursor cursor) =
        .ok (setting.cursor cursor).kinds.length (setting.cursor cursor) :=
      Reader.remaining_apply _
    apply follows_bind_of_ok (Reader.remaining_apply cursor) shownRan
      (Cursor.Passes.refl cursor)
    have each :
        setting.Mirrors cursor.span
          (Declaration.displace setting.toDisplacement)
          (Reader.declaration .parameterName)
          (Reader.declaration .parameterName) 1 :=
      fun _ fits _ => declaration_follows _ fits
    have listed := commaList_mirrors each cursor.span_le_length
      (setting.span_le_length_cursor cursor) (Nat.le_refl cursor.span)
    exact (listed cursor fits (Nat.le_refl _)).mono (Nat.zero_le 1)

/-- Without an identifier there are no more local variables. -/
theorem localsWithin_of_ne {limit : Nat}
    (other : ∀ name, cursor.kinds.head? ≠ some (.identifier name)) :
    Reader.localsWithin limit cursor = .ok [] cursor := by
  cases limit with
  | zero => rfl
  | succ limit =>
      rw [Reader.localsWithin, bind_apply_of_ok (Reader.next?_apply cursor)]
      cases headEq : cursor.kinds.head? with
      | none => rfl
      | some kind =>
          cases kind with
          | identifier name => exact absurd headEq (other name)
          | _ => rfl

theorem localsWithin_follows {limit shownLimit : Nat}
    (fits : setting.Fits cursor) (enough : cursor.span ≤ limit)
    (shownEnough : cursor.span ≤ shownLimit) :
    setting.Follows (List.map (Declaration.displace setting.toDisplacement))
      (Reader.localsWithin shownLimit) (Reader.localsWithin limit) 0
        cursor := by
  induction limit using Nat.strongRecOn generalizing shownLimit cursor with
  | _ limit ih =>
      by_cases isName : ∃ name, cursor.kinds.head? = some (.identifier name)
      · obtain ⟨name, head⟩ := isName
        -- An identifier is a token before the next function, so neither bound
        -- is used up.
        have left := Cursor.span_pos head (by simp)
        obtain ⟨limit, rfl⟩ : ∃ fewer, limit = fewer + 1 :=
          ⟨limit - 1, by omega⟩
        obtain ⟨shownLimit, rfl⟩ : ∃ fewer, shownLimit = fewer + 1 :=
          ⟨shownLimit - 1, by omega⟩
        rw [Reader.localsWithin, Reader.localsWithin]
        apply follows_next?_bind fits
        simp only [head]
        apply ((declaration_follows .variableName fits).mono
          (Nat.zero_le 1)).readerBind fits
        intro first reached reachedFits _
        apply follows_accept_bind reachedFits (by simp)
        · intro behind behindFits _ shorter
          apply (ih limit (by omega) behindFits (by omega)
            (by omega)).readerBind behindFits
          intro others last _ _
          exact follows_build rfl
        · intro _
          exact follows_build rfl
      · have other : ∀ name, cursor.kinds.head? ≠ some (.identifier name) :=
          fun name head => isName ⟨name, head⟩
        have shownRan : Reader.localsWithin shownLimit (setting.cursor cursor) =
            .ok [] (setting.cursor cursor) :=
          localsWithin_of_ne (by rwa [fits.head?])
        exact follows_of_ok (localsWithin_of_ne other) shownRan
          (Cursor.Passes.refl cursor)

theorem locals_follows (fits : setting.Fits cursor) :
    setting.Follows (List.map (Declaration.displace setting.toDisplacement))
      Reader.locals Reader.locals 0 cursor := by
  have shownRan : Reader.remaining (setting.cursor cursor) =
      .ok (setting.cursor cursor).kinds.length (setting.cursor cursor) :=
    Reader.remaining_apply _
  apply follows_bind_of_ok (Reader.remaining_apply cursor) shownRan
    (Cursor.Passes.refl cursor)
  exact localsWithin_follows fits cursor.span_le_length
    (setting.span_le_length_cursor cursor)

end Declarations

end Setting

/-- What comes after the `fun` of a function. -/
def Attempt.functionRest : Attempt Function := do
  let (name, position) ← Reader.identifier .functionName
  Reader.expect (.symbol .openParen) .openAfterFunctionName
  let params ← Reader.parameters
  Reader.expect (.symbol .closeParen) .closeAfterParameters
  let locals ← Reader.locals
  Reader.expect (.keyword .beginWord) .beginBeforeBody
  let body ← statements
  Reader.expect (.keyword .endWord) .endAfterBody
  return { name, params, locals, body, position }

theorem Attempt.function_of_head {state : Recovery}
    (head : state.cursor.kinds.head? = some (.keyword .funWord)) :
    Attempt.function state = Attempt.functionRest state.advance :=
  bind_apply_of_ok (Attempt.lift_apply_of_ok (Reader.expect_of_head head))

namespace Setting

variable {setting : Setting} {state : Recovery}

theorem functionRest_follows (fits : setting.Fits state.cursor) :
    setting.Follows (Function.displace setting.toDisplacement)
      Attempt.functionRest Attempt.functionRest 0 state := by
  apply (identifier_follows .functionName fits).lift.attemptBind fits
  rintro ⟨name, position⟩ begun begunFits _
  apply follows_lift_expect_bind begunFits (by simp)
  intro opened openedFits _
  apply (parameters_follows openedFits).lift.attemptBind openedFits
  intro params listed listedFits _
  apply follows_lift_expect_bind listedFits (by simp)
  intro closed closedFits _
  apply (locals_follows closedFits).lift.attemptBind closedFits
  intro declared reached reachedFits _
  apply follows_lift_expect_bind reachedFits (by simp)
  intro body bodyFits _
  apply (statements_repeats bodyFits).lift.attemptBind bodyFits
  intro statements last lastFits _
  apply follows_lift_expect_bind lastFits (by simp)
  intro final _ _
  exact follows_build rfl

end Setting

namespace Recoverer

/-- One round of reading functions: a function, if one starts here and can be
read. -/
def round : Recoverer (Option Function) := do
  match ← next? with
  | some (.keyword .funWord) =>
    recovered
    match ← attempt Attempt.function with
    | .ok function => return some function
    | .error expected =>
      report expected
      unless (← next?) = some (.keyword .funWord) do
        advance
      return none
  | _ =>
    report .function
    advance
    return none

variable {state : Recovery} {kind : Token.Kind}

theorem functionsWithin_of_kinds_eq_nil (ended : state.cursor.kinds = [])
    (limit : Nat) : functionsWithin limit state = ([], state) := by
  cases limit with
  | zero => rfl
  | succ limit =>
      rw [functionsWithin, bind_apply_of_eq (next?_apply state), ended]
      rfl

theorem report_apply (expected : Expectation) (state : Recovery) :
    report expected state = ((), state.report expected) :=
  rfl

theorem functionsWithin_succ (head : state.cursor.kinds.head? = some kind)
    (limit : Nat) :
    functionsWithin (limit + 1) state =
      (do return (← round).toList ++ (← functionsWithin limit) : Recoverer _)
        state := by
  by_cases isFun : kind = .keyword .funWord
  · subst isFun
    rw [functionsWithin, round, bind_assoc]
    simp only [bind_apply_of_eq (next?_apply state), head, bind_assoc,
      bind_apply_of_eq (recovered_apply state)]
    cases ran : attempt Attempt.function state.recovered with
    | mk result rest =>
        simp only [bind_apply_of_eq ran]
        cases result with
        | ok function => rfl
        | error expected =>
            simp only [bind_assoc,
              bind_apply_of_eq (report_apply expected rest),
              bind_apply_of_eq (next?_apply _)]
            split
            · rfl
            · rfl
  · rw [functionsWithin, round, bind_assoc]
    simp only [bind_apply_of_eq (next?_apply state), head]
    cases kind with
    | keyword word =>
        cases word with
        | funWord => exact absurd rfl isFun
        | _ => rfl
    | _ => rfl

theorem functionsWithin_of_round {limit : Nat} {first : Option Function}
    {rest : Recovery} {others : List Function × Recovery}
    (head : state.cursor.kinds.head? = some kind)
    (ran : round state = (first, rest))
    (more : functionsWithin limit rest = others) :
    functionsWithin (limit + 1) state = (first.toList ++ others.1,
      others.2) := by
  rw [functionsWithin_succ head, bind_apply_of_eq ran, bind_apply_of_eq more]
  rfl

end Recoverer

namespace Recovery

variable {state rest : Recovery} {count : Nat} {kind : Token.Kind}

/-- After a round of reading functions the next token has been passed, but no
`fun` after it, and that the input ended has been reported only if it did. -/
structure Continues (state rest : Recovery) : Prop where
  cursor : state.cursor.advance.Passes 0 rest.cursor
  errors : ∃ reported, rest.errors = state.errors ++ reported ∧
    (rest.cursor.kinds ≠ [] → ∀ error ∈ reported, error.isAtEnd = false)

theorem Passes.quiet (passes : state.Passes count rest) :
    ∃ reported, rest.errors = state.errors ++ reported ∧
      (rest.cursor.kinds ≠ [] → ∀ error ∈ reported, error.isAtEnd = false) := by
  obtain ⟨reported, errorsEq, each⟩ := passes.errors
  refine ⟨reported, errorsEq, ?_⟩
  intro more error member
  obtain ⟨between, expected, _, later, rfl⟩ := each error member
  obtain ⟨passed, tokensEq, _, _⟩ := later.tokens
  have left : between.tokens ≠ [] := by
    intro none
    rw [none] at tokensEq
    have restNone : rest.cursor.tokens = [] :=
      (List.append_eq_nil_iff.mp tokensEq.symm).2
    exact more (by rw [Cursor.kinds, restNone]; rfl)
  obtain ⟨token, others, betweenEq⟩ := List.exists_cons_of_ne_nil left
  simp [Cursor.unexpected, SyntaxError.isAtEnd, Cursor.next?, betweenEq]

theorem Continues.of_passes
    (passes : state.recovered.advance.Passes count rest) :
    state.Continues rest :=
  ⟨passes.cursor.mono (Nat.zero_le count), passes.quiet⟩

/-- Past the end of the input nothing changes. -/
theorem passes_advance_of_ne
    (other : state.cursor.kinds.head? ≠ some (.keyword .funWord)) :
    state.Passes 0 state.advance := by
  cases head : state.cursor.kinds.head? with
  | some kind =>
      have plain : kind ≠ .keyword .funWord := by
        rintro rfl
        exact other head
      exact .of_cursor ((Cursor.passes_advance head plain).mono (Nat.zero_le 1))
  | none =>
      have ended : state.cursor.tokens = [] := by
        simpa [Cursor.kinds] using head
      have same : state.cursor.advance.tokens = state.cursor.tokens := by
        simp [Cursor.advance, ended]
      exact .of_cursor ⟨rfl, [], same.symm, Nat.le_refl 0, by simp⟩

end Recovery

namespace Setting

variable {setting : Setting} {state : Recovery} {kind : Token.Kind}

theorem Fits.of_advance {cursor : Cursor}
    (ahead : setting.Fits cursor.advance) : setting.Fits cursor := by
  rcases ahead with hidden | ended
  · left
    rw [Cursor.kinds_advance] at hidden
    exact List.mem_of_mem_tail hidden
  · exact .inr ended

theorem attempt_function_of_head
    (head : state.cursor.kinds.head? = some (.keyword .funWord)) :
    Recoverer.attempt Attempt.function state =
      Recoverer.attempt Attempt.functionRest state.advance := by
  simp only [Recoverer.attempt, Attempt.function_of_head head]

theorem attempt_function_repeats (ahead : setting.Fits state.cursor.advance)
    (head : state.cursor.kinds.head? = some (.keyword .funWord)) :
    setting.Repeats (Except.map (Function.displace setting.toDisplacement))
      (Recoverer.attempt Attempt.function) (Recoverer.attempt Attempt.function)
        state
      fun _ rest => state.advance.Passes 0 rest := by
  have fits := ahead.of_advance
  have shownHead : (setting.recovery state).cursor.kinds.head? =
      some (.keyword .funWord) := by
    rw [← head, ← fits.head?]
    rfl
  have read :
      setting.Follows (Function.displace setting.toDisplacement)
        Attempt.functionRest
        Attempt.functionRest 0 state.advance := functionRest_follows ahead
  obtain ⟨value, rest, ran, shownRan, passes, _⟩ := attempt_repeats read
  refine ⟨value, rest, ?_, ?_, passes⟩
  · rw [attempt_function_of_head head, ran]
  · rw [attempt_function_of_head shownHead, fits.recovery_advance, shownRan]

/-- A function that starts here is read, or it is given up at the next `fun`
or behind the token that did not fit. -/
theorem round_repeats_of_fun (ahead : setting.Fits state.cursor.advance)
    (head : state.cursor.kinds.head? = some (.keyword .funWord)) :
    setting.Repeats (Option.map (Function.displace setting.toDisplacement))
      Recoverer.round
      Recoverer.round state fun _ rest => state.Continues rest := by
  have read :
      setting.Repeats (Except.map (Function.displace setting.toDisplacement))
        (Recoverer.attempt Attempt.function)
        (Recoverer.attempt Attempt.function) state.recovered
        fun _ rest => state.recovered.advance.Passes 0 rest :=
    attempt_function_repeats ahead head
  unfold Recoverer.round
  apply repeats_next?_bind ahead.of_advance
  simp only [head]
  apply repeats_recovered_bind
  apply read.bind
  intro result rest passes
  cases result with
  | ok function => exact repeats_pure rfl (.of_passes passes)
  | error expected =>
      have reported := passes.trans (.report rest expected)
      have reportedFits : setting.Fits (rest.report expected).cursor :=
        ahead.of_passes reported.cursor
      apply repeats_report_bind (ahead.of_passes passes.cursor)
      apply repeats_next?_bind reportedFits
      by_cases again : (rest.report expected).cursor.kinds.head? =
        some (.keyword .funWord)
      · rw [if_pos again]
        exact repeats_pure rfl (.of_passes reported)
      · rw [if_neg again]
        apply repeats_advance_bind reportedFits
        exact repeats_pure rfl
          (.of_passes (reported.trans (Recovery.passes_advance_of_ne again)))

theorem round_repeats (ahead : setting.Fits state.cursor.advance)
    (head : state.cursor.kinds.head? = some kind) :
    setting.Repeats (Option.map (Function.displace setting.toDisplacement))
      Recoverer.round
      Recoverer.round state fun _ rest => state.Continues rest := by
  by_cases isFun : kind = .keyword .funWord
  · subst isFun
    exact round_repeats_of_fun ahead head
  · have fits := ahead.of_advance
    have more : (state.report .function).cursor.kinds ≠ [] := by
      rw [Recovery.report_cursor]
      intro none
      simp [none] at head
    obtain ⟨reported, errorsEq, quiet⟩ :=
      (Recovery.Passes.report state .function).quiet
    unfold Recoverer.round
    apply repeats_next?_bind fits
    split
    · next isFunWord =>
        rw [head] at isFunWord
        cases isFunWord
        exact absurd rfl isFun
    · apply repeats_report_bind fits
      apply repeats_advance_bind (by rwa [Recovery.report_cursor])
      have continues : state.Continues (state.report .function).advance := by
        refine ⟨?_, reported, errorsEq, fun _ => quiet more⟩
        rw [Recovery.advance, Recovery.report_cursor]
        exact .refl _
      exact repeats_pure rfl continues

theorem functionsWithin_repeats (ends : setting.Ends state.cursor)
    (limit : Nat) :
    setting.Repeats (List.map (Function.displace setting.toDisplacement))
      (Recoverer.functionsWithin limit) (Recoverer.functionsWithin limit) state
      fun _ rest => setting.Ends rest.cursor := by
  induction limit generalizing state with
  | zero => exact repeats_pure rfl ends
  | succ limit ih =>
      have fits : setting.Fits state.cursor := .inr ends
      cases head : state.cursor.kinds.head? with
      | none =>
          have shownHead :
              (setting.recovery state).cursor.kinds.head? = none := by
            rw [← head, ← fits.head?]
            rfl
          rw [List.head?_eq_none_iff] at head shownHead
          exact ⟨[], state, Recoverer.functionsWithin_of_kinds_eq_nil head _,
            Recoverer.functionsWithin_of_kinds_eq_nil shownHead _, ends⟩
      | some kind =>
          have shownHead :
              (setting.recovery state).cursor.kinds.head? = some kind := by
            rw [← head, ← fits.head?]
            rfl
          apply repeats_of_eq (Recoverer.functionsWithin_succ head limit)
            (Recoverer.functionsWithin_succ shownHead limit)
          apply (round_repeats (.inr ends) head).bind
          intro first reached continues
          have ahead : setting.Ends state.cursor.advance := ends
          apply (ih (ahead.of_passes continues.cursor)).bind
          intro others last lastEnds
          refine repeats_pure ?_ lastEnds
          cases first <;> simp

/-- The setting of a piece that is as it was, with tokens behind it. -/
def before (behind : List Token) (stop : Position) : Setting :=
  { toDisplacement := .renumber 0, behind, stop, earlier := [],
    quiet := quiet_nil }

end Setting

namespace Recoverer

variable {state : Recovery} {kind : Token.Kind}

theorem round_continues {first : Option Function} {rest : Recovery}
    (head : state.cursor.kinds.head? = some kind)
    (ran : round state = (first, rest)) :
    state.Continues rest := by
  have ends : (Setting.before [] state.cursor.stop).Ends state.cursor.advance :=
    ⟨rfl, rfl⟩
  obtain ⟨_, reached, reachedRan, _, continues⟩ :=
    Setting.round_repeats (.inr ends) head
  rw [ran] at reachedRan
  cases reachedRan
  exact continues

/-- A bound that covers the tokens does not matter. -/
theorem functionsWithin_eq_of_le {limit other : Nat}
    (enough : state.cursor.tokens.length ≤ limit)
    (otherEnough : state.cursor.tokens.length ≤ other) :
    functionsWithin limit state = functionsWithin other state := by
  induction limit generalizing state other with
  | zero =>
      have ended : state.cursor.kinds = [] := by
        rw [Cursor.kinds, List.eq_nil_of_length_eq_zero (Nat.le_zero.mp enough)]
        rfl
      rw [functionsWithin_of_kinds_eq_nil ended,
        functionsWithin_of_kinds_eq_nil ended]
  | succ limit ih =>
      cases tokensEq : state.cursor.tokens with
      | nil =>
          have ended : state.cursor.kinds = [] := by
            rw [Cursor.kinds, tokensEq]
            rfl
          rw [functionsWithin_of_kinds_eq_nil ended,
            functionsWithin_of_kinds_eq_nil ended]
      | cons token others =>
          have head : state.cursor.kinds.head? = some token.kind := by
            rw [Cursor.kinds, tokensEq]
            rfl
          cases ran : round state with
          | mk first rest =>
          have shorter := (round_continues head ran).cursor.length_le
          have advanced : state.cursor.advance.tokens.length + 1 =
              state.cursor.tokens.length := by
            simp [Cursor.advance, tokensEq]
          obtain ⟨other, rfl⟩ : ∃ fewer, other = fewer + 1 :=
            ⟨other - 1, by omega⟩
          have same : functionsWithin limit rest = functionsWithin other rest :=
            ih (by omega) (by omega)
          rw [functionsWithin_of_round head ran same,
            functionsWithin_of_round head ran rfl]

end Recoverer

end PL0
