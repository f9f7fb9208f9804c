import PL0.Proofs.Grammar.Statements
import PL0.Proofs.Reading.Expressions
import PL0.Proofs.Reading.Recovering

/-!
# Statements in another setting

A statement, however broken, is read in another setting as it is on its own:
the same part is left out and the same errors are reported.  Statements never
run past a `fun`, and a list of them takes a token in every round but the
last, so the bounds of the readers do not matter.
-/

namespace PL0.Setting

variable {setting : Setting} {state : Recovery}

section Lists

variable {shown statement : Attempt Stmt} {move : Stmt → Stmt}

theorem head_of_not_listEnds {word : Grammar.Word}
    (goesOn : ¬ Attempt.listEnds word = true) :
    ∃ kind, word.head? = some kind ∧ kind ≠ .keyword .funWord := by
  cases word with
  | nil => exact absurd rfl goesOn
  | cons kind others =>
      refine ⟨kind, rfl, ?_⟩
      rintro rfl
      exact goesOn (by simp [Attempt.listEnds])

theorem Fits.listEnds {cursor : Cursor} (fits : setting.Fits cursor) :
    Attempt.listEnds (setting.cursor cursor).kinds =
      Attempt.listEnds cursor.kinds := by
  have headEq := fits.head?
  cases shownEq : (setting.cursor cursor).kinds <;> cases kindsEq :
    cursor.kinds <;> simp_all [Attempt.listEnds]

theorem repeats_atListEnd_bind {α β : Type} {move : α → β}
    {shownNext : Bool → Recoverer β} {next : Bool → Recoverer α}
    {demand : α → Recovery → Prop}
    (fits : setting.Fits state.cursor)
    (further :
      setting.Repeats move (shownNext (Attempt.listEnds state.cursor.kinds))
      (next (Attempt.listEnds state.cursor.kinds)) state demand) :
    setting.Repeats move (Attempt.atListEnd >>= shownNext)
      (Attempt.atListEnd >>= next) state demand := by
  have shownRan : Attempt.atListEnd (setting.recovery state) =
      (Attempt.listEnds state.cursor.kinds, setting.recovery state) := by
    rw [Attempt.atListEnd_apply, ← fits.listEnds]
    rfl
  exact repeats_bind_of_eq (Attempt.atListEnd_apply state) shownRan further

/-- After an attempt at a statement a token has been passed, or the list is
over. -/
theorem listItem_repeats (fits : setting.Fits state.cursor)
    (follows : setting.Follows move shown statement 1 state) :
    setting.Repeats (Option.map move) (Attempt.listItem shown)
      (Attempt.listItem statement) state fun _ rest => state.Passes 0 rest ∧
        (state.Passes 1 rest ∨ Attempt.listEnds rest.cursor.kinds = true) := by
  unfold Attempt.listItem
  apply (attempt_repeats follows).bind
  rintro result rest ⟨passes, progress⟩
  cases result with
  | ok value =>
      have forward := progress value rfl
      have recovered : state.Passes 1 rest.recovered :=
        ⟨forward.cursor, forward.errors⟩
      apply repeats_recovered_bind
      exact repeats_pure rfl ⟨recovered.mono (Nat.zero_le 1), .inl recovered⟩
  | error expected =>
      have reported : state.Passes 0 (rest.report expected) :=
        passes.trans (.report rest expected)
      apply repeats_report_bind (fits.of_passes passes.cursor)
      apply repeats_atListEnd_bind (fits.of_passes reported.cursor)
      by_cases ended :
        Attempt.listEnds (rest.report expected).cursor.kinds = true
      · rw [if_pos ended]
        exact repeats_pure rfl ⟨reported, .inr ended⟩
      · rw [if_neg ended]
        obtain ⟨kind, head, plain⟩ := head_of_not_listEnds ended
        have advanced : state.Passes 1 (rest.report expected).advance := by
          have one :=
            reported.trans (.of_cursor (Cursor.passes_advance head plain))
          exact one.mono (by omega)
        apply repeats_advance_bind (fits.of_passes reported.cursor)
        exact repeats_pure rfl ⟨advanced.mono (Nat.zero_le 1), .inl advanced⟩

/-- Where the list is over, what comes between statements finds that it is. -/
theorem separator_repeats (fits : setting.Fits state.cursor) :
    setting.Repeats id Attempt.separator Attempt.separator state
      fun goesOn rest =>
      state.Passes 0 rest ∧
        (Attempt.listEnds state.cursor.kinds = true → goesOn = false) := by
  unfold Attempt.separator
  by_cases found : state.cursor.kinds.head? = some (.symbol .semicolon)
  · have shownRan :
        Recoverer.accept (.symbol .semicolon) (setting.recovery state) =
        (true, setting.recovery state.advance) := by
      rw [Recoverer.accept_of_head (by rw [← found, ← fits.head?]; rfl),
        fits.recovery_advance]
    have advanced : state.Passes 1 state.advance :=
      .of_cursor (Cursor.passes_advance found (by simp))
    have recovered : state.Passes 0 state.advance.recovered :=
      ⟨advanced.cursor.mono (Nat.zero_le 1), advanced.errors⟩
    apply repeats_bind_of_eq (Recoverer.accept_of_head found) shownRan
    apply repeats_recovered_bind
    apply repeats_atListEnd_bind (fits.of_passes recovered.cursor)
    apply repeats_pure rfl
    refine ⟨recovered, fun ended => ?_⟩
    -- A semicolon does not end a list.
    cases kindsEq : state.cursor.kinds with
    | nil => simp [kindsEq] at found
    | cons kind others =>
        rw [kindsEq] at found ended
        obtain rfl : kind = .symbol .semicolon := by simpa using found
        simp [Attempt.listEnds] at ended
  · have shownRan :
        Recoverer.accept (.symbol .semicolon) (setting.recovery state) =
        (false, setting.recovery state) :=
      Recoverer.accept_of_ne (by rw [← fits.head?] at found; exact found)
    apply repeats_bind_of_eq (Recoverer.accept_of_ne found) shownRan
    apply repeats_atListEnd_bind fits
    by_cases ended : Attempt.listEnds state.cursor.kinds = true
    · rw [ended]
      exact repeats_pure rfl ⟨.refl state, fun _ => rfl⟩
    · rw [Bool.not_eq_true] at ended
      rw [ended]
      apply repeats_report_bind fits
      exact repeats_pure rfl ⟨.report state _, by simp⟩

/-- The bounds cover a round for every token up to the next function and one
more. -/
theorem statementList_repeats {bound limit shownLimit : Nat}
    (statements : ∀ state : Recovery, setting.Fits state.cursor →
      state.cursor.span ≤ bound → setting.Follows move shown statement 1 state)
    (fits : setting.Fits state.cursor) (within : state.cursor.span ≤ bound)
    (enough : state.cursor.span < limit)
    (shownEnough : state.cursor.span < shownLimit) :
    setting.Repeats (List.map move) (Attempt.statementList shown shownLimit)
      (Attempt.statementList statement limit) state fun _ rest =>
        state.Passes 0 rest := by
  induction limit generalizing shownLimit state with
  | zero => omega
  | succ limit ih =>
      obtain ⟨shownLimit, rfl⟩ : ∃ fewer, shownLimit = fewer + 1 :=
        ⟨shownLimit - 1, by omega⟩
      rw [Attempt.statementList, Attempt.statementList]
      apply (listItem_repeats fits (statements state fits within)).bind
      rintro first reached ⟨passes, progress⟩
      have reachedFits := fits.of_passes passes.cursor
      apply (separator_repeats reachedFits).bind
      rintro goesOn behind ⟨further, ending⟩
      have all := passes.trans further
      cases goesOn with
      | false =>
          apply repeats_pure
          · cases first <;> rfl
          · exact all
      | true =>
          rcases progress with forward | ended
          · have shorter := (forward.trans further).cursor.span_le
            apply (ih (fits.of_passes all.cursor) (by omega) (by omega)
              (by omega)).bind
            intro others last more
            apply repeats_pure
            · cases first <;> simp
            · exact all.trans more
          · cases ending ended

end Lists

section Single

theorem callOrAssignment_follows {position : Position} {name : String}
    {cursor : Cursor} (fits : setting.Fits cursor)
    (head : cursor.kinds.head? = some (.identifier name)) :
    setting.Follows (Stmt.displace setting.toDisplacement)
      (Attempt.callOrAssignment (setting.position position) name)
      (Attempt.callOrAssignment position name) 1 cursor := by
  unfold Attempt.callOrAssignment
  apply follows_second?_bind fits head (by simp)
  by_cases isCall : cursor.kinds.tail.head? = some (.symbol .openParen)
  · rw [if_pos isCall, if_pos isCall]
    apply follows_advance_bind fits head (by simp)
    intro behind behindFits kindsEq _
    rw [kindsEq, List.tail_cons] at isCall
    apply follows_advance_bind behindFits isCall (by simp)
    intro opened openedFits _ _
    apply (arguments_follows openedFits).readerBind openedFits
    intro args rest _ _
    exact follows_build (by rw [Stmt.displace])
  · rw [if_neg isCall, if_neg isCall]
    apply (place_follows fits).readerBind fits
    intro target reached reachedFits _
    apply follows_expect_bind reachedFits (by simp)
    intro behind behindFits _
    apply ((expr_follows behindFits).mono (Nat.zero_le 1)).readerBind behindFits
    intro value rest _ _
    exact follows_build (by rw [Stmt.displace])

/-- What `read` and `write` have after them is read in the same way. -/
theorem parenthesised_follows {α : Type} {item : Reader α} {move : α → α}
    {build : α → Stmt} {shownBuild : α → Stmt} {opens closes : Expectation}
    {cursor : Cursor}
    (items : ∀ cursor : Cursor, setting.Fits cursor →
      setting.Follows move item item 1 cursor)
    (built : ∀ held, (build held).displace setting.toDisplacement =
      shownBuild (move held))
    (fits : setting.Fits cursor) :
    setting.Follows (Stmt.displace setting.toDisplacement)
      (do
        Reader.expect (.symbol .openParen) opens
        let held ← item
        Reader.expect (.symbol .closeParen) closes
        return shownBuild held)
      (do
        Reader.expect (.symbol .openParen) opens
        let held ← item
        Reader.expect (.symbol .closeParen) closes
        return build held) 0 cursor := by
  apply follows_expect_bind fits (by simp)
  intro opened openedFits _
  apply ((items opened openedFits).mono (Nat.zero_le 1)).readerBind openedFits
  intro held reached reachedFits _
  apply follows_expect_bind reachedFits (by simp)
  intro closed _ _
  exact follows_build (built held)

theorem readTarget_follows {position : Position} {cursor : Cursor}
    (fits : setting.Fits cursor) :
    setting.Follows (Stmt.displace setting.toDisplacement)
      (Attempt.readTarget (setting.position position))
        (Attempt.readTarget position) 0 cursor :=
  parenthesised_follows (fun _ => place_follows)
    (fun _ => by rw [Stmt.displace]) fits

theorem writeValue_follows {position : Position} {cursor : Cursor}
    (fits : setting.Fits cursor) :
    setting.Follows (Stmt.displace setting.toDisplacement)
      (Attempt.writeValue (setting.position position))
        (Attempt.writeValue position) 0 cursor :=
  parenthesised_follows (fun _ => expr_follows)
    (fun _ => by rw [Stmt.displace]) fits

theorem printText_follows {position : Position} {cursor : Cursor}
    (fits : setting.Fits cursor) :
    setting.Follows (Stmt.displace setting.toDisplacement)
      (Attempt.printText (setting.position position))
        (Attempt.printText position) 0 cursor := by
  unfold Attempt.printText
  apply follows_expect_bind fits (by simp)
  intro opened openedFits _
  apply follows_next?_bind openedFits
  split
  · next text head =>
      apply follows_advance_bind openedFits head (by simp)
      intro reached reachedFits _ _
      apply follows_expect_bind reachedFits (by simp)
      intro closed _ _
      exact follows_build (by rw [Stmt.displace])
  · exact follows_throw

/-- Where no token is left before the next function, no statement is found. -/
theorem statementWithin_of_span_eq_zero {state : Recovery}
    (none : state.cursor.span = 0) (limit : Nat) :
    Attempt.statementWithin limit state = .error .statement state := by
  cases limit with
  | zero => rfl
  | succ limit =>
      rw [Attempt.statementWithin,
        bind_apply_of_ok
          (Attempt.lift_apply_of_ok (Reader.position_apply state.cursor)),
        bind_apply_of_ok
          (Attempt.lift_apply_of_ok (Reader.next?_apply state.cursor))]
      rcases Cursor.head_of_span_eq_zero none with ended | isFun
      · rw [ended]
        rfl
      · rw [isFun]
        rfl

theorem statementWithin_follows {bound limit shownLimit : Nat}
    (enough : bound ≤ limit) (shownEnough : bound ≤ shownLimit)
    {state : Recovery} (fits : setting.Fits state.cursor)
    (short : state.cursor.span ≤ bound) :
    setting.Follows (Stmt.displace setting.toDisplacement)
      (Attempt.statementWithin shownLimit)
      (Attempt.statementWithin limit) 1 state := by
  induction bound generalizing limit shownLimit state with
  | zero =>
      have none : state.cursor.span = 0 := Nat.le_zero.mp short
      have shownRan :
          Attempt.statementWithin shownLimit (setting.recovery state) =
          .error .statement (setting.recovery state) :=
        statementWithin_of_span_eq_zero (span_cursor_eq_zero fits none)
          shownLimit
      exact follows_of_error (statementWithin_of_span_eq_zero none limit)
        shownRan (Recovery.Passes.refl state)
  | succ bound ih =>
      obtain ⟨limit, rfl⟩ : ∃ fewer, limit = fewer + 1 := ⟨limit - 1, by omega⟩
      obtain ⟨shownLimit, rfl⟩ : ∃ fewer, shownLimit = fewer + 1 :=
        ⟨shownLimit - 1, by omega⟩
      have statements {state : Recovery} (fits : setting.Fits state.cursor)
          (short : state.cursor.span ≤ bound) :=
        ih (by omega : bound ≤ limit) (by omega : bound ≤ shownLimit) fits short
      rw [Attempt.statementWithin, Attempt.statementWithin]
      apply follows_lift_position_bind fits
      apply follows_lift_next?_bind fits
      split
      · next head =>
          apply follows_lift_advance_bind fits head (by simp)
          intro behind behindFits behindShort
          apply ((condition_follows behindFits).mono
            (Nat.zero_le 1)).lift.attemptBind behindFits
          intro test tested testedFits testedShort
          apply follows_lift_expect_bind testedFits (by simp)
          intro chosen chosenFits chosenShort
          apply ((statements chosenFits (by omega)).mono
            (Nat.zero_le 1)).attemptBind chosenFits
          intro thenBranch done doneFits doneShort
          apply follows_lift_accept_bind doneFits (by simp)
          · intro other otherFits otherShort
            apply ((statements otherFits (by omega)).mono
              (Nat.zero_le 1)).attemptBind otherFits
            intro elseBranch last _ _
            exact follows_build (by rw [Stmt.displace])
          · exact follows_build (by rw [Stmt.displace])
      · next head =>
          apply follows_lift_advance_bind fits head (by simp)
          intro behind behindFits behindShort
          apply ((condition_follows behindFits).mono
            (Nat.zero_le 1)).lift.attemptBind behindFits
          intro test tested testedFits testedShort
          apply follows_lift_expect_bind testedFits (by simp)
          intro entered enteredFits enteredShort
          apply ((statements enteredFits (by omega)).mono
            (Nat.zero_le 1)).attemptBind enteredFits
          intro body last _ _
          exact follows_build (by rw [Stmt.displace])
      · next head =>
          apply follows_lift_advance_bind fits head (by simp)
          intro behind behindFits behindShort
          have listed :
              setting.Repeats (List.map (Stmt.displace setting.toDisplacement))
                (Attempt.statementList (Attempt.statementWithin shownLimit)
                  (shownLimit + 1))
                (Attempt.statementList (Attempt.statementWithin limit)
                  (limit + 1)) behind
                fun _ rest => behind.Passes 0 rest :=
            statementList_repeats (fun _ => statements) behindFits (by omega)
              (by omega) (by omega)
          apply listed.lift.attemptBind behindFits
          intro inner ended endedFits _
          apply follows_lift_expect_bind endedFits (by simp)
          intro last _ _
          exact follows_build (by rw [Stmt.displace])
      · next head =>
          apply follows_lift_advance_bind fits head (by simp)
          intro last _ _
          exact follows_build (by rw [Stmt.displace])
      · next head =>
          apply follows_lift_advance_bind fits head (by simp)
          intro last _ _
          exact follows_build (by rw [Stmt.displace])
      · next head =>
          apply follows_lift_advance_bind fits head (by simp)
          intro behind behindFits _
          apply ((expr_follows behindFits).mono
            (Nat.zero_le 1)).lift.attemptBind behindFits
          intro value last _ _
          exact follows_build (by rw [Stmt.displace])
      · next head =>
          apply follows_lift_advance_bind fits head (by simp)
          intro behind behindFits _
          exact (readTarget_follows behindFits).lift
      · next head =>
          apply follows_lift_advance_bind fits head (by simp)
          intro behind behindFits _
          exact (writeValue_follows behindFits).lift
      · next head =>
          apply follows_lift_advance_bind fits head (by simp)
          intro behind behindFits _
          exact (printText_follows behindFits).lift
      · next name head => exact (callOrAssignment_follows fits head).lift
      · exact follows_throw

theorem statement_follows {state : Recovery}
    (fits : setting.Fits state.cursor) :
    setting.Follows (Stmt.displace setting.toDisplacement) Attempt.statement
      Attempt.statement 1 state := by
  have shownRan : Reader.remaining (setting.cursor state.cursor) =
      .ok (setting.cursor state.cursor).kinds.length
        (setting.cursor state.cursor) :=
    Reader.remaining_apply _
  apply follows_lift_bind_of_ok (Reader.remaining_apply state.cursor) shownRan
    (.refl _)
  exact statementWithin_follows state.cursor.span_le_length
    (setting.span_le_length_cursor state.cursor) fits (Nat.le_refl _)

theorem statements_repeats {state : Recovery}
    (fits : setting.Fits state.cursor) :
    setting.Repeats (List.map (Stmt.displace setting.toDisplacement))
      Attempt.statements
      Attempt.statements state fun _ rest => state.Passes 0 rest := by
  have inPiece := state.cursor.span_le_length
  have inSetting :
      state.cursor.span ≤ (setting.cursor state.cursor).kinds.length :=
    setting.span_le_length_cursor state.cursor
  have shownRan : Recoverer.remaining (setting.recovery state) =
      ((setting.cursor state.cursor).kinds.length, setting.recovery state) :=
    Recoverer.remaining_apply _
  apply repeats_bind_of_eq (Recoverer.remaining_apply state) shownRan
  exact statementList_repeats (fun _ fits _ => statement_follows fits) fits
    (Nat.le_refl _) (by omega) (by omega)

end Single

end PL0.Setting
