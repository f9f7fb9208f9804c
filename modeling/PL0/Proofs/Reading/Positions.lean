import PL0.Proofs.Grammar.Programs
import PL0.Proofs.Reading.Functions

/-!
# Reading without positions

Reading never looks at a position: it only copies positions into the tree and
into the errors.  So tokens of the same kinds are read as the same tree and
with the same errors, wherever they stand.
-/

namespace PL0

namespace Setting

variable {setting : Setting} {state : Recovery}

theorem inputEnd_repeats (program : Program)
    (ends : setting.Ends state.cursor) :
    setting.Repeats (Program.displace setting.toDisplacement)
      (Recoverer.inputEnd (program.displace setting.toDisplacement))
      (Recoverer.inputEnd program) state fun _ _ => True := by
  have fits : setting.Fits state.cursor := .inr ends
  apply repeats_next?_bind fits
  split
  · apply repeats_report_bind fits
    -- What is left of the input is dropped, and nothing comes behind it.
    have dropped : (setting.recovery { state.report .endOfInput with
        cursor := { (state.report .endOfInput).cursor with tokens := [] } }) =
        { setting.recovery (state.report .endOfInput) with
          cursor :=
            { (setting.recovery (state.report .endOfInput)).cursor
              with tokens := [] } } := by
      simp [Setting.recovery, Setting.cursor, ends.1]
    exact repeats_bind_of_eq rfl (by rw [dropped]; rfl)
      (repeats_pure rfl trivial)
  · exact repeats_pure rfl trivial

theorem ending_repeats (program : Program) (ends : setting.Ends state.cursor) :
    setting.Repeats (Program.displace setting.toDisplacement)
      (Recoverer.ending (program.displace setting.toDisplacement))
        (Recoverer.ending program)
      state fun _ _ => True := by
  have fits : setting.Fits state.cursor := .inr ends
  have shownHead : (setting.recovery state).cursor.kinds.head? =
      state.cursor.kinds.head? :=
    fits.head?
  by_cases found : state.cursor.kinds.head? = some (.symbol .semicolon)
  · have shownRan :
        (discard (Recoverer.accept (.symbol .semicolon)) : Recoverer Unit)
          (setting.recovery state) = ((), setting.recovery state.advance) := by
      rw [← fits.recovery_advance]
      exact Recoverer.discard_apply_of_eq
        (Recoverer.accept_of_head (shownHead.trans found))
    exact repeats_bind_of_eq
      (Recoverer.discard_apply_of_eq (Recoverer.accept_of_head found))
      shownRan (inputEnd_repeats program ends)
  · have shownRan :
        (discard (Recoverer.accept (.symbol .semicolon)) : Recoverer Unit)
          (setting.recovery state) = ((), setting.recovery state) :=
      Recoverer.discard_apply_of_eq
        (Recoverer.accept_of_ne (by rwa [shownHead]))
    exact repeats_bind_of_eq
      (Recoverer.discard_apply_of_eq (Recoverer.accept_of_ne found))
      shownRan (inputEnd_repeats program ends)

theorem statementProgram_repeats (ends : setting.Ends state.cursor) :
    setting.Repeats (Program.displace setting.toDisplacement)
      Recoverer.statementProgram
      Recoverer.statementProgram state fun _ _ => True := by
  rw [Recoverer.statementProgram_eq]
  apply (attempt_repeats (statement_follows (.inr ends))).bind
  rintro result rest ⟨passes, _⟩
  have restEnds := ends.of_passes passes.cursor
  cases result with
  | ok statement =>
      exact ending_repeats (.statement statement) restEnds
  | error expected =>
      have reportedEnds : setting.Ends (rest.report expected).cursor := by
        rwa [Recovery.report_cursor]
      apply repeats_report_bind (.inr restEnds)
      apply repeats_advance_bind (.inr reportedEnds)
      exact ending_repeats (.functions []) reportedEnds

theorem program_repeats (ends : setting.Ends state.cursor) :
    setting.Repeats (Program.displace setting.toDisplacement) Recoverer.program
      Recoverer.program state fun _ _ => True := by
  have fits : setting.Fits state.cursor := .inr ends
  apply repeats_next?_bind fits
  split
  · apply repeats_report_bind fits
    exact repeats_pure rfl trivial
  · have remaining : (setting.cursor state.cursor).kinds.length =
        state.cursor.kinds.length := by
      rw [kinds_cursor, ends.1]
      simp
    have shownRan : Recoverer.remaining (setting.recovery state) =
        (state.cursor.kinds.length, setting.recovery state) := by
      rw [← remaining]
      exact Recoverer.remaining_apply _
    apply repeats_bind_of_eq (Recoverer.remaining_apply state) shownRan
    apply (functionsWithin_repeats ends _).bind
    intro functions rest _
    exact repeats_pure rfl trivial
  · exact statementProgram_repeats ends

/-- The setting in which positions are forgotten. -/
def nowhere : Setting :=
  { toDisplacement := .forget, behind := [], stop := ⟨0, 0⟩, earlier := [],
    quiet := quiet_nil }

end Setting

/-- A reading without its positions. -/
def Reading.forget (reading : Reading) : Reading :=
  ⟨reading.program.displace .forget,
    reading.errors.map (SyntaxError.displace .forget)⟩

theorem Cursor.ofTokens_forget (tokens : List Token) :
    Cursor.ofTokens (tokens.map (Token.displace .forget)) =
      Setting.nowhere.cursor (Cursor.ofTokens tokens) := by
  have tokensEq : (tokens.map (Token.displace .forget)).takeWhile
      (fun token => token.kind ≠ .endOfInput) =
      (tokens.takeWhile fun token => token.kind ≠ .endOfInput).map
        (Token.displace .forget) := by
    rw [List.takeWhile_map]
    rfl
  have stopEq :
      (Cursor.ofTokens (tokens.map (Token.displace .forget))).stop =
        ⟨0, 0⟩ := by
    simp only [Cursor.ofTokens, List.find?_map, List.getLast?_map]
    cases tokens.find? _ with
    | some token => rfl
    | none =>
        cases tokens.getLast? with
        | some token => rfl
        | none => rfl
  change Cursor.mk _
    (Cursor.ofTokens (tokens.map (Token.displace .forget))).stop 0 =
    ⟨_ ++ [], ⟨0, 0⟩, 0⟩
  rw [stopEq, tokensEq, List.append_nil]
  rfl

theorem readProgram_forget (tokens : List Token) :
    readProgram (tokens.map (Token.displace .forget)) =
      (readProgram tokens).forget := by
  have ends : Setting.nowhere.Ends (Cursor.ofTokens tokens) := ⟨rfl, rfl⟩
  have startEq : Setting.nowhere.recovery ⟨Cursor.ofTokens tokens, [], false⟩ =
      ⟨Cursor.ofTokens (tokens.map (Token.displace .forget)), [], false⟩ := by
    rw [Cursor.ofTokens_forget]
    rfl
  obtain ⟨program, rest, ran, shownRan, _⟩ :=
    Setting.program_repeats (show Setting.nowhere.Ends
      (Recovery.mk (Cursor.ofTokens tokens) [] false).cursor from ends)
  rw [startEq] at shownRan
  unfold readProgram
  rw [ran, shownRan]
  rfl

/-- Tokens of the same kinds are read in the same way, wherever they stand. -/
theorem readProgram_forget_eq {first second : List Token}
    (same : first.map Token.kind = second.map Token.kind) :
    (readProgram first).forget = (readProgram second).forget := by
  have forgotten (tokens : List Token) : tokens.map (Token.displace .forget) =
      (tokens.map Token.kind).map fun kind => ⟨kind, ⟨0, 0⟩⟩ := by
    rw [List.map_map]
    rfl
  rw [← readProgram_forget, ← readProgram_forget, forgotten, forgotten, same]

end PL0
