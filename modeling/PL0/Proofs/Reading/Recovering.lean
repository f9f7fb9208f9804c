import PL0.Proofs.Reading.Setting

/-!
# Recovering in another setting

A reader that reports errors does in another setting what a plain one does
there.  The errors that were reported before the piece do not matter: whether
an error is kept quiet depends on the errors so far only at the end of the
input, and the input did not end before the piece.
-/

namespace PL0.Setting

variable {α β γ δ : Type} {setting : Setting} {move : α → β} {moveNext : γ → δ}
  {state : Recovery} {kind : Token.Kind} {cost spent : Nat}

section Attempts

theorem Follows.lift {shown : Reader β} {reader : Reader α}
    (follows : setting.Follows move shown reader cost state.cursor) :
    setting.Follows move (liftM shown : Attempt β) (liftM reader : Attempt α)
      cost state := by
  cases ran : reader state.cursor with
  | ok value cursor =>
      rw [Follows, ran] at follows
      have shownRan : (liftM shown : Attempt β) (setting.recovery state) =
          .ok (move value) (setting.recovery { state with cursor }) :=
        Attempt.lift_apply_of_ok follows.1
      exact follows_of_ok (Attempt.lift_apply_of_ok ran) shownRan
        (.of_cursor follows.2)
  | error expected cursor =>
      rw [Follows, ran] at follows
      have shownRan : (liftM shown : Attempt β) (setting.recovery state) =
          .error expected (setting.recovery { state with cursor }) :=
        Attempt.lift_apply_of_error follows.1
      exact follows_of_error (Attempt.lift_apply_of_error ran) shownRan
        (.of_cursor follows.2)

theorem Follows.attemptBind {shown : Attempt β} {reader : Attempt α}
    {shownNext : β → Attempt δ} {next : α → Attempt γ}
    (follows : setting.Follows move shown reader spent state)
    (fits : setting.Fits state.cursor)
    (further : ∀ (value : α) (rest : Recovery), setting.Fits rest.cursor →
      rest.cursor.span + spent ≤ state.cursor.span →
      setting.Follows moveNext (shownNext (move value)) (next value)
        (cost - spent) rest) :
    setting.Follows moveNext (shown >>= shownNext) (reader >>= next) cost
      state :=
  follows.bind fits further

theorem follows_lift_bind_of_ok {reader : Reader α} {shown : Reader β}
    {shownNext : β → Attempt δ} {next : α → Attempt γ} {value : α}
    {shownValue : β}
    {cursor : Cursor} (ran : reader state.cursor = .ok value cursor)
    (shownRan : shown (setting.cursor state.cursor) =
      .ok shownValue (setting.cursor cursor))
    (passes : state.cursor.Passes spent cursor)
    (further : setting.Follows moveNext (shownNext shownValue) (next value)
      (cost - spent)
      { state with cursor }) :
    setting.Follows moveNext (liftM shown >>= shownNext) (liftM reader >>= next)
      cost state := by
  have lifted : (liftM shown : Attempt β) (setting.recovery state) =
      .ok shownValue (setting.recovery { state with cursor }) :=
    Attempt.lift_apply_of_ok shownRan
  exact follows_bind_of_ok (Attempt.lift_apply_of_ok ran) lifted
    (.of_cursor passes) further

theorem follows_lift_next?_bind {shown : Option Token.Kind → Attempt β}
    {next : Option Token.Kind → Attempt α} (fits : setting.Fits state.cursor)
    (further : setting.Follows move (shown state.cursor.kinds.head?)
      (next state.cursor.kinds.head?) cost state) :
    setting.Follows move (liftM Reader.next? >>= shown)
      (liftM Reader.next? >>= next) cost state :=
  follows_lift_bind_of_ok (Reader.next?_apply state.cursor) fits.next?_apply
    (.refl _) further

theorem follows_lift_position_bind {shown : Position → Attempt β}
    {next : Position → Attempt α} (fits : setting.Fits state.cursor)
    (further :
      setting.Follows move (shown (setting.position state.cursor.position))
      (next state.cursor.position) cost state) :
    setting.Follows move (liftM Reader.position >>= shown)
      (liftM Reader.position >>= next) cost
      state :=
  follows_lift_bind_of_ok (Reader.position_apply state.cursor)
    fits.position_apply (.refl _) further

theorem follows_lift_advance_bind {shown : Unit → Attempt β}
    {next : Unit → Attempt α} (fits : setting.Fits state.cursor)
    (head : state.cursor.kinds.head? = some kind)
    (plain : kind ≠ .keyword .funWord)
    (further : ∀ rest : Recovery, setting.Fits rest.cursor →
      rest.cursor.span + 1 ≤ state.cursor.span →
      setting.Follows move (shown ()) (next ()) (cost - 1) rest) :
    setting.Follows move (liftM Reader.advance >>= shown)
      (liftM Reader.advance >>= next) cost
      state := by
  have passes := Cursor.passes_advance head plain
  exact follows_lift_bind_of_ok (Reader.advance_apply state.cursor)
    fits.advance_apply passes (further _ (fits.of_passes passes) passes.span_le)

theorem follows_lift_accept_bind {shown : Bool → Attempt β}
    {next : Bool → Attempt α} (fits : setting.Fits state.cursor)
    (plain : kind ≠ .keyword .funWord)
    (ifFound : ∀ rest : Recovery, setting.Fits rest.cursor →
      rest.cursor.span + 1 ≤ state.cursor.span →
      setting.Follows move (shown true) (next true) (cost - 1) rest)
    (ifNot : setting.Follows move (shown false) (next false) cost state) :
    setting.Follows move (liftM (Reader.accept kind) >>= shown)
      (liftM (Reader.accept kind) >>= next) cost state := by
  by_cases found : state.cursor.kinds.head? = some kind
  · have passes := Cursor.passes_advance found plain
    exact follows_lift_bind_of_ok (Reader.accept_of_head found)
      (fits.accept_of_head found) passes
      (ifFound _ (fits.of_passes passes) passes.span_le)
  · exact follows_lift_bind_of_ok (Reader.accept_of_ne found)
      (fits.accept_of_ne found) (.refl _) ifNot

theorem follows_lift_expect_bind {expected : Expectation}
    {shown : Unit → Attempt β} {next : Unit → Attempt α}
    (fits : setting.Fits state.cursor)
    (plain : kind ≠ .keyword .funWord)
    (further : ∀ rest : Recovery, setting.Fits rest.cursor →
      rest.cursor.span + 1 ≤ state.cursor.span →
      setting.Follows move (shown ()) (next ()) (cost - 1) rest) :
    setting.Follows move (liftM (Reader.expect kind expected) >>= shown)
      (liftM (Reader.expect kind expected) >>= next) cost state :=
  (expect_follows expected fits plain).lift.attemptBind fits fun _ => further

end Attempts

section Recoverers

/-- In the setting the first reader does what the second does in the piece,
and the second does what is demanded. -/
def Repeats (setting : Setting) (move : α → β) (shown : Recoverer β)
    (reader : Recoverer α) (state : Recovery) (demand : α → Recovery → Prop) :
    Prop :=
  ∃ value rest, reader state = (value, rest) ∧
    shown (setting.recovery state) = (move value, setting.recovery rest) ∧
      demand value rest

variable {shown : Recoverer β} {reader : Recoverer α} {shownNext : β →
  Recoverer δ}
  {next : α → Recoverer γ} {between : α → Recovery → Prop} {demand : γ →
    Recovery → Prop}

theorem repeats_pure {value : γ} {shownValue : δ}
    (built : moveNext value = shownValue) (meets : demand value state) :
    setting.Repeats moveNext (pure shownValue) (pure value) state demand :=
  ⟨value, state, rfl, by rw [built]; rfl, meets⟩

theorem repeats_of_eq {shownLater : Recoverer β} {later : Recoverer α}
    {between : Recovery} {demand : α → Recovery → Prop}
    (ran : reader state = later between)
    (shownRan : shown (setting.recovery state) =
      shownLater (setting.recovery between))
    (repeats : setting.Repeats move shownLater later between demand) :
    setting.Repeats move shown reader state demand := by
  obtain ⟨value, rest, laterRan, shownLaterRan, meets⟩ := repeats
  exact ⟨value, rest, ran.trans laterRan, shownRan.trans shownLaterRan, meets⟩

theorem repeats_bind_of_eq {value : α} {shownValue : β} {rest : Recovery}
    (ran : reader state = (value, rest))
    (shownRan : shown (setting.recovery state) =
      (shownValue, setting.recovery rest))
    (further : setting.Repeats moveNext (shownNext shownValue) (next value) rest
      demand) :
    setting.Repeats moveNext (shown >>= shownNext) (reader >>= next) state
      demand := by
  obtain ⟨result, last, nextRan, shownNextRan, meets⟩ := further
  refine ⟨result, last, ?_, ?_, meets⟩
  · rw [Recoverer.bind_apply_of_eq ran, nextRan]
  · rw [Recoverer.bind_apply_of_eq shownRan, shownNextRan]

theorem Repeats.bind (repeats : setting.Repeats move shown reader state between)
    (further : ∀ value rest, between value rest →
      setting.Repeats moveNext (shownNext (move value)) (next value) rest
        demand) :
    setting.Repeats moveNext (shown >>= shownNext) (reader >>= next) state
      demand := by
  obtain ⟨value, rest, ran, shownRan, meets⟩ := repeats
  exact repeats_bind_of_eq ran shownRan (further value rest meets)

/-- A reader that never fails, as one that could. -/
theorem Repeats.lift
    (repeats : setting.Repeats move shown reader state fun _ rest =>
      state.Passes cost rest) :
    setting.Follows move (liftM shown : Attempt β) (liftM reader : Attempt α)
      cost state := by
  obtain ⟨value, rest, ran, shownRan, passes⟩ := repeats
  have lifted : (liftM reader : Attempt α) state = .ok value rest := by
    change EStateM.Result.ok (reader state).1 (reader state).2 = _
    rw [ran]
  have shownLifted : (liftM shown : Attempt β) (setting.recovery state) =
      .ok (move value) (setting.recovery rest) := by
    change EStateM.Result.ok (shown (setting.recovery state)).1
      (shown (setting.recovery state)).2 = _
    rw [shownRan]
  exact follows_of_ok lifted shownLifted passes

theorem Fits.unexpected {cursor : Cursor} (fits : setting.Fits cursor)
    (expected : Expectation) :
    (setting.cursor cursor).unexpected expected =
      (cursor.unexpected expected).displace setting.toDisplacement := by
  simp only [Cursor.unexpected, SyntaxError.displace, Cursor.next?_eq,
    fits.head?, fits.position]

theorem any_isAtEnd_recovery (state : Recovery) :
    (setting.recovery state).errors.any SyntaxError.isAtEnd =
      state.errors.any SyntaxError.isAtEnd := by
  have none : setting.earlier.any SyntaxError.isAtEnd = false := by
    rw [List.any_eq_false]
    intro error member
    simp [setting.quiet error member]
  rw [Setting.recovery, List.any_append, none, Bool.false_or, List.any_map]
  rfl

theorem Fits.report (fits : setting.Fits state.cursor)
    (expected : Expectation) :
    (setting.recovery state).report expected =
      setting.recovery (state.report expected) := by
  have errorEq := fits.unexpected expected
  have atEnd :
      ((state.cursor.unexpected expected).displace
        setting.toDisplacement).isAtEnd =
      (state.cursor.unexpected expected).isAtEnd := rfl
  simp only [Recovery.report, any_isAtEnd_recovery]
  rw [show (setting.recovery state).cursor =
    setting.cursor state.cursor from rfl, errorEq, atEnd,
    show (setting.recovery state).recovering = state.recovering from rfl]
  split
  · split
    · rfl
    · simp [Setting.recovery]
  · split
    · rfl
    · simp [Setting.recovery]

theorem repeats_report_bind {expected : Expectation}
    {shownNext : Unit → Recoverer δ} {next : Unit → Recoverer γ}
    (fits : setting.Fits state.cursor)
    (further : setting.Repeats moveNext (shownNext ()) (next ())
      (state.report expected) demand) :
    setting.Repeats moveNext (Recoverer.report expected >>= shownNext)
      (Recoverer.report expected >>= next) state demand := by
  have shownRan : Recoverer.report expected (setting.recovery state) =
      ((), setting.recovery (state.report expected)) := by
    rw [← fits.report expected]
    rfl
  exact repeats_bind_of_eq rfl shownRan further

theorem repeats_recovered_bind {shownNext : Unit → Recoverer δ}
    {next : Unit → Recoverer γ}
    (further : setting.Repeats moveNext (shownNext ()) (next ()) state.recovered
      demand) :
    setting.Repeats moveNext (Recoverer.recovered >>= shownNext)
      (Recoverer.recovered >>= next) state demand :=
  repeats_bind_of_eq rfl rfl further

theorem repeats_next?_bind {shownNext : Option Token.Kind → Recoverer δ}
    {next : Option Token.Kind → Recoverer γ} (fits : setting.Fits state.cursor)
    (further : setting.Repeats moveNext (shownNext state.cursor.kinds.head?)
      (next state.cursor.kinds.head?) state demand) :
    setting.Repeats moveNext (Recoverer.next? >>= shownNext)
      (Recoverer.next? >>= next) state demand := by
  have shownRan : Recoverer.next? (setting.recovery state) =
      (state.cursor.kinds.head?, setting.recovery state) := by
    rw [Recoverer.next?_apply, ← fits.head?]
    rfl
  exact repeats_bind_of_eq (Recoverer.next?_apply state) shownRan further

theorem Fits.recovery_advance (fits : setting.Fits state.cursor) :
    (setting.recovery state).advance = setting.recovery state.advance := by
  simp only [Recovery.advance, Setting.recovery, fits.advance_cursor]

theorem repeats_advance_bind {shownNext : Unit → Recoverer δ}
    {next : Unit → Recoverer γ} (fits : setting.Fits state.cursor)
    (further : setting.Repeats moveNext (shownNext ()) (next ()) state.advance
      demand) :
    setting.Repeats moveNext (Recoverer.advance >>= shownNext)
      (Recoverer.advance >>= next) state demand := by
  have shownRan : Recoverer.advance (setting.recovery state) =
      ((), setting.recovery state.advance) := by
    rw [← fits.recovery_advance]
    rfl
  exact repeats_bind_of_eq rfl shownRan further

theorem attempt_repeats {shown : Attempt β} {reader : Attempt α}
    (follows : setting.Follows move shown reader cost state) :
    setting.Repeats (Except.map move) (Recoverer.attempt shown)
      (Recoverer.attempt reader) state fun result rest => state.Passes 0 rest ∧
        ∀ value, result = .ok value → state.Passes cost rest := by
  cases ran : reader state with
  | ok value rest =>
      rw [Follows, ran] at follows
      obtain ⟨shownRan, passes⟩ := follows
      have attempted : Recoverer.attempt reader state = (.ok value, rest) := by
        simp [Recoverer.attempt, ran]
      have shownAttempted : Recoverer.attempt shown (setting.recovery state) =
          (.ok (move value), setting.recovery rest) := by
        unfold Recoverer.attempt
        rw [show shown (setting.recovery state) = _ from shownRan]
        rfl
      exact ⟨_, rest, attempted, shownAttempted,
        Reads.mono passes (Nat.zero_le cost), fun _ _ => passes⟩
  | error expected rest =>
      rw [Follows, ran] at follows
      obtain ⟨shownRan, passes⟩ := follows
      have attempted : Recoverer.attempt reader state = (.error expected,
          rest) := by
        simp [Recoverer.attempt, ran]
      have shownAttempted : Recoverer.attempt shown (setting.recovery state) =
          (.error expected, setting.recovery rest) := by
        unfold Recoverer.attempt
        rw [show shown (setting.recovery state) = _ from shownRan]
        rfl
      exact ⟨_, rest, attempted, shownAttempted, passes, by rintro _ ⟨⟩⟩

end Recoverers

end PL0.Setting
