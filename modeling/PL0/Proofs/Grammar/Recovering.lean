import PL0.Grammar.Recovery
import PL0.Proofs.Grammar.Reading

/-!
# What recovering readers do

An error can be kept quiet, but never the first one: a reader that counts as
recovering has reported an error before, and so has one that reports the end
of the input no more.  A reader therefore tracks a fact if the fact holds
unless an error is there in the end.  To put such readers together, one has
only to know that no errors in the end means no errors in between.
-/

namespace PL0

open Grammar

namespace Recovery

/-- What is recovering has reported an error. -/
def Sane (state : Recovery) : Prop :=
  state.recovering = true → state.errors ≠ []

/-- Unless there is an error in the end, there was none at the start, and the
fact holds. -/
structure Vouches (start finish : Recovery) (fact : Prop) : Prop where
  sane : finish.Sane
  clean : finish.errors = [] → start.errors = []
  holds : finish.errors = [] → fact

/-- What is left to read, and the errors so far. -/
structure Stands (state : Recovery) (rest : Word) (errors : List SyntaxError) :
    Prop where
  kinds : state.cursor.kinds = rest
  errors : state.errors = errors

variable {start between finish : Recovery} {fact further : Prop}

theorem Vouches.mono (vouches : Vouches start finish fact)
    (implies : fact → further) : Vouches start finish further :=
  ⟨vouches.sane, vouches.clean,
    fun noErrors => implies (vouches.holds noErrors)⟩

theorem Vouches.moved {cursor : Cursor}
    (vouches : Vouches { start with cursor } finish fact) :
    Vouches start finish fact :=
  ⟨vouches.sane, vouches.clean, vouches.holds⟩

theorem Vouches.trans (first : Vouches start between fact)
    (second : Vouches between finish (fact → further)) :
    Vouches start finish further :=
  ⟨second.sane, fun noErrors => first.clean (second.clean noErrors),
    fun noErrors => second.holds noErrors (first.holds (second.clean noErrors))⟩

theorem Sane.vouches (sane : start.Sane) (holds : fact) :
    Vouches start start fact :=
  ⟨sane, id, fun _ => holds⟩

theorem vouches_of_errors_ne_nil (reported : finish.errors ≠ []) :
    Vouches start finish fact :=
  ⟨fun _ => reported, fun noErrors => absurd noErrors reported,
    fun noErrors => absurd noErrors reported⟩

theorem report_cursor (state : Recovery) (expected : Expectation) :
    (state.report expected).cursor = state.cursor := by
  simp only [report]
  split
  · split <;> rfl
  · split <;> rfl

theorem Sane.report_errors_ne_nil {state : Recovery} (sane : state.Sane)
    (expected : Expectation) : (state.report expected).errors ≠ [] := by
  simp only [report]
  split
  · split
    · next reportedBefore =>
        intro noErrors
        rw [noErrors] at reportedBefore
        cases reportedBefore
    · simp
  · split
    · next recovering => exact sane recovering
    · simp

theorem vouches_recovered {state : Recovery} (holds : fact) :
    Vouches state state.recovered fact :=
  ⟨by rintro ⟨⟩, id, fun _ => holds⟩

end Recovery

namespace Attempt

variable {α β : Type}

/-- What is demanded holds where the reader succeeds, unless there is an error
in the end. -/
def Tracks (reader : Attempt α) (state : Recovery)
    (demand : α → Recovery → Prop) : Prop :=
  state.Sane → match reader state with
    | .ok value after => state.Vouches after (demand value after)
    | .error _ after => state.Vouches after True

variable {reader : Attempt α} {next : α → Attempt β} {state : Recovery}
  {between : α → Recovery → Prop} {demand : β → Recovery → Prop}

theorem tracks_pure {value : β} (meets : demand value state) :
    Tracks (pure value) state demand :=
  fun sane => sane.vouches meets

theorem tracks_throw {expected : Expectation} :
    Tracks (throw expected) state demand :=
  fun sane => sane.vouches trivial

theorem Tracks.bind (tracks : Tracks reader state between)
    (further : ∀ value after,
      Tracks (next value) after fun result last =>
        between value after → demand result last) :
    Tracks (reader >>= next) state demand := by
  intro sane
  have vouches := tracks sane
  cases ran : reader state with
  | error expected after =>
      rw [ran] at vouches
      simpa [Bind.bind, EStateM.bind, ran] using vouches
  | ok value after =>
      rw [ran] at vouches
      -- What was found first is only claimed if nothing went wrong later.
      have more := further value after vouches.sane
      rw [bind_apply_of_ok ran]
      cases nextRan : next value after with
      | ok result last =>
          rw [nextRan] at more
          exact vouches.trans more
      | error expected last =>
          rw [nextRan] at more
          exact vouches.trans (more.mono fun _ _ => trivial)

section Lifted

variable {plain : Reader α} {plainBetween : α → Cursor → Prop}
  {kind : Token.Kind}

theorem lift_apply (plain : Reader α) (state : Recovery) :
    (liftM plain : Attempt α) state = match plain state.cursor with
      | .ok value cursor => .ok value { state with cursor }
      | .error expected cursor => .error expected { state with cursor } :=
  rfl

theorem lift_apply_of_ok {value : α} {cursor : Cursor}
    (ran : plain state.cursor = .ok value cursor) :
    (liftM plain : Attempt α) state = .ok value { state with cursor } := by
  rw [lift_apply, ran]

theorem lift_apply_of_error {expected : Expectation} {cursor : Cursor}
    (ran : plain state.cursor = .error expected cursor) :
    (liftM plain : Attempt α) state =
      .error expected { state with cursor } := by
  rw [lift_apply, ran]

theorem tracks_bind_of_ok {value : α} {cursor : Cursor}
    (ran : plain state.cursor = .ok value cursor)
    (further : Tracks (next value) { state with cursor } demand) :
    Tracks (liftM plain >>= next) state demand := by
  intro sane
  have vouches := further sane
  rw [bind_apply_of_ok (lift_apply_of_ok ran)]
  cases nextRan : next value { state with cursor } with
  | ok result last =>
      rw [nextRan] at vouches
      exact vouches.moved
  | error expected last =>
      rw [nextRan] at vouches
      exact vouches.moved

theorem tracks_lift_bind (ensures : Ensures plain state.cursor plainBetween)
    (further : ∀ value cursor, plainBetween value cursor →
      Tracks (next value) { state with cursor } demand) :
    Tracks (liftM plain >>= next) state demand := by
  cases ran : plain state.cursor with
  | ok value cursor =>
      exact tracks_bind_of_ok ran (further value cursor (ensures _ _ ran))
  | error expected cursor =>
      intro sane
      have failed : (liftM plain >>= next : Attempt β) state =
          .error expected { state with cursor } := by
        simp [Bind.bind, EStateM.bind, lift_apply_of_error ran]
      rw [failed]
      exact ⟨sane, id, fun _ => trivial⟩

theorem tracks_lift (ensures : Ensures plain state.cursor plainBetween)
    {demand : α → Recovery → Prop}
    (meets : ∀ value cursor, plainBetween value cursor →
      demand value { state with cursor }) :
    Tracks (liftM plain) state demand := by
  cases ran : plain state.cursor with
  | ok value cursor =>
      intro sane
      rw [lift_apply_of_ok ran]
      exact ⟨sane, id, fun _ => meets value cursor (ensures _ _ ran)⟩
  | error expected cursor =>
      intro sane
      rw [lift_apply_of_error ran]
      exact ⟨sane, id, fun _ => trivial⟩

theorem tracks_advance_bind {next : Unit → Attempt β}
    (head : state.cursor.kinds.head? = some kind)
    (further : ∀ cursor : Cursor, state.cursor.kinds = kind :: cursor.kinds →
      Tracks (next ()) { state with cursor } demand) :
    Tracks (liftM Reader.advance >>= next) state demand :=
  tracks_bind_of_ok (Reader.advance_apply state.cursor)
    (further _ (Cursor.kinds_eq_cons head))

theorem tracks_accept_bind {next : Bool → Attempt β}
    (ifFound : ∀ cursor : Cursor, state.cursor.kinds = kind :: cursor.kinds →
      Tracks (next true) { state with cursor } demand)
    (ifNot : state.cursor.kinds.head? ≠ some kind →
      Tracks (next false) state demand) :
    Tracks (liftM (Reader.accept kind) >>= next) state demand := by
  by_cases found : state.cursor.kinds.head? = some kind
  · exact tracks_bind_of_ok (Reader.accept_of_head found)
      (ifFound _ (Cursor.kinds_eq_cons found))
  · exact tracks_bind_of_ok (Reader.accept_of_ne found) (ifNot found)

theorem tracks_expect_bind {expected : Expectation} {next : Unit → Attempt β}
    (ifFound : ∀ cursor : Cursor, state.cursor.kinds = kind :: cursor.kinds →
      Tracks (next ()) { state with cursor } demand) :
    Tracks (liftM (Reader.expect kind expected) >>= next) state demand := by
  refine tracks_lift_bind (Reader.expect_ensures state.cursor) ?_
  intro _ cursor kindsEq
  exact ifFound cursor kindsEq

theorem gives_lift_bind {fact : α → Prop} {rest : Word}
    {errors : List SyntaxError}
    (gives : Gives plain state.cursor fun value cursor => fact value ∧
      cursor.kinds = rest)
    (errorsEq : state.errors = errors)
    (further : ∀ value after, fact value → after.Stands rest errors →
      Gives (next value) after demand) :
    Gives (liftM plain >>= next : Attempt β) state demand := by
  obtain ⟨value, cursor, ran, met, restEq⟩ := gives
  exact gives_bind_of_ok (lift_apply_of_ok ran)
    (further value _ met ⟨restEq, errorsEq⟩)

theorem gives_lift {fact : α → Prop} {rest : Word} {errors : List SyntaxError}
    (gives : Gives plain state.cursor fun value cursor => fact value ∧
      cursor.kinds = rest)
    (errorsEq : state.errors = errors) :
    Gives (liftM plain : Attempt α) state fun value after =>
      fact value ∧ after.Stands rest errors := by
  obtain ⟨value, cursor, ran, met, restEq⟩ := gives
  exact ⟨value, _, lift_apply_of_ok ran, met, restEq, errorsEq⟩

theorem gives_expect_bind {expected : Expectation} {next : Unit → Attempt β}
    {rest : Word} {errors : List SyntaxError}
    (stands : state.Stands (kind :: rest) errors)
    (further : ∀ after : Recovery, after.Stands rest errors →
      Gives (next ()) after demand) :
    Gives (liftM (Reader.expect kind expected) >>= next : Attempt β) state
      demand :=
  gives_bind_of_ok
    (lift_apply_of_ok (Reader.expect_of_head (by rw [stands.kinds]; rfl)))
    (further _ ⟨by rw [Cursor.kinds_advance, stands.kinds]; rfl, stands.errors⟩)

theorem gives_advance_bind {next : Unit → Attempt β} {rest : Word}
    {errors : List SyntaxError} (stands : state.Stands (kind :: rest) errors)
    (further : ∀ after : Recovery, after.Stands rest errors →
      Gives (next ()) after demand) :
    Gives (liftM Reader.advance >>= next : Attempt β) state demand :=
  gives_bind_of_ok (lift_apply_of_ok (Reader.advance_apply state.cursor))
    (further _ ⟨by rw [Cursor.kinds_advance, stands.kinds]; rfl, stands.errors⟩)

theorem gives_identifier_bind {expected : Expectation} {name : String}
    {next : String × Position → Attempt β} {rest : Word}
    {errors : List SyntaxError}
    (stands : state.Stands (.identifier name :: rest) errors)
    (further : ∀ (position : Position) (after : Recovery),
      after.Stands rest errors → Gives (next (name, position)) after demand) :
    Gives (liftM (Reader.identifier expected) >>= next : Attempt β) state
      demand :=
  gives_bind_of_ok
    (lift_apply_of_ok (Reader.identifier_of_head (by rw [stands.kinds]; rfl)))
    (further _ _ ⟨by rw [Cursor.kinds_advance, stands.kinds]; rfl,
      stands.errors⟩)

end Lifted

end Attempt

namespace Recoverer

variable {α β : Type}

/-- What is demanded holds of the result, unless there is an error in the
end. -/
def Tracks (reader : Recoverer α) (state : Recovery)
    (demand : α → Recovery → Prop) : Prop :=
  state.Sane →
    state.Vouches (reader state).2 (demand (reader state).1 (reader state).2)

/-- The result and the state after it are as demanded. -/
def Yields (reader : Recoverer α) (state : Recovery)
    (demand : α → Recovery → Prop) : Prop :=
  demand (reader state).1 (reader state).2

variable {reader : Recoverer α} {next : α → Recoverer β} {state : Recovery}
  {between : α → Recovery → Prop} {demand : β → Recovery → Prop}

theorem tracks_pure {value : β} (meets : demand value state) :
    Tracks (pure value) state demand :=
  fun sane => sane.vouches meets

theorem Tracks.mono {weaker : α → Recovery → Prop}
    (tracks : Tracks reader state between)
    (implies : ∀ value after, between value after → weaker value after) :
    Tracks reader state weaker :=
  fun sane => (tracks sane).mono (implies _ _)

theorem Tracks.bind (tracks : Tracks reader state between)
    (further : ∀ value after,
      Tracks (next value) after fun result last =>
        between value after → demand result last) :
    Tracks (reader >>= next) state demand :=
  fun sane => (tracks sane).trans (further _ _ (tracks sane).sane)

theorem yields_pure {value : β} (meets : demand value state) :
    Yields (pure value) state demand :=
  meets

theorem Yields.bind (yields : Yields reader state between)
    (further : ∀ value after, between value after →
      Yields (next value) after demand) :
    Yields (reader >>= next) state demand :=
  further _ _ yields

theorem bind_apply_of_eq {value : α} {after : Recovery}
    (ran : reader state = (value, after)) :
    (reader >>= next) state = next value after := by
  change next (reader state).1 (reader state).2 = _
  rw [ran]

theorem tracks_bind_of_eq {value : α} {cursor : Cursor}
    (ran : reader state = (value, { state with cursor }))
    (further : Tracks (next value) { state with cursor } demand) :
    Tracks (reader >>= next) state demand := by
  intro sane
  rw [bind_apply_of_eq ran]
  exact (further sane).moved

theorem yields_bind_of_eq {value : α} {after : Recovery}
    (ran : reader state = (value, after))
    (further : Yields (next value) after demand) :
    Yields (reader >>= next) state demand := by
  rw [Yields, bind_apply_of_eq ran]
  exact further

theorem next?_apply (state : Recovery) :
    next? state = (state.cursor.kinds.head?, state) := by
  rw [← Cursor.next?_eq]
  rfl

theorem remaining_apply (state : Recovery) :
    remaining state = (state.cursor.kinds.length, state) := by
  rw [Cursor.length_kinds]
  rfl

theorem advance_apply (state : Recovery) :
    advance state = ((), { state with cursor := state.cursor.advance }) :=
  rfl

theorem recovered_apply (state : Recovery) :
    recovered state = ((), state.recovered) :=
  rfl

theorem accept_of_head {kind : Token.Kind}
    (head : state.cursor.kinds.head? = some kind) :
    accept kind state = (true, state.advance) := by
  unfold accept
  rw [bind_apply_of_eq (next?_apply state), head, if_pos rfl]
  rfl

theorem accept_of_ne {kind : Token.Kind}
    (other : state.cursor.kinds.head? ≠ some kind) :
    accept kind state = (false, state) := by
  unfold accept
  rw [bind_apply_of_eq (next?_apply state), if_neg other]
  rfl

theorem tracks_report_bind {expected : Expectation} {next : Unit → Recoverer β}
    (further : ∀ after, Tracks (next ()) after fun _ _ => True) :
    Tracks (report expected >>= next) state demand := by
  intro sane
  have reported := sane.report_errors_ne_nil expected
  have more := further (state.report expected) fun _ => reported
  exact Recovery.vouches_of_errors_ne_nil fun noErrors =>
    reported (more.clean noErrors)

theorem tracks_recovered_bind {next : Unit → Recoverer β}
    (further : Tracks (next ()) state.recovered demand) :
    Tracks (recovered >>= next) state demand := by
  intro sane
  have passed : state.Vouches state.recovered True :=
    Recovery.vouches_recovered trivial
  exact passed.trans ((further passed.sane).mono fun meets _ => meets)

theorem attempt_tracks {reader : Attempt α}
    (tracks : Attempt.Tracks reader state between) :
    Tracks (attempt reader) state fun result after =>
      ∀ value, result = .ok value → between value after := by
  intro sane
  have vouches := tracks sane
  cases ran : reader state with
  | ok value after =>
      rw [ran] at vouches
      have attempted : attempt reader state = (.ok value, after) := by
        simp [attempt, ran]
      rw [attempted]
      refine vouches.mono ?_
      rintro meets _ ⟨⟩
      exact meets
  | error expected after =>
      rw [ran] at vouches
      have attempted : attempt reader state = (.error expected, after) := by
        simp [attempt, ran]
      rw [attempted]
      refine vouches.mono ?_
      rintro _ _ ⟨⟩

theorem attempt_yields {reader : Attempt α}
    (gives : Gives reader state between) :
    Yields (attempt reader) state fun result after =>
      ∃ value, result = .ok value ∧ between value after := by
  obtain ⟨value, after, ran, meets⟩ := gives
  have attempted : attempt reader state = (.ok value, after) := by
    simp [attempt, ran]
  rw [Yields, attempted]
  exact ⟨value, rfl, meets⟩

end Recoverer

namespace Attempt

variable {α β : Type} {reader : Recoverer α} {next : α → Attempt β}
  {state : Recovery}
  {between : α → Recovery → Prop} {demand : β → Recovery → Prop}

theorem tracks_recoverer_bind (tracks : Recoverer.Tracks reader state between)
    (further : ∀ value after,
      Tracks (next value) after fun result last =>
        between value after → demand result last) :
    Tracks (liftM reader >>= next) state demand := by
  have lifted : Tracks (liftM reader) state between := tracks
  exact lifted.bind further

theorem gives_recoverer_bind (yields : Recoverer.Yields reader state between)
    (further : ∀ value after, between value after →
      Gives (next value) after demand) :
    Gives (liftM reader >>= next : Attempt β) state demand := by
  have lifted : Gives (liftM reader : Attempt α) state between :=
    ⟨_, _, rfl, yields⟩
  exact lifted.bind further

end Attempt

end PL0
