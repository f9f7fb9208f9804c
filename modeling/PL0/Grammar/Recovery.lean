import PL0.Grammar.Cursor

/-!
# Recovering from errors

After an error reading goes on, so that one run finds many errors.  From an
error on the reader counts as recovering, and further errors are kept quiet
until something shows that it has found its way again.  That the input ended
too early is always reported, but only once.
-/

namespace PL0

/-- A cursor together with the errors so far. -/
structure Recovery where
  cursor : Cursor
  errors : List SyntaxError
  /-- Whether an error was reported from which reading has not yet recovered. -/
  recovering : Bool

/-- A reader that reports errors and never fails. -/
abbrev Recoverer := StateM Recovery

/-- A reader that reports the errors of its parts and may fail itself. -/
abbrev Attempt := EStateM Expectation Recovery

namespace Recovery

/-- Add an error for the next token, unless it is to be kept quiet. -/
def report (state : Recovery) (expected : Expectation) : Recovery :=
  let error := state.cursor.unexpected expected
  let quiet :=
    if error.isAtEnd then state.errors.any SyntaxError.isAtEnd
      else state.recovering
  if quiet then state
  else { state with errors := state.errors ++ [error], recovering := true }

/-- The next error is reported again. -/
def recovered (state : Recovery) : Recovery :=
  { state with recovering := false }

/-- Pass over the next token. -/
def advance (state : Recovery) : Recovery :=
  { state with cursor := state.cursor.advance }

end Recovery

namespace Recoverer

/-- The kind of the next token, none at the end of the input. -/
def next? : Recoverer (Option Token.Kind) := do
  return (← get).cursor.next?

/-- How many tokens are left. -/
def remaining : Recoverer Nat := do
  return (← get).cursor.tokens.length

/-- Pass over the next token. -/
def advance : Recoverer Unit :=
  modify Recovery.advance

/-- Report that something else was expected here. -/
def report (expected : Expectation) : Recoverer Unit :=
  modify fun state => state.report expected

/-- Note that reading has found its way again. -/
def recovered : Recoverer Unit :=
  modify Recovery.recovered

/-- Pass over the next token if it is of the given kind, and tell whether it
is. -/
def accept (kind : Token.Kind) : Recoverer Bool := do
  if (← next?) = some kind then
    advance
    return true
  else
    return false

/-- Let a reader try, and keep whatever it did if it fails. -/
def attempt {α : Type} (reader : Attempt α) :
    Recoverer (Except Expectation α) :=
  fun state =>
    match reader state with
    | .ok value state => (.ok value, state)
    | .error expected state => (.error expected, state)

end Recoverer

/-- A plain reader moves the cursor and reports nothing. -/
instance : MonadLift Reader Attempt where
  monadLift reader := fun state =>
    match reader state.cursor with
    | .ok value cursor => .ok value { state with cursor }
    | .error expected cursor => .error expected { state with cursor }

instance : MonadLift Recoverer Attempt where
  monadLift reader := fun state =>
    let (value, state) := reader state
    .ok value state

end PL0
