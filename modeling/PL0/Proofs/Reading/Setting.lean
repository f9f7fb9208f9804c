import PL0.Proofs.Grammar.Recovering
import PL0.Proofs.Tree.Displacement

/-!
# The same reading in another setting

A piece of a program can be read on its own or as a part of a longer one: its
tokens may stand elsewhere, more tokens may come behind them, numbers may have
been given out and errors reported before.  A reader that keeps to the piece
does the same in both settings.  It keeps to the piece as long as it passes
over no `fun`, so a `fun` at the end of the piece hides all that comes behind
it.

The bounds of the two readers may differ.  They do not matter where they cover
the tokens up to the next `fun`.
-/

namespace PL0

namespace Cursor

/-- The number of tokens before the next function. -/
def span (cursor : Cursor) : Nat :=
  (cursor.kinds.takeWhile fun kind => kind ≠ .keyword .funWord).length

/-- From one cursor to another there are at least so many tokens, and none of
them starts a function. -/
structure Passes (cursor : Cursor) (count : Nat) (rest : Cursor) : Prop where
  stop : rest.stop = cursor.stop
  tokens : ∃ passed, cursor.tokens = passed ++ rest.tokens ∧
    count ≤ passed.length ∧ ∀ token ∈ passed, token.kind ≠ .keyword .funWord

variable {cursor rest last : Cursor} {count more : Nat} {kind : Token.Kind}

theorem Passes.refl (cursor : Cursor) : cursor.Passes 0 cursor :=
  ⟨rfl, [], rfl, Nat.le_refl 0, by simp⟩

theorem Passes.trans (first : cursor.Passes count rest)
    (second : rest.Passes more last) : cursor.Passes (count + more) last := by
  obtain ⟨passed, tokensEq, long, plain⟩ := first.tokens
  obtain ⟨further, restEq, longer, plainer⟩ := second.tokens
  refine ⟨second.stop.trans first.stop, passed ++ further, ?_, ?_, ?_⟩
  · rw [tokensEq, restEq, List.append_assoc]
  · rw [List.length_append]
    omega
  · intro token member
    rcases List.mem_append.mp member with inFirst | inSecond
    · exact plain token inFirst
    · exact plainer token inSecond

theorem Passes.mono (passes : cursor.Passes count rest) (fewer : more ≤ count) :
    cursor.Passes more rest := by
  obtain ⟨passed, tokensEq, long, plain⟩ := passes.tokens
  exact ⟨passes.stop, passed, tokensEq, Nat.le_trans fewer long, plain⟩

theorem Passes.length_le (passes : cursor.Passes count rest) :
    rest.tokens.length + count ≤ cursor.tokens.length := by
  obtain ⟨passed, tokensEq, long, _⟩ := passes.tokens
  rw [tokensEq, List.length_append]
  omega

theorem Passes.span_le (passes : cursor.Passes count rest) :
    rest.span + count ≤ cursor.span := by
  obtain ⟨passed, tokensEq, long, plain⟩ := passes.tokens
  have spanEq : cursor.span = passed.length + rest.span := by
    rw [span, kinds, tokensEq, List.map_append,
      List.takeWhile_append_of_pos (by simpa using plain)]
    simp [span, kinds]
  omega

theorem passes_advance (head : cursor.kinds.head? = some kind)
    (plain : kind ≠ .keyword .funWord) : cursor.Passes 1 cursor.advance := by
  cases tokensEq : cursor.tokens with
  | nil => simp [kinds, tokensEq] at head
  | cons token others =>
      have kindEq : token.kind = kind := by simpa [kinds, tokensEq] using head
      refine ⟨rfl, [token], by simp [advance, tokensEq], Nat.le_refl 1, ?_⟩
      rw [List.forall_mem_singleton, kindEq]
      exact plain

/-- Where no token is left before the next function, the input ends or a
function starts. -/
theorem head_of_span_eq_zero (none : cursor.span = 0) :
    cursor.kinds.head? = .none ∨ cursor.kinds.head? =
      some (.keyword .funWord) := by
  unfold span at none
  cases kindsEq : cursor.kinds with
  | nil => exact .inl rfl
  | cons kind others =>
      right
      by_contra other
      have plain : kind ≠ .keyword .funWord := by simpa using other
      simp [kindsEq, plain] at none

theorem span_pos (head : cursor.kinds.head? = some kind)
    (plain : kind ≠ .keyword .funWord) : 0 < cursor.span := by
  have passed := (passes_advance head plain).span_le
  omega

theorem span_le_length (cursor : Cursor) : cursor.span ≤ cursor.kinds.length :=
  (List.takeWhile_sublist _).length_le

end Cursor

/-- How a piece of a program comes to stand in another program. -/
structure Setting extends Displacement where
  /-- The tokens behind the piece. -/
  behind : List Token
  /-- The position of the end of the input. -/
  stop : Position
  /-- The errors before the piece.  The input has not ended there. -/
  earlier : List SyntaxError
  quiet : ∀ error ∈ earlier, error.isAtEnd = false

namespace Setting

theorem quiet_nil : ∀ error ∈ ([] : List SyntaxError),
    error.isAtEnd = false := by simp

variable (setting : Setting)

/-- A cursor in the piece, seen in the setting. -/
def cursor (cursor : Cursor) : Cursor where
  tokens :=
    cursor.tokens.map (Token.displace setting.toDisplacement) ++ setting.behind
  stop := setting.stop
  nextId := cursor.nextId + setting.shift

/-- The state of reading the piece, seen in the setting. -/
def recovery (state : Recovery) : Recovery where
  cursor := setting.cursor state.cursor
  errors :=
    setting.earlier ++
      state.errors.map (SyntaxError.displace setting.toDisplacement)
  recovering := state.recovering

/-- Nothing comes behind the piece, and the input ends as it does in the
piece. -/
def Ends (cursor : Cursor) : Prop :=
  setting.behind = [] ∧ setting.stop = setting.position cursor.stop

/-- What comes behind the piece cannot be seen from the cursor: a function
starts before it, or there is nothing. -/
def Fits (cursor : Cursor) : Prop :=
  .keyword .funWord ∈ cursor.kinds ∨ setting.Ends cursor

variable {setting} {cursor rest : Cursor} {count : Nat} {kind : Token.Kind}

theorem Ends.of_passes (ends : setting.Ends cursor)
    (passes : cursor.Passes count rest) : setting.Ends rest :=
  ⟨ends.1, by rw [passes.stop]; exact ends.2⟩

theorem Fits.of_passes (fits : setting.Fits cursor)
    (passes : cursor.Passes count rest) : setting.Fits rest := by
  obtain ⟨passed, tokensEq, _, plain⟩ := passes.tokens
  rcases fits with hidden | ends
  · left
    rw [Cursor.kinds, tokensEq, List.map_append, List.mem_append] at hidden
    rcases hidden with inPassed | inRest
    · obtain ⟨token, member, isFun⟩ := List.mem_map.mp inPassed
      exact absurd isFun (plain token member)
    · exact inRest
  · exact .inr (ends.of_passes passes)

theorem kinds_cursor (cursor : Cursor) :
    (setting.cursor cursor).kinds = cursor.kinds ++
      setting.behind.map Token.kind := by
  simp [Setting.cursor, Cursor.kinds, Token.displace, Function.comp_def]

theorem Fits.head? (fits : setting.Fits cursor) :
    (setting.cursor cursor).kinds.head? = cursor.kinds.head? := by
  rw [kinds_cursor]
  rcases fits with hidden | ⟨nothing, _⟩
  · cases kindsEq : cursor.kinds with
    | nil => simp [kindsEq] at hidden
    | cons kind others => rfl
  · simp [nothing]

/-- The token after the next one is seen as well, unless the next one starts a
function. -/
theorem Fits.second? (fits : setting.Fits cursor)
    (head : cursor.kinds.head? = some kind) (plain : kind ≠ .keyword .funWord) :
    (setting.cursor cursor).kinds.tail.head? = cursor.kinds.tail.head? := by
  have later := (fits.of_passes (Cursor.passes_advance head plain)).head?
  rw [kinds_cursor] at later ⊢
  rw [Cursor.kinds_advance] at later
  rwa [List.tail_append_of_ne_nil (by rintro none; simp [none] at head)]

theorem Fits.position (fits : setting.Fits cursor) :
    (setting.cursor cursor).position = setting.position cursor.position := by
  unfold Cursor.position
  cases tokensEq : cursor.tokens with
  | nil =>
      rcases fits with hidden | ⟨nothing, stopEq⟩
      · simp [Cursor.kinds, tokensEq] at hidden
      · simp [Setting.cursor, tokensEq, nothing, stopEq]
  | cons token others => simp [Setting.cursor, tokensEq, Token.displace]

theorem Fits.advance_cursor (fits : setting.Fits cursor) :
    (setting.cursor cursor).advance = setting.cursor cursor.advance := by
  cases tokensEq : cursor.tokens with
  | nil =>
      rcases fits with hidden | ⟨nothing, _⟩
      · simp [Cursor.kinds, tokensEq] at hidden
      · simp [Setting.cursor, Cursor.advance, tokensEq, nothing]
  | cons token others => simp [Setting.cursor, Cursor.advance, tokensEq]

theorem span_le_length_cursor (setting : Setting) (cursor : Cursor) :
    cursor.span ≤ (setting.cursor cursor).kinds.length := by
  have inPiece := cursor.span_le_length
  rw [kinds_cursor, List.length_append]
  omega

end Setting

/-- From one state to another the cursor goes on, and the errors reported on
the way are those of cursors in between. -/
structure Recovery.Passes (state : Recovery) (count : Nat) (rest : Recovery) :
    Prop where
  cursor : state.cursor.Passes count rest.cursor
  errors : ∃ reported, rest.errors = state.errors ++ reported ∧
    ∀ error ∈ reported, ∃ between expected, state.cursor.Passes 0 between ∧
      between.Passes 0 rest.cursor ∧ error = between.unexpected expected

namespace Recovery.Passes

variable {state rest last : Recovery} {count more : Nat}

theorem of_cursor {cursor : Cursor}
    (passes : state.cursor.Passes count cursor) :
    state.Passes count { state with cursor } :=
  ⟨passes, [], by simp, by simp⟩

theorem refl (state : Recovery) : state.Passes 0 state :=
  of_cursor (.refl state.cursor)

theorem trans (first : state.Passes count rest)
    (second : rest.Passes more last) : state.Passes (count + more) last := by
  obtain ⟨reported, errorsEq, each⟩ := first.errors
  obtain ⟨further, furtherEq, eachFurther⟩ := second.errors
  have onward := second.cursor.mono (Nat.zero_le more)
  have before := first.cursor.mono (Nat.zero_le count)
  refine ⟨first.cursor.trans second.cursor, reported ++ further, ?_, ?_⟩
  · rw [furtherEq, errorsEq, List.append_assoc]
  · intro error member
    rcases List.mem_append.mp member with inFirst | inSecond
    · obtain ⟨between, expected, reached, left, errorEq⟩ := each error inFirst
      exact ⟨between, expected, reached, left.trans onward, errorEq⟩
    · obtain ⟨between, expected, reached, left, errorEq⟩ :=
        eachFurther error inSecond
      exact ⟨between, expected, before.trans reached, left, errorEq⟩

theorem mono (passes : state.Passes count rest) (fewer : more ≤ count) :
    state.Passes more rest :=
  ⟨passes.cursor.mono fewer, passes.errors⟩

theorem report (state : Recovery) (expected : Expectation) :
    state.Passes 0 (state.report expected) := by
  by_cases quiet : (if (state.cursor.unexpected expected).isAtEnd then
      state.errors.any SyntaxError.isAtEnd else state.recovering) = true
  · rw [Recovery.report, if_pos quiet]
    exact refl state
  · rw [Recovery.report, if_neg quiet]
    refine ⟨.refl state.cursor, [state.cursor.unexpected expected], rfl, ?_⟩
    intro error member
    rw [List.mem_singleton] at member
    exact ⟨state.cursor, expected, .refl _, .refl _, member⟩

end Recovery.Passes

/-- The states of readers: what is still to be read, how a state is seen in a
setting, and how one state can come after another. -/
class Reads (σ : Type) where
  cursor : σ → Cursor
  inSetting : Setting → σ → σ
  Passes : σ → Nat → σ → Prop
  refl : ∀ state, Passes state 0 state
  trans : ∀ {state rest last : σ} {count more : Nat}, Passes state count rest →
    Passes rest more last → Passes state (count + more) last
  mono : ∀ {state rest : σ} {count fewer : Nat}, Passes state count rest →
    fewer ≤ count → Passes state fewer rest
  onCursor : ∀ {state rest : σ} {count : Nat}, Passes state count rest →
    (cursor state).Passes count (cursor rest)

instance : Reads Cursor where
  cursor := id
  inSetting := Setting.cursor
  Passes := Cursor.Passes
  refl := Cursor.Passes.refl
  trans := Cursor.Passes.trans
  mono := Cursor.Passes.mono
  onCursor := id

instance : Reads Recovery where
  cursor := Recovery.cursor
  inSetting := Setting.recovery
  Passes := Recovery.Passes
  refl := Recovery.Passes.refl
  trans := Recovery.Passes.trans
  mono := Recovery.Passes.mono
  onCursor := Recovery.Passes.cursor

namespace Setting

section Following

variable {ε σ α β γ δ : Type} [Reads σ]

/-- In the setting the first reader does what the second does in the piece: it
succeeds or fails likewise, with a result that is moved and a state that is
seen in the setting.  Neither passes over a `fun`, and where they succeed they
pass over at least `cost` tokens. -/
def Follows (setting : Setting) (move : α → β) (shown : EStateM ε σ β)
    (reader : EStateM ε σ α) (cost : Nat) (state : σ) : Prop :=
  match reader state with
  | .ok value rest =>
    shown (Reads.inSetting setting state) =
      .ok (move value) (Reads.inSetting setting rest) ∧
      Reads.Passes state cost rest
  | .error expected rest =>
    shown (Reads.inSetting setting state) =
      .error expected (Reads.inSetting setting rest) ∧
      Reads.Passes state 0 rest

variable {setting : Setting} {move : α → β} {moveNext : γ → δ}
  {shown : EStateM ε σ β}
  {reader : EStateM ε σ α} {shownNext : β → EStateM ε σ δ} {next : α →
    EStateM ε σ γ}
  {cost spent : Nat} {state : σ}

theorem follows_of_ok {value : α} {rest : σ}
    (ran : reader state = .ok value rest)
    (shownRan : shown (Reads.inSetting setting state) =
      .ok (move value) (Reads.inSetting setting rest))
    (passes : Reads.Passes state cost rest) :
    setting.Follows move shown reader cost state := by
  rw [Follows, ran]
  exact ⟨shownRan, passes⟩

theorem follows_of_error {expected : ε} {rest : σ}
    (ran : reader state = .error expected rest)
    (shownRan : shown (Reads.inSetting setting state) =
      .error expected (Reads.inSetting setting rest))
    (passes : Reads.Passes state 0 rest) :
    setting.Follows move shown reader cost state := by
  rw [Follows, ran]
  exact ⟨shownRan, passes⟩

theorem follows_pure (value : α) (state : σ) :
    setting.Follows move (pure (move value) : EStateM ε σ β) (pure value) 0
      state :=
  follows_of_ok rfl rfl (Reads.refl state)

theorem follows_build {value : α} {shownValue : β}
    (built : move value = shownValue) :
    setting.Follows move (pure shownValue : EStateM ε σ β) (pure value) 0
      state := by
  rw [← built]
  exact follows_pure value state

theorem follows_throw {expected : ε} :
    setting.Follows move (throw expected : EStateM ε σ β) (throw expected) cost
      state :=
  follows_of_error rfl rfl (Reads.refl state)

theorem Follows.mono (follows : setting.Follows move shown reader spent state)
    (fewer : cost ≤ spent) : setting.Follows move shown reader cost state := by
  unfold Follows at follows ⊢
  split at follows
  · exact ⟨follows.1, Reads.mono follows.2 fewer⟩
  · exact follows

theorem follows_bind_of_ok {value : α} {shownValue : β} {rest : σ}
    (ran : reader state = .ok value rest)
    (shownRan : shown (Reads.inSetting setting state) =
      .ok shownValue (Reads.inSetting setting rest))
    (passes : Reads.Passes state spent rest)
    (further : setting.Follows moveNext (shownNext shownValue) (next value)
      (cost - spent) rest) :
    setting.Follows moveNext (shown >>= shownNext) (reader >>= next) cost
      state := by
  unfold Follows at further ⊢
  rw [bind_apply_of_ok ran, bind_apply_of_ok shownRan]
  split at further
  · exact ⟨further.1, Reads.mono (Reads.trans passes further.2) (by omega)⟩
  · exact ⟨further.1, Reads.mono (Reads.trans passes further.2) (by omega)⟩

/-- Two readers one after the other. -/
theorem Follows.bind (follows : setting.Follows move shown reader spent state)
    (fits : setting.Fits (Reads.cursor state))
    (further : ∀ value rest, setting.Fits (Reads.cursor rest) →
      (Reads.cursor rest).span + spent ≤ (Reads.cursor state).span →
      setting.Follows moveNext (shownNext (move value)) (next value)
        (cost - spent) rest) :
    setting.Follows moveNext (shown >>= shownNext) (reader >>= next) cost
      state := by
  cases ran : reader state with
  | ok value rest =>
      rw [Follows, ran] at follows
      obtain ⟨shownRan, passes⟩ := follows
      have onCursor := Reads.onCursor passes
      exact follows_bind_of_ok ran shownRan passes
        (further value rest (fits.of_passes onCursor) onCursor.span_le)
  | error expected rest =>
      rw [Follows, ran] at follows
      obtain ⟨shownRan, passes⟩ := follows
      have failed : (reader >>= next) state = .error expected rest := by
        simp [Bind.bind, EStateM.bind, ran]
      have shownFailed : (shown >>= shownNext) (Reads.inSetting setting state) =
          .error expected (Reads.inSetting setting rest) := by
        simp [Bind.bind, EStateM.bind, shownRan]
      exact follows_of_error failed shownFailed passes

end Following

section Readers

variable {α β γ δ : Type} {setting : Setting} {move : α → β} {moveNext : γ → δ}
  {cursor : Cursor} {kind : Token.Kind} {cost spent : Nat}

theorem Follows.readerBind {shown : Reader β} {reader : Reader α}
    {shownNext : β → Reader δ} {next : α → Reader γ}
    (follows : setting.Follows move shown reader spent cursor)
    (fits : setting.Fits cursor)
    (further : ∀ (value : α) (rest : Cursor), setting.Fits rest →
      rest.span + spent ≤ cursor.span →
      setting.Follows moveNext (shownNext (move value)) (next value)
        (cost - spent) rest) :
    setting.Follows moveNext (shown >>= shownNext) (reader >>= next) cost
      cursor :=
  follows.bind fits further

theorem Fits.next?_apply (fits : setting.Fits cursor) :
    Reader.next? (setting.cursor cursor) =
      .ok cursor.kinds.head? (setting.cursor cursor) := by
  rw [Reader.next?_apply, fits.head?]

theorem Fits.position_apply (fits : setting.Fits cursor) :
    Reader.position (setting.cursor cursor) =
      .ok (setting.position cursor.position) (setting.cursor cursor) := by
  rw [Reader.position_apply, fits.position]

theorem Fits.advance_apply (fits : setting.Fits cursor) :
    Reader.advance (setting.cursor cursor) =
      .ok () (setting.cursor cursor.advance) := by
  rw [Reader.advance_apply, fits.advance_cursor]

theorem Fits.accept_of_head (fits : setting.Fits cursor)
    (found : cursor.kinds.head? = some kind) :
    Reader.accept kind (setting.cursor cursor) =
      .ok true (setting.cursor cursor.advance) := by
  rw [Reader.accept_of_head (by rw [fits.head?, found]), fits.advance_cursor]

theorem Fits.accept_of_ne (fits : setting.Fits cursor)
    (other : cursor.kinds.head? ≠ some kind) :
    Reader.accept kind (setting.cursor cursor) =
      .ok false (setting.cursor cursor) :=
  Reader.accept_of_ne (by rwa [fits.head?])

theorem follows_next?_bind {shown : Option Token.Kind → Reader β}
    {next : Option Token.Kind → Reader α} (fits : setting.Fits cursor)
    (further : setting.Follows move (shown cursor.kinds.head?)
      (next cursor.kinds.head?) cost cursor) :
    setting.Follows move (Reader.next? >>= shown) (Reader.next? >>= next) cost
      cursor :=
  follows_bind_of_ok (Reader.next?_apply cursor) fits.next?_apply
    (Cursor.Passes.refl cursor) further

theorem follows_second?_bind {shown : Option Token.Kind → Reader β}
    {next : Option Token.Kind → Reader α} (fits : setting.Fits cursor)
    (head : cursor.kinds.head? = some kind) (plain : kind ≠ .keyword .funWord)
    (further : setting.Follows move (shown cursor.kinds.tail.head?)
      (next cursor.kinds.tail.head?) cost cursor) :
    setting.Follows move (Reader.second? >>= shown) (Reader.second? >>= next)
      cost cursor := by
  have shownRan : Reader.second? (setting.cursor cursor) =
      .ok cursor.kinds.tail.head? (setting.cursor cursor) := by
    rw [Reader.second?_apply, fits.second? head plain]
  exact follows_bind_of_ok (Reader.second?_apply cursor) shownRan
    (Cursor.Passes.refl cursor) further

theorem follows_position_bind {shown : Position → Reader β}
    {next : Position → Reader α} (fits : setting.Fits cursor)
    (further : setting.Follows move (shown (setting.position cursor.position))
      (next cursor.position) cost cursor) :
    setting.Follows move (Reader.position >>= shown) (Reader.position >>= next)
      cost cursor :=
  follows_bind_of_ok (Reader.position_apply cursor) fits.position_apply
    (Cursor.Passes.refl cursor) further

theorem follows_advance_bind {shown : Unit → Reader β} {next : Unit → Reader α}
    (fits : setting.Fits cursor) (head : cursor.kinds.head? = some kind)
    (plain : kind ≠ .keyword .funWord)
    (further : ∀ rest : Cursor, setting.Fits rest →
      cursor.kinds = kind :: rest.kinds →
      rest.span + 1 ≤ cursor.span →
        setting.Follows move (shown ()) (next ()) (cost - 1) rest) :
    setting.Follows move (Reader.advance >>= shown) (Reader.advance >>= next)
      cost cursor := by
  have passes := Cursor.passes_advance head plain
  exact follows_bind_of_ok (Reader.advance_apply cursor)
    fits.advance_apply passes
    (further _ (fits.of_passes passes) (Cursor.kinds_eq_cons head)
      passes.span_le)

theorem follows_accept_bind {shown : Bool → Reader β} {next : Bool → Reader α}
    (fits : setting.Fits cursor) (plain : kind ≠ .keyword .funWord)
    (ifFound : ∀ rest : Cursor, setting.Fits rest →
      cursor.kinds = kind :: rest.kinds →
      rest.span + 1 ≤ cursor.span →
        setting.Follows move (shown true) (next true) (cost - 1) rest)
    (ifNot : cursor.kinds.head? ≠ some kind →
      setting.Follows move (shown false) (next false) cost cursor) :
    setting.Follows move (Reader.accept kind >>= shown)
      (Reader.accept kind >>= next) cost cursor := by
  by_cases found : cursor.kinds.head? = some kind
  · have passes := Cursor.passes_advance found plain
    exact follows_bind_of_ok (Reader.accept_of_head found)
      (fits.accept_of_head found) passes
      (ifFound _ (fits.of_passes passes) (Cursor.kinds_eq_cons found)
        passes.span_le)
  · exact follows_bind_of_ok (Reader.accept_of_ne found)
      (fits.accept_of_ne found) (Cursor.Passes.refl cursor) (ifNot found)

theorem expect_follows (expected : Expectation) (fits : setting.Fits cursor)
    (plain : kind ≠ .keyword .funWord) :
    setting.Follows id (Reader.expect kind expected)
      (Reader.expect kind expected) 1 cursor := by
  by_cases found : cursor.kinds.head? = some kind
  · have shownRan : Reader.expect kind expected (setting.cursor cursor) =
        .ok () (setting.cursor cursor.advance) := by
      rw [Reader.expect_of_head (by rw [fits.head?, found]),
        fits.advance_cursor]
    exact follows_of_ok (Reader.expect_of_head found) shownRan
      (Cursor.passes_advance found plain)
  · have shownRan : Reader.expect kind expected (setting.cursor cursor) =
        .error expected (setting.cursor cursor) :=
      Reader.expect_of_ne (by rwa [fits.head?])
    exact follows_of_error (Reader.expect_of_ne found) shownRan
      (Cursor.Passes.refl cursor)

theorem follows_expect_bind {expected : Expectation} {shown : Unit → Reader β}
    {next : Unit → Reader α} (fits : setting.Fits cursor)
    (plain : kind ≠ .keyword .funWord)
    (further : ∀ rest : Cursor, setting.Fits rest →
      rest.span + 1 ≤ cursor.span →
      setting.Follows move (shown ()) (next ()) (cost - 1) rest) :
    setting.Follows move (Reader.expect kind expected >>= shown)
      (Reader.expect kind expected >>= next) cost cursor :=
  (expect_follows expected fits plain).readerBind fits fun _ => further

theorem follows_newNode_bind {position : Position} {shown : Node → Reader β}
    {next : Node → Reader α} (fits : setting.Fits cursor)
    (further : ∀ (node : Node) (rest : Cursor), setting.Fits rest →
      rest.span = cursor.span →
      setting.Follows move (shown (node.displace setting.toDisplacement))
        (next node) cost rest) :
    setting.Follows move (Reader.newNode (setting.position position) >>= shown)
      (Reader.newNode position >>= next) cost cursor := by
  have passes : cursor.Passes 0 { cursor with nextId := cursor.nextId + 1 } :=
    ⟨rfl, [], rfl, Nat.le_refl 0, by simp⟩
  have shownRan :
      Reader.newNode (setting.position position) (setting.cursor cursor) =
      .ok (Node.displace setting.toDisplacement ⟨cursor.nextId, position⟩)
        (setting.cursor { cursor with nextId := cursor.nextId + 1 }) := by
    rw [Reader.newNode_apply]
    simp [Setting.cursor, Node.displace, Nat.add_right_comm]
  exact follows_bind_of_ok (Reader.newNode_apply position cursor)
    shownRan passes (further _ _ (fits.of_passes passes) rfl)

theorem identifier_follows (expected : Expectation)
    (fits : setting.Fits cursor) :
    setting.Follows (fun found => (found.1, setting.position found.2))
      (Reader.identifier expected) (Reader.identifier expected) 1 cursor := by
  unfold Reader.identifier
  apply follows_next?_bind fits
  split
  · next name head =>
      apply follows_position_bind fits
      apply follows_advance_bind fits head (by simp)
      intro rest _ _ _
      exact follows_build rfl
  · exact follows_throw

theorem follows_identifier_bind {expected : Expectation}
    {shown : String × Position → Reader β} {next : String × Position → Reader α}
    (fits : setting.Fits cursor)
    (further : ∀ (name : String) (position : Position) (rest : Cursor),
      setting.Fits rest → rest.span + 1 ≤ cursor.span →
      setting.Follows move (shown (name, setting.position position))
        (next (name, position)) (cost - 1) rest) :
    setting.Follows move (Reader.identifier expected >>= shown)
      (Reader.identifier expected >>= next) cost cursor :=
  (identifier_follows expected fits).readerBind fits fun found =>
    further found.1 found.2

theorem follows_speculate_bind {shown : Reader β} {reader : Reader α}
    {shownNext : Option β → Reader δ} {next : Option α → Reader γ}
    (fits : setting.Fits cursor)
    (follows : setting.Follows move shown reader spent cursor)
    (ifRead : ∀ (value : α) (rest : Cursor), setting.Fits rest →
      setting.Follows moveNext (shownNext (some (move value)))
        (next (some value)) (cost - spent) rest)
    (ifNot : setting.Follows moveNext (shownNext none) (next none) cost
      cursor) :
    setting.Follows moveNext (Reader.speculate shown >>= shownNext)
      (Reader.speculate reader >>= next) cost cursor := by
  cases ran : reader cursor with
  | ok value rest =>
      rw [Follows, ran] at follows
      obtain ⟨shownRan, passes⟩ := follows
      have tried : Reader.speculate reader cursor = .ok (some value) rest := by
        simp [Reader.speculate, ran]
      have shownTried : Reader.speculate shown (setting.cursor cursor) =
          .ok (some (move value)) (setting.cursor rest) := by
        unfold Reader.speculate
        rw [show shown (setting.cursor cursor) = _ from shownRan]
        rfl
      exact follows_bind_of_ok tried shownTried passes
        (ifRead value rest (fits.of_passes (Reads.onCursor passes)))
  | error expected rest =>
      rw [Follows, ran] at follows
      have tried : Reader.speculate reader cursor = .ok none cursor := by
        simp [Reader.speculate, ran]
      have shownTried : Reader.speculate shown (setting.cursor cursor) =
          .ok none (setting.cursor cursor) := by
        unfold Reader.speculate
        rw [show shown (setting.cursor cursor) = _ from follows.1]
      exact follows_bind_of_ok tried shownTried (Cursor.Passes.refl cursor)
        ifNot

end Readers

/-- The readers follow each other wherever at most `bound` tokens are left
before the next function. -/
def Mirrors {α β : Type} (setting : Setting) (bound : Nat) (move : α → β)
    (shown : Reader β) (reader : Reader α) (cost : Nat) : Prop :=
  ∀ cursor : Cursor, setting.Fits cursor → cursor.span ≤ bound →
    setting.Follows move shown reader cost cursor

section Loops

variable {α : Type} {setting : Setting} {bound cost : Nat} {move : α → α}
  {shown operand : Reader α}

/-- The operators of a chain start no function, and join operands in the same
way in the setting. -/
def JoinsAlike (setting : Setting) (move : α → α)
    (join? : Token.Kind → Option (α → α → Reader α)) : Prop :=
  ∀ kind join, join? kind = some join → kind ≠ .keyword .funWord ∧
    ∀ left right cursor, setting.Fits cursor →
      setting.Follows move (join (move left) (move right)) (join left right)
        0 cursor

variable {join? : Token.Kind → Option (α → α → Reader α)}

theorem chainFrom_of_none {limit : Nat} {left : α} {cursor : Cursor}
    (none : cursor.kinds.head?.bind join? = .none) :
    Reader.chainFrom operand join? limit left cursor = .ok left cursor := by
  cases limit with
  | zero => rfl
  | succ limit =>
      rw [Reader.chainFrom, bind_apply_of_ok (Reader.next?_apply cursor)]
      simp only [none]
      rfl

theorem chainFrom_follows_of_none {limit shownLimit : Nat} {left : α}
    {cursor : Cursor} (fits : setting.Fits cursor)
    (none : cursor.kinds.head?.bind join? = .none) :
    setting.Follows move (Reader.chainFrom shown join? shownLimit (move left))
      (Reader.chainFrom operand join? limit left) 0 cursor := by
  have shownRan :
      Reader.chainFrom shown join? shownLimit (move left)
        (setting.cursor cursor) =
      .ok (move left) (setting.cursor cursor) :=
    chainFrom_of_none (by rwa [fits.head?])
  exact follows_of_ok (chainFrom_of_none none) shownRan
    (Cursor.Passes.refl cursor)

theorem chainFrom_follows
    (operands : setting.Mirrors bound move shown operand cost)
    (joins : setting.JoinsAlike move join?) {spare limit shownLimit : Nat}
    (enough : spare ≤ limit) (shownEnough : spare ≤ shownLimit)
    (within : spare ≤ bound)
    (left : α) {cursor : Cursor} (fits : setting.Fits cursor)
    (short : cursor.span ≤ spare) :
    setting.Follows move (Reader.chainFrom shown join? shownLimit (move left))
      (Reader.chainFrom operand join? limit left) 0 cursor := by
  induction spare generalizing limit shownLimit left cursor with
  | zero =>
      have noJoin : cursor.kinds.head?.bind join? = none := by
        rcases Cursor.head_of_span_eq_zero (Nat.le_zero.mp short) with
          none | isFun
        · rw [none]
          rfl
        · rw [isFun, Option.bind_some, Option.eq_none_iff_forall_ne_some]
          intro join isJoin
          exact (joins _ join isJoin).1 rfl
      exact chainFrom_follows_of_none fits noJoin
  | succ spare ih =>
      cases found : cursor.kinds.head?.bind join? with
      | none =>
          exact chainFrom_follows_of_none fits found
      | some join =>
          obtain ⟨sign, head, isJoin⟩ := Option.bind_eq_some_iff.mp found
          obtain ⟨plain, alike⟩ := joins sign join isJoin
          obtain ⟨limit, rfl⟩ : ∃ fewer, limit = fewer + 1 :=
            ⟨limit - 1, by omega⟩
          obtain ⟨shownLimit, rfl⟩ : ∃ fewer, shownLimit = fewer + 1 :=
            ⟨shownLimit - 1, by omega⟩
          rw [Reader.chainFrom, Reader.chainFrom]
          apply follows_next?_bind fits
          simp only [found]
          apply follows_advance_bind fits head plain
          intro behind behindFits _ shorter
          apply (operands behind behindFits (by omega)).readerBind behindFits
          intro right reached reachedFits reachedShorter
          rw [Nat.zero_sub]
          apply (alike left right reached reachedFits).readerBind reachedFits
          intro joined last lastFits lastShorter
          exact ih (by omega) (by omega) (by omega) joined lastFits (by omega)

theorem chain_mirrors (operands : setting.Mirrors bound move shown operand cost)
    (joins : setting.JoinsAlike move join?) {limit shownLimit : Nat}
    (enough : bound ≤ limit)
    (shownEnough : bound ≤ shownLimit) :
    setting.Mirrors bound move (Reader.chain shownLimit shown join?)
      (Reader.chain limit operand join?) cost := by
  intro cursor fits short
  apply (operands cursor fits short).readerBind fits
  intro first rest restFits notLonger
  rw [Nat.sub_self]
  exact chainFrom_follows operands joins enough shownEnough (Nat.le_refl bound)
    first restFits (by omega)

/-- What a list between commas is after its first item. -/
def commaRest (item : Reader α) : Nat → α → Reader (List α)
  | 0, first => pure [first]
  | limit + 1, first => do
    if ← Reader.accept (.symbol .comma) then
      return first :: (← Reader.commaList item limit)
    else
      return [first]

theorem commaList_eq (item : Reader α) (limit : Nat) :
    Reader.commaList item limit = item >>= commaRest item limit := by
  cases limit <;> rfl

theorem commaRest_of_ne {limit : Nat} {first : α} {cursor : Cursor}
    (other : cursor.kinds.head? ≠ some (.symbol .comma)) :
    commaRest operand limit first cursor = .ok [first] cursor := by
  cases limit with
  | zero => rfl
  | succ limit =>
      rw [commaRest, bind_apply_of_ok (Reader.accept_of_ne other)]
      rfl

theorem commaList_mirrors
    (items : setting.Mirrors bound move shown operand cost)
    {spare limit shownLimit : Nat} (enough : spare ≤ limit)
    (shownEnough : spare ≤ shownLimit)
    (within : spare ≤ bound) :
    setting.Mirrors spare (List.map move) (Reader.commaList shown shownLimit)
      (Reader.commaList operand limit) cost := by
  induction spare using Nat.strongRecOn generalizing limit shownLimit with
  | _ spare ih =>
      intro cursor fits short
      rw [commaList_eq, commaList_eq]
      apply (items cursor fits (by omega)).readerBind fits
      intro first rest restFits notLonger
      rw [Nat.sub_self]
      by_cases isComma : rest.kinds.head? = some (.symbol .comma)
      · -- A comma is a token before the next function, so neither bound is
        -- used up.
        have left := Cursor.span_pos isComma (by simp)
        obtain ⟨limit, rfl⟩ : ∃ fewer, limit = fewer + 1 :=
          ⟨limit - 1, by omega⟩
        obtain ⟨shownLimit, rfl⟩ : ∃ fewer, shownLimit = fewer + 1 :=
          ⟨shownLimit - 1, by omega⟩
        rw [commaRest, commaRest]
        apply follows_accept_bind restFits (by simp)
        · intro behind behindFits _ shorter
          have others :=
            ih (spare - 1) (by omega) (show spare - 1 ≤ limit by omega)
            (show spare - 1 ≤ shownLimit by omega) (by omega) behind behindFits
              (by omega)
          apply (others.mono (Nat.zero_le cost)).readerBind behindFits
          intro values last lastFits _
          exact follows_pure (first :: values) last
        · intro other
          exact absurd isComma other
      · have shownRan :
            commaRest shown shownLimit (move first) (setting.cursor rest) =
            .ok [move first] (setting.cursor rest) :=
          commaRest_of_ne (by rwa [restFits.head?])
        exact follows_of_ok (commaRest_of_ne isComma) shownRan
          (Cursor.Passes.refl rest)

end Loops

end Setting

end PL0
