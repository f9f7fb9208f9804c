import PL0.Grammar.Cursor
import PL0.Proofs.Grammar.Rules

/-!
# What readers do

Three things are said of a reader at a cursor: that it ensures something
wherever it succeeds, that it succeeds and gives something, and that it fails.
A reader is sound for a category of the grammar if what it passes over is a
word for what it returns.  It is complete if it reads every word of the
category that is not too long for it and that the next token cannot continue.
-/

namespace PL0

open Grammar

section Outcomes

variable {ε σ α β : Type}

/-- Where the computation succeeds, its result and the state after it are as
demanded. -/
def Ensures (reader : EStateM ε σ α) (state : σ) (demand : α → σ → Prop) :
    Prop :=
  ∀ value rest, reader state = .ok value rest → demand value rest

/-- The computation succeeds, and its result and the state after it are as
demanded. -/
def Gives (reader : EStateM ε σ α) (state : σ) (demand : α → σ → Prop) : Prop :=
  ∃ value rest, reader state = .ok value rest ∧ demand value rest

/-- The computation fails. -/
def Fails (reader : EStateM ε σ α) (state : σ) : Prop :=
  ∃ error rest, reader state = .error error rest

variable {reader : EStateM ε σ α} {next : α → EStateM ε σ β} {state : σ}
  {between : α → σ → Prop} {demand : β → σ → Prop}

theorem ensures_pure {value : β} (meets : demand value state) :
    Ensures (pure value : EStateM ε σ β) state demand := by
  rintro _ _ ⟨⟩
  exact meets

theorem ensures_throw {error : ε} :
    Ensures (throw error : EStateM ε σ β) state demand := by
  rintro _ _ ⟨⟩

theorem Ensures.bind (ensures : Ensures reader state between)
    (further : ∀ value rest, between value rest →
      Ensures (next value) rest demand) :
    Ensures (reader >>= next) state demand := by
  intro result last ran
  cases readerRan : reader state with
  | ok value rest =>
      refine further value rest (ensures value rest readerRan) result last ?_
      simpa [Bind.bind, EStateM.bind, readerRan] using ran
  | error error rest => simp [Bind.bind, EStateM.bind, readerRan] at ran

theorem Ensures.mono {weaker : α → σ → Prop}
    (ensures : Ensures reader state between)
    (implies : ∀ value rest, between value rest → weaker value rest) :
    Ensures reader state weaker :=
  fun value rest ran => implies value rest (ensures value rest ran)

theorem gives_pure {value : β} (meets : demand value state) :
    Gives (pure value : EStateM ε σ β) state demand :=
  ⟨value, state, rfl, meets⟩

theorem Gives.bind (gives : Gives reader state between)
    (further : ∀ value rest, between value rest →
      Gives (next value) rest demand) :
    Gives (reader >>= next) state demand := by
  obtain ⟨value, rest, readerRan, met⟩ := gives
  obtain ⟨result, last, nextRan, meets⟩ := further value rest met
  refine ⟨result, last, ?_, meets⟩
  simpa [Bind.bind, EStateM.bind, readerRan] using nextRan

theorem Gives.mono {weaker : α → σ → Prop} (gives : Gives reader state between)
    (implies : ∀ value rest, between value rest → weaker value rest) :
    Gives reader state weaker := by
  obtain ⟨value, rest, ran, meets⟩ := gives
  exact ⟨value, rest, ran, implies value rest meets⟩

theorem fails_throw {error : ε} : Fails (throw error : EStateM ε σ β) state :=
  ⟨error, state, rfl⟩

theorem Fails.bind (fails : Fails reader state) :
    Fails (reader >>= next) state := by
  obtain ⟨error, rest, ran⟩ := fails
  exact ⟨error, rest, by simp [Bind.bind, EStateM.bind, ran]⟩

theorem Gives.bind_fails (gives : Gives reader state between)
    (further : ∀ value rest, between value rest → Fails (next value) rest) :
    Fails (reader >>= next) state := by
  obtain ⟨value, rest, readerRan, met⟩ := gives
  obtain ⟨error, last, nextRan⟩ := further value rest met
  exact ⟨error, last, by simpa [Bind.bind, EStateM.bind, readerRan]
    using nextRan⟩

theorem bind_apply_of_ok {value : α} {rest : σ}
    (ran : reader state = .ok value rest) :
    (reader >>= next) state = next value rest := by
  simp [Bind.bind, EStateM.bind, ran]

theorem ensures_bind_of_ok {value : α} {rest : σ}
    (ran : reader state = .ok value rest)
    (ensures : Ensures (next value) rest demand) :
    Ensures (reader >>= next) state demand := by
  intro result last bothRan
  rw [bind_apply_of_ok ran] at bothRan
  exact ensures result last bothRan

theorem gives_bind_of_ok {value : α} {rest : σ}
    (ran : reader state = .ok value rest)
    (gives : Gives (next value) rest demand) :
    Gives (reader >>= next) state demand := by
  obtain ⟨result, last, nextRan, meets⟩ := gives
  exact ⟨result, last, by rw [bind_apply_of_ok ran, nextRan], meets⟩

theorem fails_bind_of_ok {value : α} {rest : σ}
    (ran : reader state = .ok value rest) (fails : Fails (next value) rest) :
    Fails (reader >>= next) state := by
  obtain ⟨error, last, nextRan⟩ := fails
  exact ⟨error, last, by rw [bind_apply_of_ok ran, nextRan]⟩

end Outcomes

/-- The kinds of the tokens still to be read. -/
def Cursor.kinds (cursor : Cursor) : Word :=
  cursor.tokens.map Token.kind

namespace Cursor

theorem next?_eq (cursor : Cursor) : cursor.next? = cursor.kinds.head? := by
  simp [next?, kinds]

theorem second?_eq (cursor : Cursor) :
    cursor.second? = cursor.kinds.tail.head? := by
  simp [second?, kinds]

theorem kinds_advance (cursor : Cursor) :
    cursor.advance.kinds = cursor.kinds.tail := by
  simp [advance, kinds]

theorem length_kinds (cursor : Cursor) :
    cursor.kinds.length = cursor.tokens.length := by
  simp [kinds]

theorem length_le_of_kinds_eq {cursor : Cursor} {word rest : Word}
    (kindsEq : cursor.kinds = word ++ rest) :
    word.length ≤ cursor.kinds.length := by
  rw [kindsEq, List.length_append]
  omega

theorem kinds_eq_cons {cursor : Cursor} {kind : Token.Kind}
    (head : cursor.kinds.head? = some kind) :
    cursor.kinds = kind :: cursor.advance.kinds := by
  rw [kinds_advance]
  cases kindsEq : cursor.kinds with
  | nil => simp [kindsEq] at head
  | cons first others =>
      rw [kindsEq, List.head?_cons, Option.some.injEq] at head
      rw [head, List.tail_cons]

end Cursor

namespace Reader

variable {α β : Type} {cursor : Cursor} {kind : Token.Kind} {rest : Word}
  {demand : α → Cursor → Prop}

theorem next?_apply (cursor : Cursor) :
    next? cursor = .ok cursor.kinds.head? cursor := by
  rw [← Cursor.next?_eq]
  rfl

theorem second?_apply (cursor : Cursor) :
    second? cursor = .ok cursor.kinds.tail.head? cursor := by
  rw [← Cursor.second?_eq]
  rfl

theorem position_apply (cursor : Cursor) :
    position cursor = .ok cursor.position cursor :=
  rfl

theorem remaining_apply (cursor : Cursor) :
    remaining cursor = .ok cursor.kinds.length cursor := by
  rw [Cursor.length_kinds]
  rfl

theorem advance_apply (cursor : Cursor) :
    advance cursor = .ok () cursor.advance :=
  rfl

theorem newNode_apply (position : Position) (cursor : Cursor) :
    newNode position cursor =
      .ok ⟨cursor.nextId,
        position⟩ { cursor with nextId := cursor.nextId + 1 } :=
  rfl

theorem accept_of_head (head : cursor.kinds.head? = some kind) :
    accept kind cursor = .ok true cursor.advance := by
  unfold accept
  rw [bind_apply_of_ok (next?_apply cursor), head, if_pos rfl,
    bind_apply_of_ok (advance_apply cursor)]
  rfl

theorem accept_of_ne (other : cursor.kinds.head? ≠ some kind) :
    accept kind cursor = .ok false cursor := by
  unfold accept
  rw [bind_apply_of_ok (next?_apply cursor), if_neg other]
  rfl

theorem expect_of_head {expected : Expectation}
    (head : cursor.kinds.head? = some kind) :
    expect kind expected cursor = .ok () cursor.advance := by
  unfold expect
  rw [bind_apply_of_ok (accept_of_head head)]
  rfl

theorem expect_of_ne {expected : Expectation}
    (other : cursor.kinds.head? ≠ some kind) :
    expect kind expected cursor = .error expected cursor := by
  unfold expect
  rw [bind_apply_of_ok (accept_of_ne other)]
  rfl

theorem identifier_of_head {expected : Expectation} {name : String}
    (head : cursor.kinds.head? = some (.identifier name)) :
    identifier expected cursor = .ok (name,
      cursor.position) cursor.advance := by
  unfold identifier
  rw [bind_apply_of_ok (next?_apply cursor), head]
  rfl

section Ensuring

theorem ensures_accept_bind {next : Bool → Reader α}
    (ifFound : ∀ after : Cursor, cursor.kinds = kind :: after.kinds →
      Ensures (next true) after demand)
    (ifNot : cursor.kinds.head? ≠ some kind →
      Ensures (next false) cursor demand) :
    Ensures (accept kind >>= next) cursor demand := by
  by_cases found : cursor.kinds.head? = some kind
  · exact ensures_bind_of_ok (accept_of_head found)
      (ifFound cursor.advance (Cursor.kinds_eq_cons found))
  · exact ensures_bind_of_ok (accept_of_ne found) (ifNot found)

theorem expect_ensures {expected : Expectation} (cursor : Cursor) :
    Ensures (expect kind expected) cursor fun _ after =>
      cursor.kinds = kind :: after.kinds := by
  by_cases found : cursor.kinds.head? = some kind
  · rw [Ensures, expect_of_head found]
    rintro _ _ ⟨⟩
    exact Cursor.kinds_eq_cons found
  · rw [Ensures, expect_of_ne found]
    rintro _ _ ⟨⟩

theorem ensures_expect_bind {expected : Expectation} {next : Unit → Reader α}
    (ifFound : ∀ after : Cursor, cursor.kinds = kind :: after.kinds →
      Ensures (next ()) after demand) :
    Ensures (expect kind expected >>= next) cursor demand :=
  (expect_ensures cursor).bind fun _ => ifFound

theorem ensures_advance_bind {next : Unit → Reader α}
    (head : cursor.kinds.head? = some kind)
    (further : ∀ after : Cursor, cursor.kinds = kind :: after.kinds →
      Ensures (next ()) after demand) :
    Ensures (advance >>= next) cursor demand :=
  ensures_bind_of_ok (advance_apply cursor)
    (further cursor.advance (Cursor.kinds_eq_cons head))

theorem ensures_newNode_bind {position : Position} {next : Node → Reader α}
    (further : ∀ (node : Node) (after : Cursor), after.kinds = cursor.kinds →
      Ensures (next node) after demand) :
    Ensures (newNode position >>= next) cursor demand :=
  ensures_bind_of_ok (newNode_apply position cursor) (further _ _ rfl)

theorem identifier_ensures {expected : Expectation} (cursor : Cursor) :
    Ensures (identifier expected) cursor fun named after =>
      cursor.kinds = .identifier named.1 :: after.kinds := by
  unfold identifier
  refine ensures_bind_of_ok (next?_apply cursor) ?_
  split
  · next name head =>
      refine ensures_bind_of_ok (position_apply cursor)
        (ensures_advance_bind head ?_)
      intro after kindsEq
      exact ensures_pure kindsEq
  · exact ensures_throw

theorem ensures_identifier_bind {expected : Expectation}
    {next : String × Position → Reader α}
    (further : ∀ (name : String) (position : Position) (after : Cursor),
      cursor.kinds = .identifier name :: after.kinds →
      Ensures (next (name, position)) after demand) :
    Ensures (identifier expected >>= next) cursor demand := by
  refine (identifier_ensures cursor).bind ?_
  rintro ⟨name, position⟩ after kindsEq
  exact further name position after kindsEq

end Ensuring

section Giving

theorem gives_accept_bind {next : Bool → Reader α}
    (kindsEq : cursor.kinds = kind :: rest)
    (further : ∀ after : Cursor, after.kinds = rest →
      Gives (next true) after demand) :
    Gives (accept kind >>= next) cursor demand :=
  gives_bind_of_ok (accept_of_head (by rw [kindsEq]; rfl))
    (further cursor.advance (by rw [Cursor.kinds_advance, kindsEq]; rfl))

theorem gives_accept_bind_of_ne {next : Bool → Reader α}
    (other : cursor.kinds.head? ≠ some kind)
    (gives : Gives (next false) cursor demand) :
    Gives (accept kind >>= next) cursor demand :=
  gives_bind_of_ok (accept_of_ne other) gives

theorem gives_expect_bind {expected : Expectation} {next : Unit → Reader α}
    (kindsEq : cursor.kinds = kind :: rest)
    (further : ∀ after : Cursor, after.kinds = rest →
      Gives (next ()) after demand) :
    Gives (expect kind expected >>= next) cursor demand :=
  gives_bind_of_ok (expect_of_head (by rw [kindsEq]; rfl))
    (further cursor.advance (by rw [Cursor.kinds_advance, kindsEq]; rfl))

theorem gives_advance_bind {next : Unit → Reader α}
    (kindsEq : cursor.kinds = kind :: rest)
    (further : ∀ after : Cursor, after.kinds = rest →
      Gives (next ()) after demand) :
    Gives (advance >>= next) cursor demand :=
  gives_bind_of_ok (advance_apply cursor)
    (further cursor.advance (by rw [Cursor.kinds_advance, kindsEq]; rfl))

theorem gives_newNode_bind {position : Position} {next : Node → Reader α}
    (further : ∀ (node : Node) (after : Cursor), after.kinds = cursor.kinds →
      Gives (next node) after demand) :
    Gives (newNode position >>= next) cursor demand :=
  gives_bind_of_ok (newNode_apply position cursor) (further _ _ rfl)

theorem gives_identifier_bind {expected : Expectation} {name : String}
    {next : String × Position → Reader α}
    (kindsEq : cursor.kinds = .identifier name :: rest)
    (further : ∀ (position : Position) (after : Cursor), after.kinds = rest →
      Gives (next (name, position)) after demand) :
    Gives (identifier expected >>= next) cursor demand :=
  gives_bind_of_ok (identifier_of_head (by rw [kindsEq]; rfl))
    (further _ cursor.advance (by rw [Cursor.kinds_advance, kindsEq]; rfl))

end Giving

end Reader

end PL0
