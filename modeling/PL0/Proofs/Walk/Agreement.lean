import PL0.Proofs.Grammar.Recovering
import PL0.Proofs.Walk.Basic

/-!
# A walk and a reader in step

Where a walk stands at an index, a reader stands before the tokens from that
index up to the end of the input.  The two agree if they end in the same way:
both with the same value, or both at a token that does not fit, and again at
the same place.  In particular the walk is not stuck.  A walk never goes back,
so agreement along a rule is put together step by step.
-/

namespace PL0

/-- Readers, and what is made of them, act on the states of recovering
readers. -/
instance : LawfulMonadLift Reader Attempt where
  monadLift_pure _ := rfl
  monadLift_bind reader next := by
    funext state
    change (liftM (reader >>= next) : Attempt _) state =
      (liftM reader >>= fun value => liftM (next value) : Attempt _) state
    cases ran : reader state.cursor with
    | ok value cursor =>
        rw [bind_apply_of_ok (Attempt.lift_apply_of_ok ran), Attempt.lift_apply,
          bind_apply_of_ok ran, Attempt.lift_apply]
    | error expected cursor =>
        have bothRan :
            (reader >>= next) state.cursor = .error expected cursor := by
          simp [Bind.bind, EStateM.bind, ran]
        rw [Attempt.lift_apply_of_error bothRan]
        simp [Bind.bind, EStateM.bind, Attempt.lift_apply_of_error ran]

instance : LawfulMonadLift Recoverer Attempt where
  monadLift_pure _ := rfl
  monadLift_bind _ _ := rfl

theorem Recoverer.lift_apply {α : Type} (reader : Recoverer α)
    (state : Recovery) :
    (liftM reader : Attempt α) state = .ok (reader state).1 (reader state).2 :=
  rfl

/-- Tokens up to the end of the input, and what stands behind it. -/
structure Input where
  tokens : List Token
  unended : ∀ token ∈ tokens, token.kind ≠ .endOfInput
  stop : Position
  unread : List Token

namespace Input

variable (input : Input)

/-- All tokens. -/
def all : List Token :=
  input.tokens ++ ⟨.endOfInput, input.stop⟩ :: input.unread

/-- The state of a reader where the walk stands. -/
def state (walker : Walker) : Recovery where
  cursor := ⟨input.tokens.drop walker.index, input.stop, walker.nextId⟩
  errors := walker.errors
  recovering := walker.recovering

/-- The token where the walk stands. -/
def token (walker : Walker) : Token :=
  input.tokens[walker.index]?.getD ⟨.endOfInput, input.stop⟩

/-- The kind of the token where the walk stands, none at the end of the
input. -/
def head? (walker : Walker) : Option Token.Kind :=
  input.tokens[walker.index]?.map Token.kind

/-- How many tokens there are up to the end of the input. -/
def left (walker : Walker) : Nat :=
  input.tokens.length - walker.index

/-- The walk is over these tokens and has not passed their end. -/
structure Contains (walker : Walker) : Prop where
  tokens : walker.tokens = input.all
  index_le : walker.index ≤ input.tokens.length

/-- The walk can go from one place to another. -/
structure Reaches (walker rest : Walker) : Prop where
  contains : input.Contains rest
  index_le : walker.index ≤ rest.index

variable {input} {walker rest last : Walker} {kind : Token.Kind}

theorem Contains.reaches (contains : input.Contains walker) :
    input.Reaches walker walker :=
  ⟨contains, Nat.le_refl _⟩

theorem Reaches.trans (first : input.Reaches walker rest)
    (second : input.Reaches rest last) : input.Reaches walker last :=
  ⟨second.contains, Nat.le_trans first.index_le second.index_le⟩

theorem left_le (onwards : walker.index ≤ rest.index) :
    input.left rest ≤ input.left walker :=
  Nat.sub_le_sub_left onwards _

theorem Reaches.left_le (reaches : input.Reaches walker rest) :
    input.left rest ≤ input.left walker :=
  Input.left_le reaches.index_le

theorem lt_length_of_head? (head : input.head? walker = some kind) :
    walker.index < input.tokens.length := by
  obtain ⟨token, found, _⟩ := Option.map_eq_some_iff.mp head
  exact (List.getElem?_eq_some_iff.mp found).1

theorem Contains.left_lt (contains : input.Contains rest)
    (onward : walker.index < rest.index) :
    input.left rest < input.left walker := by
  have within := contains.index_le
  unfold left
  omega

theorem Reaches.after (reaches : input.Reaches rest last)
    (onward : walker.index < rest.index) : walker.index < last.index :=
  Nat.lt_of_lt_of_le onward reaches.index_le

theorem next?_state (walker : Walker) :
    (input.state walker).cursor.next? = input.head? walker := by
  simp [Cursor.next?, state, head?]

theorem state_of_left_eq_zero (none : input.left walker = 0) :
    (input.state walker).cursor = ⟨[], input.stop, walker.nextId⟩ := by
  rw [left, Nat.sub_eq_zero_iff_le] at none
  rw [state, List.drop_eq_nil_of_le none]

theorem Contains.index_eq_of_head? (contains : input.Contains walker)
    (atEnd : input.head? walker = none) :
    walker.index = input.tokens.length := by
  have beyond := List.getElem?_eq_none_iff.mp (Option.map_eq_none_iff.mp atEnd)
  exact Nat.le_antisymm contains.index_le beyond

variable {m : Type → Type} [MonadLiftT m Attempt] {α β : Type}

/-- The walk and the reader do the same, and a result is as demanded. -/
def Agrees (input : Input) (walker : Walker) (walk : Walk α) (reader : m α)
    (demand : α → Walker → Prop) : Prop :=
  input.Contains walker → match walk walker with
    | .ok value rest =>
      (liftM reader : Attempt α) (input.state walker) =
        .ok value (input.state rest) ∧
        input.Reaches walker rest ∧ demand value rest
    | .error (.refused error) rest =>
      ∃ expected, (liftM reader : Attempt α) (input.state walker) =
          .error expected (input.state rest) ∧
        input.Reaches walker rest ∧
          error = (input.state rest).cursor.unexpected expected
    | .error .stuck _ => False

variable {walk : Walk α} {nextWalk : α → Walk β} {demand between : α →
  Walker → Prop} {demandNext : β → Walker → Prop}

theorem Agrees.lift {reader : m α}
    (agrees : input.Agrees walker walk reader demand) :
    input.Agrees walker walk (liftM reader : Attempt α) demand :=
  agrees

theorem agrees_of_eq {reader : m α} {value : α}
    (reaches : input.Reaches walker rest)
    (walked : walk walker = .ok value rest)
    (read : (liftM reader : Attempt α) (input.state walker) =
      .ok value (input.state rest))
    (meets : demand value rest) : input.Agrees walker walk reader demand := by
  intro _
  rw [walked]
  exact ⟨read, reaches, meets⟩

theorem Agrees.mono {reader : m α}
    (agrees : input.Agrees walker walk reader between)
    (implies : ∀ value rest, input.Reaches walker rest → between value rest →
      demand value rest) : input.Agrees walker walk reader demand := by
  intro contains
  have same := agrees contains
  cases ran : walk walker with
  | ok value rest =>
      rw [ran] at same
      exact ⟨same.1, same.2.1, implies value rest same.2.1 same.2.2⟩
  | error halt rest =>
      rw [ran] at same
      cases halt <;> exact same

/-- A bound of the reader is positive, or it is at the end of the input and
might as well be. -/
theorem agrees_of_limit (read : Nat → m α) {limit : Nat}
    (covered : input.left walker ≤ limit)
    (atEnd : ∀ state : Recovery, state.cursor.tokens = [] →
      (liftM (read 0) : Attempt α) state = (liftM (read 1) : Attempt α) state)
    (positive : ∀ smaller, input.left walker ≤ smaller + 1 →
      input.Agrees walker walk (read (smaller + 1)) demand) :
    input.Agrees walker walk (read limit) demand := by
  cases limit with
  | succ smaller => exact positive smaller covered
  | zero =>
      have nothing := state_of_left_eq_zero (Nat.le_zero.mp covered)
      have same := atEnd (input.state walker) (by rw [nothing])
      intro contains
      rw [same]
      exact positive 0 (Nat.le_succ_of_le covered) contains

/-- Only what is done where the walk stands matters. -/
theorem Agrees.congr {other : Walk α} {reader otherReader : m α}
    (agrees : input.Agrees walker other otherReader demand)
    (walked : input.Contains walker → walk walker = other walker)
    (read : (liftM reader : Attempt α) (input.state walker) =
      (liftM otherReader : Attempt α) (input.state walker)) :
    input.Agrees walker walk reader demand := by
  intro contains
  rw [walked contains, read]
  exact agrees contains

variable [Monad m] [LawfulMonadLiftT m Attempt] {reader : m α} {next : α → m β}

/-- A first step of the walk and of the reader may have results of their own. -/
theorem agrees_bind_of_eq {γ : Type} {first : Walk γ} {afterFirst : γ → Walk β}
    {seen : γ} {value : α} (reaches : input.Reaches walker rest)
    (walked : first walker = .ok seen rest)
    (read : (liftM reader : Attempt α) (input.state walker) =
      .ok value (input.state rest))
    (further : input.Agrees rest (afterFirst seen) (next value) demandNext) :
    input.Agrees walker (first >>= afterFirst) (reader >>= next)
      demandNext := by
  intro _
  have lifted : (liftM (reader >>= next) : Attempt β) =
      liftM reader >>= fun value => liftM (next value) :=
    monadLift_bind reader next
  rw [lifted, bind_apply_of_ok walked, bind_apply_of_ok read]
  have same := further reaches.contains
  cases ran : afterFirst seen rest with
  | ok result last =>
      rw [ran] at same
      exact ⟨same.1, reaches.trans same.2.1, same.2.2⟩
  | error halt last =>
      rw [ran] at same
      cases halt with
      | stuck => exact same
      | refused error =>
          obtain ⟨expected, nextRead, further, errorEq⟩ := same
          exact ⟨expected, nextRead, reaches.trans further, errorEq⟩

theorem agrees_pure {value : α} (meets : demand value walker) :
    input.Agrees walker (pure value) (pure value : m α) demand := by
  intro contains
  refine ⟨?_, contains.reaches, meets⟩
  change (monadLift (pure value : m α) : Attempt α) _ = _
  rw [monadLift_pure]
  rfl

theorem Agrees.bind (agrees : input.Agrees walker walk reader between)
    (further : ∀ value rest, input.Reaches walker rest → between value rest →
      input.Agrees rest (nextWalk value) (next value) demandNext) :
    input.Agrees walker (walk >>= nextWalk) (reader >>= next) demandNext := by
  intro contains
  have first := agrees contains
  cases ran : walk walker with
  | ok value rest =>
      rw [ran] at first
      obtain ⟨read, reaches, met⟩ := first
      exact agrees_bind_of_eq reaches ran read (further value rest reaches met)
        contains
  | error halt rest =>
      rw [ran] at first
      cases halt with
      | stuck => exact first.elim
      | refused error =>
          obtain ⟨expected, read, reaches, errorEq⟩ := first
          have lifted : (liftM (reader >>= next) : Attempt β) =
              liftM reader >>= fun value => liftM (next value) :=
            monadLift_bind reader next
          have stopped :
              (walk >>= nextWalk) walker = .error (.refused error) rest := by
            simp [Bind.bind, EStateM.bind, ran]
          rw [stopped, lifted]
          exact ⟨expected, by simp [Bind.bind, EStateM.bind, read], reaches,
            errorEq⟩

/-- The reader may look at its state in between. -/
theorem agrees_read_bind {γ : Type} {look : m γ} {follow : γ → m α} {value : γ}
    (read : (liftM look : Attempt γ) (input.state walker) =
      .ok value (input.state walker))
    (agrees : input.Agrees walker walk (follow value) demand) :
    input.Agrees walker walk (look >>= follow) demand := by
  intro contains
  have lifted : (liftM (look >>= follow) : Attempt α) =
      liftM look >>= fun value => liftM (follow value) :=
    monadLift_bind look follow
  rw [lifted, bind_apply_of_ok read]
  exact agrees contains

section Steps

omit [MonadLiftT m Attempt] [Monad m] [LawfulMonadLiftT m Attempt]

theorem Contains.current? (contains : input.Contains walker) :
    walker.current? = some (input.token walker) := by
  have within := contains.index_le
  have unended : ((walker.tokens.take walker.index).any
      fun earlier => earlier.kind = .endOfInput) = false := by
    rw [contains.tokens, all, List.take_append_of_le_length within,
      List.any_eq_false]
    intro token member
    simpa using input.unended token (List.mem_of_mem_take member)
  rw [Walker.current?, unended, contains.tokens, all, token]
  rcases Nat.lt_or_eq_of_le within with inside | atEnd
  · simp [List.getElem?_append_left inside, inside]
  · simp [atEnd]

theorem peek_apply (contains : input.Contains walker) :
    Walk.peek walker = .ok (input.token walker) walker := by
  change Walk.found walker.current? walker = _
  rw [contains.current?]
  rfl

theorem next?_apply (contains : input.Contains walker) :
    Walk.next? walker = .ok (input.head? walker) walker := by
  unfold Walk.next? head?
  rw [bind_apply_of_ok (peek_apply contains), token]
  cases found : input.tokens[walker.index]? with
  | none => rfl
  | some token =>
      have plain : token.kind ≠ .endOfInput :=
        input.unended token (List.mem_of_getElem? found)
      rw [Option.getD_some, if_neg plain]
      rfl

theorem position_state (walker : Walker) :
    (input.state walker).cursor.position = (input.token walker).position := by
  rw [Cursor.position, state, List.head?_drop, token]
  cases input.tokens[walker.index]? <;> rfl

theorem position_apply (contains : input.Contains walker) :
    Walk.position walker = .ok (input.state walker).cursor.position walker := by
  unfold Walk.position
  rw [bind_apply_of_ok (peek_apply contains), position_state]
  rfl

theorem unexpected_apply (contains : input.Contains walker)
    (expected : Expectation) :
    Walk.unexpected expected walker =
      .ok ((input.state walker).cursor.unexpected expected) walker := by
  unfold Walk.unexpected Cursor.unexpected
  rw [bind_apply_of_ok (next?_apply contains),
    bind_apply_of_ok (position_apply contains), next?_state]
  rfl

/-- The walk after the next token. -/
def step (walker : Walker) : Walker :=
  { walker with index := walker.index + 1 }

theorem reaches_step (contains : input.Contains walker)
    (head : input.head? walker = some kind) :
    input.Reaches walker (step walker) :=
  ⟨⟨contains.tokens, lt_length_of_head? head⟩, Nat.le_succ _⟩

theorem state_step (walker : Walker) :
    input.state (step walker) = (input.state walker).advance := by
  simp [state, step, Recovery.advance, Cursor.advance]

theorem take_apply (contains : input.Contains walker)
    (head : input.head? walker = some kind) :
    Walk.take walker = .ok (input.token walker) (step walker) := by
  have stepped : (step walker).previous? = some (input.token walker) := by
    have inside := lt_length_of_head? head
    rw [Walker.previous?, step, contains.tokens, all, token]
    simp [List.getElem?_append_left inside, inside]
  unfold Walk.take
  rw [bind_apply_of_ok (next?_apply contains), head]
  change Walk.found (step walker).previous? (step walker) = _
  rw [stepped]
  rfl

theorem advance_apply (contains : input.Contains walker)
    (head : input.head? walker = some kind) :
    Walk.advance walker = .ok () (step walker) := by
  unfold Walk.advance
  rw [bind_apply_of_ok (take_apply contains head)]
  rfl

theorem next?_agrees :
    input.Agrees walker Walk.next? Reader.next? fun head? rest =>
    input.head? walker = head? ∧ walker = rest := by
  intro contains
  refine agrees_of_eq contains.reaches (next?_apply contains) ?_ ⟨rfl,
    rfl⟩ contains
  rw [← next?_state]
  rfl

theorem recoverer_next?_agrees :
    input.Agrees walker Walk.next? Recoverer.next? fun head? rest =>
    input.head? walker = head? ∧ walker = rest :=
  next?_agrees

theorem position_agrees :
    input.Agrees walker Walk.position Reader.position fun _ rest =>
    walker = rest := by
  intro contains
  exact agrees_of_eq contains.reaches (position_apply contains) rfl rfl contains

/-- A token after the next one is the same for both, unless the walk stands at
the end of the input or before it. -/
theorem agrees_second?_bind {nextWalk : Option Token.Kind → Walk β}
    {next : Option Token.Kind → Reader β}
    (further : ∀ seen read, (∀ kind, input.head? walker = some kind → ∀ other,
        other ≠ .endOfInput → (seen = some other ↔ read = some other)) →
      input.Agrees walker (nextWalk seen) (next read) demandNext) :
    input.Agrees walker (Walk.second? >>= nextWalk) (Reader.second? >>= next)
      demandNext := by
  intro contains
  have walked : Walk.second? walker =
      .ok (walker.tokens[walker.index + 1]?.map Token.kind) walker := rfl
  refine agrees_bind_of_eq contains.reaches walked rfl (further _ _ ?_) contains
  intro kind head other plain
  have inside := lt_length_of_head? head
  rw [contains.tokens, all, Cursor.second?, state, List.tail_drop,
    List.head?_drop]
  rcases Nat.lt_or_eq_of_le (Nat.succ_le_of_lt inside) with before | last
  · rw [List.getElem?_append_left before]
  · have isEnd : walker.index + 1 = input.tokens.length := last
    simp [isEnd, plain.symm]

theorem advance_agrees (head : input.head? walker = some kind) :
    input.Agrees walker Walk.advance Reader.advance fun _ rest =>
      walker.index < rest.index := by
  intro contains
  refine agrees_of_eq (reaches_step contains head)
    (advance_apply contains head) ?_ (Nat.lt_succ_self _) contains
  rw [state_step]
  rfl

theorem recoverer_advance_agrees (head : input.head? walker = some kind) :
    input.Agrees walker Walk.advance Recoverer.advance fun _ rest =>
      walker.index < rest.index :=
  advance_agrees head

/-- Readers of either kind accept a token by looking at it and then passing
over it. -/
theorem accept_agrees_of {m : Type → Type} [Monad m] [MonadLiftT m Attempt]
    [LawfulMonadLiftT m Attempt] {look : m (Option Token.Kind)} {pass : m Unit}
    (looks : input.Agrees walker Walk.next? look fun head? rest =>
      input.head? walker = head? ∧ walker = rest)
    (passes : input.head? walker = some kind →
      input.Agrees walker Walk.advance pass fun _ rest =>
        walker.index < rest.index) :
    input.Agrees walker (Walk.accept kind)
      (do if (← look) = some kind then pass; return true else return false)
      fun found rest =>
        cond found (walker.index < rest.index) (walker = rest) := by
  unfold Walk.accept
  refine looks.bind ?_
  rintro _ _ - ⟨rfl, rfl⟩
  split
  · next found =>
      refine (passes found).bind ?_
      intro _ rest _ onward
      exact agrees_pure onward
  · exact agrees_pure rfl

theorem accept_agrees : input.Agrees walker (Walk.accept kind)
    (Reader.accept kind)
    fun found rest => cond found (walker.index < rest.index) (walker = rest) :=
  accept_agrees_of next?_agrees advance_agrees

theorem recoverer_accept_agrees : input.Agrees walker (Walk.accept kind)
    (Recoverer.accept kind)
    fun found rest => cond found (walker.index < rest.index) (walker = rest) :=
  accept_agrees_of recoverer_next?_agrees recoverer_advance_agrees

theorem refuse_agrees {expected : Expectation} :
    input.Agrees walker (Walk.refuse expected) (throw expected : Reader α)
      demand := by
  intro contains
  have walked : Walk.refuse expected walker =
      (.error (.refused ((input.state walker).cursor.unexpected expected))
        walker : EStateM.Result Halt Walker α) := by
    unfold Walk.refuse
    rw [bind_apply_of_ok (unexpected_apply contains expected)]
    rfl
  rw [walked]
  exact ⟨expected, rfl, contains.reaches, rfl⟩

theorem expect_agrees {expected : Expectation} :
    input.Agrees walker (Walk.expect kind expected)
      (Reader.expect kind expected)
      fun _ rest => walker.index < rest.index := by
  unfold Walk.expect Reader.expect
  refine accept_agrees.bind ?_
  intro found rest _ onward
  cases found with
  | true => exact agrees_pure onward
  | false => exact refuse_agrees

theorem identifier_agrees {expected : Expectation} :
    input.Agrees walker (Walk.identifier expected) (Reader.identifier expected)
      fun _ rest => walker.index < rest.index := by
  unfold Walk.identifier Reader.identifier
  refine next?_agrees.bind ?_
  rintro _ _ - ⟨rfl, rfl⟩
  cases head : input.head? walker with
  | none => exact refuse_agrees
  | some kind =>
      cases kind with
      | identifier name =>
          intro contains
          have walked :
              (do return (name, (← Walk.take).position) :
                  Walk (String × Position)) walker =
                .ok (name, (input.token walker).position) (step walker) := by
            rw [bind_apply_of_ok (take_apply contains head)]
            rfl
          refine agrees_of_eq (reaches_step contains head) walked ?_
            (Nat.lt_succ_self _) contains
          rw [← position_state, state_step]
          rfl
      | _ => exact refuse_agrees

theorem newNode_agrees (position : Position) :
    input.Agrees walker (Walk.newNode position) (Reader.newNode position)
      fun _ _ => True := by
  intro contains
  exact ⟨rfl, ⟨⟨contains.tokens, contains.index_le⟩, Nat.le_refl _⟩, trivial⟩

theorem advance_agrees_atEnd (atEnd : input.head? walker = none) :
    input.Agrees walker Walk.advance Reader.advance fun _ rest =>
      walker = rest := by
  intro contains
  have index := contains.index_eq_of_head? atEnd
  obtain ⟨token, isPrevious⟩ : ∃ token, walker.previous? = some token := by
    have inside : walker.index - 1 < walker.tokens.length := by
      rw [contains.tokens, all, List.length_append, List.length_cons]
      omega
    exact ⟨_, List.getElem?_eq_getElem inside⟩
  have taken : Walk.take walker = .ok token walker := by
    unfold Walk.take
    rw [bind_apply_of_ok (next?_apply contains), atEnd]
    change Walk.found walker.previous? walker = _
    rw [isPrevious]
    rfl
  have walked : Walk.advance walker = .ok () walker := by
    unfold Walk.advance
    rw [bind_apply_of_ok taken]
    rfl
  refine agrees_of_eq contains.reaches walked ?_ rfl contains
  have nothing : input.tokens.drop walker.index = [] :=
    List.drop_eq_nil_of_le (Nat.le_of_eq index.symm)
  simp [Attempt.lift_apply, Reader.advance_apply, Cursor.advance, state,
    nothing]

theorem advance_simulates :
    input.Agrees walker Walk.advance Reader.advance fun _ _ => True := by
  cases head : input.head? walker with
  | none => exact (advance_agrees_atEnd head).mono fun _ _ _ _ => trivial
  | some kind => exact (advance_agrees head).mono fun _ _ _ _ => trivial

theorem recoverer_advance_simulates :
    input.Agrees walker Walk.advance Recoverer.advance fun _ _ => True :=
  advance_simulates

/-- Where a trial fails, both are back where they were. -/
theorem Agrees.speculate {reader : Reader α}
    (agrees : input.Agrees walker walk reader demand) :
    input.Agrees walker (Walk.speculate walk) (Reader.speculate reader)
      fun _ _ => True := by
  intro contains
  have same := agrees contains
  cases ran : walk walker with
  | ok value rest =>
      rw [ran] at same
      obtain ⟨read, reaches, _⟩ := same
      have walked : Walk.speculate walk walker = .ok (some value) rest := by
        simp [Walk.speculate, ran]
      refine agrees_of_eq reaches walked ?_ trivial contains
      rw [Attempt.lift_apply] at read ⊢
      unfold Reader.speculate
      cases readerRan : reader (input.state walker).cursor with
      | ok value cursor =>
          rw [readerRan] at read
          obtain ⟨rfl, stateEq⟩ := EStateM.Result.ok.inj read
          rw [← stateEq]
      | error expected cursor =>
          rw [readerRan] at read
          cases read
  | error halt rest =>
      rw [ran] at same
      cases halt with
      | stuck => exact same.elim
      | refused error =>
          obtain ⟨expected, read, reaches, _⟩ := same
          have walked : Walk.speculate walk walker =
              .ok none { rest with index := walker.index, nextId := walker.nextId } := by
            simp [Walk.speculate, ran]
          have back : input.Reaches walker
              { rest with index := walker.index, nextId := walker.nextId } :=
            ⟨⟨reaches.contains.tokens, contains.index_le⟩, Nat.le_refl _⟩
          refine agrees_of_eq back walked ?_ trivial contains
          rw [Attempt.lift_apply] at read ⊢
          unfold Reader.speculate
          cases readerRan : reader (input.state walker).cursor with
          | ok value cursor =>
              rw [readerRan] at read
              cases read
          | error expected cursor =>
              rw [readerRan] at read
              -- A plain reader reports nothing, so only the cursor has to be
              -- set back.
              obtain ⟨_, stateEq⟩ := EStateM.Result.error.inj read
              have errorsEq : walker.errors = rest.errors :=
                congrArg Recovery.errors stateEq
              have recoveringEq : walker.recovering = rest.recovering :=
                congrArg Recovery.recovering stateEq
              simp [state, errorsEq, recoveringEq]

theorem agrees_attempt_bind {reader : Attempt α}
    {nextWalk : Except SyntaxError α → Walk β}
    {next : Except Expectation α → Recoverer β}
    (agrees : input.Agrees walker walk reader between)
    (ifOk : ∀ value rest, input.Reaches walker rest → between value rest →
      input.Agrees rest (nextWalk (.ok value)) (next (.ok value)) demandNext)
    (ifError : ∀ expected rest, input.Reaches walker rest →
      input.Agrees rest
        (nextWalk (.error ((input.state rest).cursor.unexpected expected)))
        (next (.error expected)) demandNext) :
    input.Agrees walker (Walk.attempt walk >>= nextWalk)
      (Recoverer.attempt reader >>= next) demandNext := by
  intro contains
  have same := agrees contains
  have attempted (result : Except Expectation α) (after : Recovery)
      (ran : Recoverer.attempt reader (input.state walker) = (result, after)) :
      (liftM (Recoverer.attempt reader) : Attempt _) (input.state walker) =
        .ok result after := by
    rw [Recoverer.lift_apply, ran]
  cases ran : walk walker with
  | ok value rest =>
      rw [ran] at same
      obtain ⟨read, reaches, met⟩ := same
      have walked : Walk.attempt walk walker = .ok (.ok value) rest := by
        simp [Walk.attempt, ran]
      refine agrees_bind_of_eq reaches walked (attempted (.ok value) _ ?_)
        (ifOk value rest reaches met) contains
      change reader (input.state walker) = _ at read
      simp [Recoverer.attempt, read]
  | error halt rest =>
      rw [ran] at same
      cases halt with
      | stuck => exact same.elim
      | refused error =>
          obtain ⟨expected, read, reaches, rfl⟩ := same
          have walked : Walk.attempt walk walker =
              .ok (.error ((input.state rest).cursor.unexpected expected))
                rest := by
            simp [Walk.attempt, ran]
          refine agrees_bind_of_eq reaches walked
            (attempted (.error expected) _ ?_)
            (ifError expected rest reaches) contains
          change reader (input.state walker) = _ at read
          simp [Recoverer.attempt, read]

theorem recovered_agrees :
    input.Agrees walker Walk.recovered Recoverer.recovered
    fun _ rest => walker.index = rest.index := by
  intro contains
  exact ⟨rfl, ⟨⟨contains.tokens, contains.index_le⟩, Nat.le_refl _⟩, rfl⟩

theorem state_report (walker : Walker) (expected : Expectation) :
    input.state
      (walker.report ((input.state walker).cursor.unexpected expected)) =
      (input.state walker).report expected := by
  unfold Walker.report Recovery.report
  rw [apply_ite input.state]
  rfl

theorem Contains.reaches_report (contains : input.Contains walker)
    (error : SyntaxError) :
    input.Reaches walker (walker.report error) ∧
      walker.index = (walker.report error).index := by
  have same : (walker.report error).tokens = walker.tokens ∧
      (walker.report error).index = walker.index := by
    unfold Walker.report
    rw [apply_ite Walker.tokens, apply_ite Walker.index]
    simp
  refine ⟨⟨⟨same.1.trans contains.tokens, ?_⟩, Nat.le_of_eq same.2.symm⟩,
    same.2.symm⟩
  rw [same.2]
  exact contains.index_le

theorem report_agrees {expected : Expectation} :
    input.Agrees walker
      (Walk.report ((input.state walker).cursor.unexpected expected))
      (Recoverer.report expected) fun _ rest => walker.index = rest.index := by
  intro contains
  obtain ⟨reaches, same⟩ := contains.reaches_report
    ((input.state walker).cursor.unexpected expected)
  refine ⟨?_, reaches, same⟩
  rw [state_report]
  rfl

/-- An error at the next token is reported. -/
theorem agrees_complain_bind {expected : Expectation} {nextWalk : Unit → Walk β}
    {next : Unit → Recoverer β}
    (further : ∀ rest, input.Reaches walker rest → walker.index = rest.index →
      input.Agrees rest (nextWalk ()) (next ()) demandNext) :
    input.Agrees walker (Walk.unexpected expected >>= fun error =>
      Walk.report error >>= nextWalk)
      (Recoverer.report expected >>= next) demandNext := by
  intro contains
  rw [bind_apply_of_ok (unexpected_apply contains expected)]
  exact report_agrees.bind (fun _ => further) contains

theorem head?_congr (same : walker.index = rest.index) :
    input.head? rest = input.head? walker := by
  rw [head?, head?, same]

theorem remaining_state (walker : Walker) :
    (liftM Reader.remaining : Attempt Nat) (input.state walker) =
      .ok (input.left walker) (input.state walker) := by
  have lengthEq : (input.state walker).cursor.tokens.length =
      input.left walker := by
    simp [state, left]
  rw [← lengthEq]
  rfl

end Steps

end Input

end PL0
