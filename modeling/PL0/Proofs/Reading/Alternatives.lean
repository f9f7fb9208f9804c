import PL0.Proofs.Grammar.Conditions
import PL0.Proofs.Reading.Setting

/-!
# The two ways to read a parenthesis

A parenthesis in a condition encloses a condition or belongs to the left side
of a relation, and never both: behind a parenthesis that starts an expression
no condition can be read.  So the order in which the two are tried does not
matter, neither at one parenthesis nor at all of them.

A condition in parentheses counts only if no operator follows it.  The same
readings come about if the operator is not looked at, except those that stop
before an operator, where nothing can go on from a condition.
-/

namespace PL0

section Outcomes

variable {ε σ α β : Type} {reader : EStateM ε σ α} {next : α → EStateM ε σ β}
  {state : σ}

theorem run_bind_eq_ok_iff {result : β} {last : σ} :
    (reader >>= next) state = .ok result last ↔
      ∃ value rest, reader state = .ok value rest ∧ next value rest =
        .ok result last := by
  cases ran : reader state with
  | ok value rest => simp [bind_apply_of_ok ran]
  | error error rest => simp [Bind.bind, EStateM.bind, ran]

theorem run_pure_eq_ok_iff {value result : α} {last : σ} :
    (pure value : EStateM ε σ α) state = .ok result last ↔
      value = result ∧ state = last := by
  simp [pure, EStateM.pure]

theorem fails_iff : Fails reader state ↔
    ∀ value rest, reader state ≠ .ok value rest := by
  cases ran : reader state with
  | ok value rest => simp [Fails, ran]
  | error error rest => simp [Fails, ran]

theorem Ensures.and {first second : α → σ → Prop}
    (one : Ensures reader state first) (other : Ensures reader state second) :
    Ensures reader state fun value rest =>
      first value rest ∧ second value rest :=
  fun value rest ran => ⟨one value rest ran, other value rest ran⟩

end Outcomes

theorem free_iff {continues : Token.Kind → Bool} {rest : Grammar.Word} :
    Free continues rest ↔ rest.head?.any continues = false := by
  cases head : rest.head? <;> simp [Free, head]

namespace Reader

open Grammar

/-- Try a reader, and where it fails read something else from the same place. -/
def either {α : Type} (first second : Reader α) : Reader α := do
  match ← speculate first with
  | some value => return value
  | none => second

/-- What is read with a token of the given kind behind it. -/
def followedBy {α : Type} (reader : Reader α) (kind : Token.Kind)
    (expected : Expectation) : Reader α := do
  let value ← reader
  expect kind expected
  return value

/-- A condition in parentheses, whatever follows it. -/
def enclosed (condition : Reader Condition) : Reader Condition := do
  advance
  followedBy condition (.symbol .closeParen) .closeAfterCondition

/-- At a parenthesis, a condition that no operator follows or else a
relation. -/
def groupFirst (condition : Reader Condition) : Reader Condition := do
  match ← speculate (group condition) with
  | some condition => return condition
  | none => relation

/-- At a parenthesis, a relation or else a condition that no operator
follows. -/
def relationFirst (condition : Reader Condition) : Reader Condition :=
  either relation (group condition)

/-- At a parenthesis, a condition or else a relation. -/
def enclosedFirst (condition : Reader Condition) : Reader Condition :=
  either (enclosed condition) relation

/-- A part of a condition, by how a parenthesis is read. -/
def literalWith (parenthesis : Reader Condition → Reader Condition) :
    Nat → Reader Condition
  | 0 => throw .expression
  | limit + 1 => do
    let position ← position
    if ← accept (.keyword .notWord) then
      return .not position (← literalWith parenthesis limit)
    else if (← next?) = some (.symbol .openParen) then
      parenthesis (disjunction limit (literalWith parenthesis limit))
    else
      relation

/-- A condition, by how a parenthesis is read. -/
def conditionWith (parenthesis : Reader Condition → Reader Condition) :
    Reader Condition := do
  let limit ← remaining
  disjunction limit (literalWith parenthesis limit)

theorem groupFirst_eq (condition : Reader Condition) :
    groupFirst condition = either (group condition) relation := by
  unfold groupFirst either
  congr 1
  funext tried
  cases tried <;> rfl

theorem literal_eq (limit : Nat) :
    literal limit = literalWith groupFirst limit := by
  induction limit with
  | zero => rfl
  | succ limit ih =>
      rw [literal, literalWith, ih]
      rfl

theorem condition_eq : condition = conditionWith groupFirst := by
  simp only [condition, conditionWith, literal_eq]

section Results

variable {α : Type} {first second : Reader α} {condition : Reader Condition}
  {parenthesis : Reader Condition → Reader Condition} {cursor rest : Cursor}
    {value : α}
  {inner : Condition} {limit : Nat}

theorem either_eq_ok_iff :
    either first second cursor = .ok value rest ↔
      first cursor = .ok value rest ∨ Fails first cursor ∧
        second cursor = .ok value rest := by
  cases ran : first cursor with
  | ok read after =>
      have tried : speculate first cursor = .ok (some read) after := by
        simp [speculate, ran]
      rw [either, bind_apply_of_ok tried, run_pure_eq_ok_iff]
      simp [Fails, ran]
  | error expected after =>
      have fails : Fails first cursor := ⟨expected, after, ran⟩
      rw [either, bind_apply_of_ok (speculate_of_fails fails)]
      simp [fails]

/-- Readers of which at most one succeeds can be tried in any order. -/
theorem either_swap
    (exclusive : ∀ value rest, first cursor = .ok value rest →
      Fails second cursor) :
    either first second cursor = .ok value rest ↔
      either second first cursor = .ok value rest := by
  rw [either_eq_ok_iff, either_eq_ok_iff]
  constructor
  · rintro (read | ⟨_, read⟩)
    · exact .inr ⟨exclusive value rest read, read⟩
    · exact .inl read
  · rintro (read | ⟨_, read⟩)
    · refine .inr ⟨fails_iff.mpr fun other last firstRead => ?_, read⟩
      exact fails_iff.mp (exclusive other last firstRead) value rest read
    · exact .inl read

theorem expect_eq_ok_iff {kind : Token.Kind} {expected : Expectation} :
    expect kind expected cursor = .ok () rest ↔
      cursor.kinds.head? = some kind ∧ cursor.advance = rest := by
  by_cases found : cursor.kinds.head? = some kind
  · simp [expect_of_head found, found]
  · simp [expect_of_ne found, found]

theorem followedBy_eq_ok_iff {kind : Token.Kind} {expected : Expectation} :
    followedBy first kind expected cursor = .ok value rest ↔
      ∃ reached, first cursor = .ok value reached ∧ reached.kinds.head? =
        some kind ∧ reached.advance = rest := by
  rw [followedBy, run_bind_eq_ok_iff]
  constructor
  · rintro ⟨read, reached, ran, further⟩
    obtain ⟨_, after, expectRan, returned⟩ := run_bind_eq_ok_iff.mp further
    obtain ⟨rfl, rfl⟩ := run_pure_eq_ok_iff.mp returned
    exact ⟨reached, ran, expect_eq_ok_iff.mp expectRan⟩
  · rintro ⟨reached, ran, follows, rfl⟩
    refine ⟨value, reached, ran, ?_⟩
    rw [bind_apply_of_ok (expect_of_head follows)]
    rfl

theorem enclosed_apply :
    enclosed condition cursor =
      followedBy condition (.symbol .closeParen) .closeAfterCondition
        cursor.advance :=
  bind_apply_of_ok (advance_apply cursor)

theorem group_eq_ok_iff :
    group condition cursor = .ok inner rest ↔
      enclosed condition cursor = .ok inner rest ∧
        Free isOperator rest.kinds := by
  rw [group, bind_apply_of_ok (advance_apply cursor), run_bind_eq_ok_iff,
    enclosed_apply, followedBy_eq_ok_iff]
  constructor
  · rintro ⟨value, reached, read, closed⟩
    obtain ⟨_, after, expectRan, looked⟩ := run_bind_eq_ok_iff.mp closed
    obtain ⟨closes, rfl⟩ := expect_eq_ok_iff.mp expectRan
    rw [bind_apply_of_ok (next?_apply _)] at looked
    split at looked
    · cases looked
    · next noOperator =>
        obtain ⟨rfl, rfl⟩ := run_pure_eq_ok_iff.mp looked
        exact ⟨⟨reached, read, closes, rfl⟩,
          free_iff.mpr (by simpa using noOperator)⟩
  · rintro ⟨⟨reached, read, closes, rfl⟩, noOperator⟩
    refine ⟨inner, reached, read, ?_⟩
    rw [bind_apply_of_ok (expect_of_head closes),
      bind_apply_of_ok (next?_apply _),
      if_neg (by simp [free_iff.mp noOperator])]
    rfl

/-- What a part of a condition can be. -/
theorem literalWith_succ_eq_ok_iff :
    literalWith parenthesis (limit + 1) cursor = .ok inner rest ↔
      (cursor.kinds.head? = some (.keyword .notWord) ∧
        ∃ operand, literalWith parenthesis limit cursor.advance =
          .ok operand rest ∧ .not cursor.position operand = inner) ∨
      (cursor.kinds.head? = some (.symbol .openParen) ∧
        parenthesis (disjunction limit (literalWith parenthesis limit)) cursor =
          .ok inner rest) ∨
      (cursor.kinds.head? ≠ some (.keyword .notWord) ∧
        cursor.kinds.head? ≠ some (.symbol .openParen) ∧ relation cursor =
          .ok inner rest) := by
  rw [literalWith, bind_apply_of_ok (position_apply cursor)]
  by_cases negated : cursor.kinds.head? = some (.keyword .notWord)
  · rw [bind_apply_of_ok (accept_of_head negated), if_pos rfl,
      run_bind_eq_ok_iff]
    simp [negated, run_pure_eq_ok_iff]
  · rw [bind_apply_of_ok (accept_of_ne negated), if_neg (by simp),
      bind_apply_of_ok (next?_apply cursor)]
    by_cases opened : cursor.kinds.head? = some (.symbol .openParen)
    · simp [opened]
    · simp [negated, opened]

end Results

/-- The readers accept the same inputs, with the same results and up to the
same tokens. -/
def SameReadings {α : Type} (reader other : Reader α) : Prop :=
  ∀ cursor value rest, reader cursor = .ok value rest ↔
    other cursor = .ok value rest

/-- The reader reads what the wider one reads, except where a barred token
follows. -/
def Narrows {α : Type} (barred : Token.Kind → Bool) (reader wider : Reader α) :
    Prop :=
  ∀ cursor value rest, reader cursor = .ok value rest ↔
    wider cursor = .ok value rest ∧ Free barred rest.kinds

section Narrowing

variable {α : Type} {barred : Token.Kind → Bool} {operand wider : Reader α}
  {join? : Token.Kind → Option (α → α → Reader α)}

/-- No operator is barred, and joining two operands moves nothing. -/
def Connects (barred : Token.Kind → Bool)
    (join? : Token.Kind → Option (α → α → Reader α)) : Prop :=
  ∀ kind join, join? kind = some join → barred kind = false ∧
    ∀ left right cursor, Ensures (join left right) cursor fun _ rest =>
      rest = cursor

/-- Before a barred token a chain ends. -/
theorem free_of_chainFrom (connects : Connects barred join?) {limit : Nat}
    {left value : α} {cursor rest : Cursor}
    (chained : chainFrom operand join? limit left cursor = .ok value rest)
    (free : Free barred rest.kinds) : Free barred cursor.kinds := by
  intro kind head
  by_contra isBarred
  have noJoin : cursor.kinds.head?.bind join? = none := by
    rw [head, Option.bind_some, Option.eq_none_iff_forall_ne_some]
    intro join isJoin
    exact isBarred (connects kind join isJoin).1
  rw [Setting.chainFrom_of_none noJoin] at chained
  cases chained
  exact isBarred (free kind head)

theorem chainFrom_narrows (narrows : Narrows barred operand wider)
    (connects : Connects barred join?) (limit : Nat) (left : α)
    {cursor rest : Cursor} {value : α}
    (free : Free barred cursor.kinds) :
    chainFrom operand join? limit left cursor = .ok value rest ↔
      chainFrom wider join? limit left cursor = .ok value rest ∧
        Free barred rest.kinds := by
  -- The two chains go around together; only before a barred token could they
  -- part, and there both would have to end.
  induction limit generalizing left cursor with
  | zero =>
      rw [chainFrom, chainFrom, run_pure_eq_ok_iff]
      constructor
      · rintro ⟨rfl, rfl⟩
        exact ⟨⟨rfl, rfl⟩, free⟩
      · exact And.left
  | succ limit ih =>
      cases found : cursor.kinds.head?.bind join? with
      | none =>
          rw [Setting.chainFrom_of_none found, Setting.chainFrom_of_none found]
          constructor
          · rintro ⟨⟩
            exact ⟨rfl, free⟩
          · exact And.left
      | some join =>
          obtain ⟨kind, -, isJoin⟩ := Option.bind_eq_some_iff.mp found
          rw [chainFrom, chainFrom, bind_apply_of_ok (next?_apply cursor),
            bind_apply_of_ok (next?_apply cursor)]
          simp only [found]
          rw [bind_apply_of_ok (advance_apply cursor),
            bind_apply_of_ok (advance_apply cursor)]
          simp only [run_bind_eq_ok_iff]
          constructor
          · rintro ⟨right, reached, read, joined, after, joinRan, chained⟩
            obtain ⟨widerRead, reachedFree⟩ := (narrows _ _ _).mp read
            obtain rfl := (connects kind join isJoin).2 _ _ _ _ _ joinRan
            obtain ⟨widerChained, restFree⟩ :=
              (ih joined reachedFree).mp chained
            exact ⟨⟨right, _, widerRead, joined, _, joinRan, widerChained⟩,
              restFree⟩
          · rintro ⟨⟨right, reached, read, joined, after, joinRan, chained⟩,
              restFree⟩
            obtain rfl := (connects kind join isJoin).2 _ _ _ _ _ joinRan
            have reachedFree : Free barred after.kinds :=
              free_of_chainFrom connects chained restFree
            exact ⟨right, _, (narrows _ _ _).mpr ⟨read, reachedFree⟩, joined, _,
              joinRan, (ih joined reachedFree).mpr ⟨chained, restFree⟩⟩

theorem Narrows.followedBy (narrows : Narrows barred operand wider)
    {kind : Token.Kind} (allowed : barred kind = false)
    (expected : Expectation) :
    SameReadings (followedBy operand kind expected)
      (followedBy wider kind expected) := by
  intro cursor value rest
  rw [followedBy_eq_ok_iff, followedBy_eq_ok_iff]
  constructor
  · rintro ⟨reached, read, follows⟩
    exact ⟨reached, ((narrows _ _ _).mp read).1, follows⟩
  · rintro ⟨reached, read, follows, advanced⟩
    have free : Free barred reached.kinds := by
      intro next head
      rw [follows, Option.some.injEq] at head
      rw [← head]
      exact allowed
    exact ⟨reached, (narrows _ _ _).mpr ⟨read, free⟩, follows, advanced⟩

theorem Narrows.enclosed {condition wider : Reader Condition}
    (narrows : Narrows barred condition wider)
    (allowed : barred (.symbol .closeParen) = false) :
    SameReadings (enclosed condition) (enclosed wider) := by
  intro cursor inner rest
  rw [enclosed_apply, enclosed_apply]
  exact narrows.followedBy allowed _ cursor.advance inner rest

theorem chain_narrows (narrows : Narrows barred operand wider)
    (connects : Connects barred join?) (limit : Nat) :
    Narrows barred (chain limit operand join?) (chain limit wider join?) := by
  intro cursor value rest
  rw [chain, chain, run_bind_eq_ok_iff, run_bind_eq_ok_iff]
  constructor
  · rintro ⟨first, reached, read, chained⟩
    obtain ⟨widerRead, reachedFree⟩ := (narrows _ _ _).mp read
    obtain ⟨widerChained, restFree⟩ :=
      (chainFrom_narrows narrows connects limit first reachedFree).mp chained
    exact ⟨⟨first, reached, widerRead, widerChained⟩, restFree⟩
  · rintro ⟨⟨first, reached, read, chained⟩, restFree⟩
    have reachedFree : Free barred reached.kinds :=
      free_of_chainFrom connects chained restFree
    exact ⟨first, reached, (narrows _ _ _).mpr ⟨read, reachedFree⟩,
      (chainFrom_narrows narrows connects limit first reachedFree).mpr ⟨chained,
        restFree⟩⟩

theorem and_connects (noAnd : barred (.keyword .andWord) = false) :
    Connects barred andJoin? := by
  intro kind join isJoin
  unfold andJoin? at isJoin
  split at isJoin <;> cases isJoin
  exact ⟨noAnd, fun _ _ _ => ensures_pure rfl⟩

theorem or_connects (noOr : barred (.keyword .orWord) = false) :
    Connects barred orJoin? := by
  intro kind join isJoin
  unfold orJoin? at isJoin
  split at isJoin <;> cases isJoin
  exact ⟨noOr, fun _ _ _ => ensures_pure rfl⟩

theorem disjunction_narrows {literal wider : Reader Condition}
    (narrows : Narrows barred literal wider)
    (noAnd : barred (.keyword .andWord) = false)
    (noOr : barred (.keyword .orWord) = false) (limit : Nat) :
    Narrows barred (disjunction limit literal) (disjunction limit wider) :=
  chain_narrows (chain_narrows narrows (and_connects noAnd) limit)
    (or_connects noOr) limit

/-- A way to read parentheses is narrower than another if it is so wherever
the conditions in them are read in a narrower way. -/
theorem literalWith_narrows
    {parenthesis wider : Reader Condition → Reader Condition}
    (relationFree : ∀ cursor, Ensures relation cursor fun _ rest =>
      Free barred rest.kinds)
    (narrows : ∀ limit,
      Narrows barred (literalWith parenthesis limit) (literalWith wider limit) →
      ∀ cursor inner rest, cursor.kinds.head? = some (.symbol .openParen) →
        (parenthesis (disjunction limit (literalWith parenthesis limit))
          cursor = .ok inner rest ↔
          wider (disjunction limit (literalWith wider limit)) cursor =
            .ok inner rest ∧ Free barred rest.kinds)) (limit : Nat) :
    Narrows barred (literalWith parenthesis limit)
      (literalWith wider limit) := by
  induction limit with
  | zero =>
      intro cursor inner rest
      exact ⟨nofun, nofun⟩
  | succ limit ih =>
      intro cursor inner rest
      rw [literalWith_succ_eq_ok_iff, literalWith_succ_eq_ok_iff]
      constructor
      · rintro (⟨negated, operand, read, rfl⟩ | ⟨opened, read⟩ |
          ⟨notNegated, notOpened, read⟩)
        · obtain ⟨widerRead, free⟩ := (ih _ _ _).mp read
          exact ⟨.inl ⟨negated, operand, widerRead, rfl⟩, free⟩
        · obtain ⟨widerRead, free⟩ := (narrows limit ih _ _ _ opened).mp read
          exact ⟨.inr (.inl ⟨opened, widerRead⟩), free⟩
        · exact ⟨.inr (.inr ⟨notNegated, notOpened, read⟩),
            relationFree _ _ _ read⟩
      · rintro ⟨⟨negated, operand, read, rfl⟩ | ⟨opened, read⟩ |
          ⟨notNegated, notOpened, read⟩, free⟩
        · exact .inl ⟨negated, operand, (ih _ _ _).mpr ⟨read, free⟩, rfl⟩
        · exact .inr (.inl ⟨opened,
            (narrows limit ih _ _ _ opened).mpr ⟨read, free⟩⟩)
        · exact .inr (.inr ⟨notNegated, notOpened, read⟩)

theorem conditionWith_narrows
    {parenthesis wider : Reader Condition → Reader Condition}
    (narrows : ∀ limit,
      Narrows barred (literalWith parenthesis limit) (literalWith wider limit))
    (noAnd : barred (.keyword .andWord) = false)
    (noOr : barred (.keyword .orWord) = false) :
    Narrows barred (conditionWith parenthesis) (conditionWith wider) := by
  intro cursor inner rest
  rw [conditionWith, conditionWith, bind_apply_of_ok (remaining_apply cursor),
    bind_apply_of_ok (remaining_apply cursor)]
  exact disjunction_narrows (narrows _) noAnd noOr _ cursor inner rest

end Narrowing

section Following

variable {α β : Type} {operand : Reader α} {erase : α → β}
  {category : Category β}
  {join? : Token.Kind → Option (α → α → Reader α)} {combine? : Token.Kind →
    Option (β → β → β)}
  {continues : Token.Kind → Bool} {limit : Nat}

/-- A chain goes on as long as an operator follows, if its bound covers the
tokens that are left. -/
theorem chainFrom_stops (operandSound : Sound operand erase category)
    (joins : Joins join? erase combine?)
    (operandStops : ∀ cursor : Cursor, cursor.kinds.length ≤ limit →
      Ensures operand cursor fun _ rest => Free continues rest.kinds)
    {spare : Nat} (within : spare ≤ limit) (left : α) {cursor : Cursor}
    (covered : cursor.kinds.length ≤ spare)
    (free : Free continues cursor.kinds) :
    Ensures (chainFrom operand join? spare left) cursor fun _ rest =>
      Free (fun kind => continues kind || (join? kind).isSome) rest.kinds := by
  -- Every round takes a token, so the bound does not run out before the
  -- tokens do.
  induction spare generalizing left cursor with
  | zero =>
      refine ensures_pure ?_
      rw [List.eq_nil_of_length_eq_zero (Nat.le_zero.mp covered)]
      exact free_nil _
  | succ spare ih =>
      refine ensures_bind_of_ok (next?_apply cursor) ?_
      cases found : cursor.kinds.head?.bind join? with
      | none =>
          refine ensures_pure fun kind head => ?_
          rw [head] at found
          simpa [free kind head] using found
      | some join =>
          obtain ⟨sign, head, isJoin⟩ := Option.bind_eq_some_iff.mp found
          obtain ⟨combine, isCombine⟩ := joins.exists_combine isJoin
          refine ensures_advance_bind head ?_
          intro behind kindsEq
          have shorter : behind.kinds.length ≤ spare := by
            rw [kindsEq, List.length_cons] at covered
            omega
          refine ((operandSound behind).and
            (operandStops behind (by omega))).bind ?_
          rintro right reached ⟨⟨word, wordEq, _⟩, reachedFree⟩
          refine (joins.gives sign join combine isJoin isCombine
            left right reached).ensures.bind ?_
          rintro joined last ⟨_, lastEq⟩
          have lastShorter : last.kinds.length ≤ spare := by
            rw [wordEq, List.length_append] at shorter
            rw [lastEq]
            omega
          exact ih (by omega) joined lastShorter (by rwa [lastEq])

theorem chain_stops (operandSound : Sound operand erase category)
    (joins : Joins join? erase combine?)
    (operandStops : ∀ cursor : Cursor, cursor.kinds.length ≤ limit →
      Ensures operand cursor fun _ rest => Free continues rest.kinds)
    (cursor : Cursor) (covered : cursor.kinds.length ≤ limit) :
    Ensures (chain limit operand join?) cursor fun _ rest =>
      Free (fun kind => continues kind || (join? kind).isSome) rest.kinds := by
  refine ((operandSound cursor).and (operandStops cursor covered)).bind ?_
  rintro first reached ⟨⟨word, wordEq, _⟩, reachedFree⟩
  refine chainFrom_stops operandSound joins operandStops (Nat.le_refl limit)
    first ?_ reachedFree
  rw [wordEq, List.length_append] at covered
  omega

end Following

/-- No operator of a sum or a product follows an expression. -/
theorem expr_stops (cursor : Cursor) :
    Ensures expr cursor fun _ rest =>
      Free (fun kind => (productJoin? kind).isSome || (sumJoin? kind).isSome)
        rest.kinds := by
  refine ensures_bind_of_ok (remaining_apply cursor) ?_
  have factorSound := factor_sound cursor.kinds.length
  refine chain_stops (chain_sound factorSound product_joins _) sum_joins ?_
    cursor (Nat.le_refl _)
  intro start covered
  have termStops :
      Ensures
        (chain cursor.kinds.length (factor cursor.kinds.length) productJoin?)
        start fun _ rest =>
          Free (fun kind => false || (productJoin? kind).isSome) rest.kinds :=
    chain_stops factorSound product_joins (fun _ _ _ _ _ _ _ => rfl)
      start covered
  simpa only [Bool.false_or] using termStops

/-- No operator at all follows a relation. -/
theorem relation_stops (cursor : Cursor) :
    Ensures relation cursor fun _ rest => Free isOperator rest.kinds := by
  refine ensures_bind_of_ok (position_apply cursor) ?_
  refine (expr_stops cursor).bind ?_
  intro left reached _
  refine ensures_bind_of_ok (next?_apply reached) ?_
  split
  · exact ensures_throw
  · refine ensures_bind_of_ok (advance_apply reached) ?_
    refine (expr_stops reached.advance).bind ?_
    intro right last noArithmetic
    refine ensures_bind_of_ok (next?_apply last) ?_
    split
    · exact ensures_throw
    · next noRelation =>
        refine ensures_pure fun kind head => ?_
        have notArithmetic := noArithmetic kind head
        rw [head] at noRelation
        simp_all [isOperator]

section Exclusion

variable {cursor rest : Cursor} {value : Condition} {limit : Nat}

theorem exists_expr_of_relation (read : relation cursor = .ok value rest) :
    ∃ left reached, expr cursor = .ok left reached := by
  rw [relation, bind_apply_of_ok (position_apply cursor)] at read
  obtain ⟨left, reached, leftRead, _⟩ := run_bind_eq_ok_iff.mp read
  exact ⟨left, reached, leftRead⟩

/-- Behind a parenthesis at the start of a relation there is no condition. -/
theorem disjunction_fails_of_relation
    (opened : cursor.kinds.head? = some (.symbol .openParen))
    (read : relation cursor = .ok value rest) (limit : Nat) :
    Fails (disjunction limit (literal limit)) cursor.advance := by
  obtain ⟨left, reached, leftRead⟩ := exists_expr_of_relation read
  obtain ⟨word, kindsEq, derived⟩ := expr_sound cursor left reached leftRead
  exact disjunction_fails (literal_fails limit) derived kindsEq opened

theorem enclosed_fails_of_relation
    (opened : cursor.kinds.head? = some (.symbol .openParen))
    (read : relation cursor = .ok value rest) (limit : Nat) :
    Fails (enclosed (disjunction limit (literal limit))) cursor :=
  fails_bind_of_ok (advance_apply cursor)
    (disjunction_fails_of_relation opened read limit).bind

theorem relation_fails_of_enclosed
    (opened : cursor.kinds.head? = some (.symbol .openParen))
    {inner : Condition}
    (read : enclosed (disjunction limit (literal limit)) cursor =
      .ok inner rest) :
    Fails relation cursor := by
  rw [fails_iff]
  intro value last relationRead
  exact fails_iff.mp (enclosed_fails_of_relation opened relationRead limit)
    inner rest read

end Exclusion

theorem Narrows.sameReadings {α : Type} {reader other : Reader α}
    (narrows : Narrows (fun _ => false) reader other) :
    SameReadings reader other :=
  fun cursor value rest =>
    (narrows cursor value rest).trans (and_iff_left fun _ _ => rfl)

/-- The order in which the two ways are tried does not matter. -/
theorem literal_narrows_relationFirst (limit : Nat) :
    Narrows (fun _ => false) (literalWith groupFirst limit)
      (literalWith relationFirst limit) := by
  refine literalWith_narrows (fun _ _ _ _ _ _ => rfl) ?_ limit
  intro limit inside cursor inner rest opened
  have conditions := disjunction_narrows inside rfl rfl limit
  have exclusive : ∀ value last,
      group (disjunction limit (literalWith groupFirst limit)) cursor =
        .ok value last → Fails relation cursor := by
    intro value last read
    rw [← literal_eq, group_eq_ok_iff] at read
    exact relation_fails_of_enclosed opened read.1
  -- First the order is changed here, then inside of the parentheses.
  rw [groupFirst_eq, either_swap exclusive, relationFirst, either_eq_ok_iff,
    either_eq_ok_iff, group_eq_ok_iff, group_eq_ok_iff,
    conditions.enclosed rfl cursor inner rest]
  exact (and_iff_left fun _ _ => rfl).symm

/-- The look at the operator only drops readings that stop before an
operator. -/
theorem literal_narrows_enclosedFirst (limit : Nat) :
    Narrows isOperator (literalWith groupFirst limit)
      (literalWith enclosedFirst limit) := by
  refine literalWith_narrows relation_stops ?_ limit
  intro limit inside cursor inner rest opened
  have conditions := disjunction_narrows inside rfl rfl limit
  have same := conditions.enclosed rfl cursor
  have exclusive (value : Condition) (last : Cursor)
      (read : enclosed (disjunction limit (literalWith groupFirst limit))
        cursor = .ok value last) :
      Fails relation cursor := by
    rw [← literal_eq] at read
    exact relation_fails_of_enclosed opened read
  -- Both try an enclosed condition.  Where only the look at the operator
  -- makes a difference, a relation does not help: it would exclude the
  -- enclosed condition.
  rw [groupFirst_eq, enclosedFirst, either_eq_ok_iff, either_eq_ok_iff,
    group_eq_ok_iff]
  constructor
  · rintro (⟨read, free⟩ | ⟨_, read⟩)
    · exact ⟨.inl ((same _ _).mp read), free⟩
    · refine ⟨.inr ⟨fails_iff.mpr fun value last enclosedRead => ?_, read⟩,
        relation_stops cursor _ _ read⟩
      exact fails_iff.mp (exclusive _ _ ((same _ _).mpr enclosedRead)) _ _ read
  · rintro ⟨read | ⟨_, read⟩, free⟩
    · exact .inl ⟨(same _ _).mpr read, free⟩
    · refine .inr ⟨fails_iff.mpr fun value last groupRead => ?_, read⟩
      exact fails_iff.mp (exclusive _ _ (group_eq_ok_iff.mp groupRead).1)
        _ _ read

theorem condition_sameReadings :
    SameReadings condition (conditionWith relationFirst) := by
  rw [condition_eq]
  exact (conditionWith_narrows literal_narrows_relationFirst rfl
    rfl).sameReadings

theorem condition_narrows_enclosedFirst :
    Narrows isOperator condition (conditionWith enclosedFirst) := by
  rw [condition_eq]
  exact conditionWith_narrows literal_narrows_enclosedFirst rfl rfl

end Reader

end PL0
