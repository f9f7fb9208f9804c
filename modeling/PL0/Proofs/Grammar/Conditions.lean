import PL0.Grammar.Condition
import PL0.Proofs.Grammar.Expressions

/-!
# Reading conditions follows the grammar

A parenthesis at the start of a condition is tried as a condition first.  The
trial is right to succeed: it does so only where the grammar has a condition.
It is also right to fail: where the parenthesis belongs to the left side of a
relation, what it encloses is an expression, and a trial that reads an
expression finds the closing parenthesis where it needs a comparison.
-/

namespace PL0.Reader

open Grammar

theorem relOp?_eq_some_iff {kind : Token.Kind} {op : RelOp} :
    relOp? kind = some op ↔ ∃ sign ∈ relSigns op, kind = .symbol sign := by
  constructor
  · intro found
    unfold relOp? at found
    split at found <;> cases found <;> exact ⟨_, by simp [relSigns], rfl⟩
  · rintro ⟨sign, written, rfl⟩
    cases op <;> simp only [relSigns, List.mem_cons, List.not_mem_nil,
      or_false] at written
    case ne => rcases written with rfl | rfl <;> rfl
    all_goals
      subst written
      rfl

theorem connect_gives (op : LogicOp) (left right : Condition)
    (cursor : Cursor) :
    Gives (connect op left right) cursor fun value after =>
      value.erase = .logic default op left.erase right.erase ∧
        after.kinds = cursor.kinds :=
  gives_pure ⟨by rw [Condition.erase], rfl⟩

theorem and_joins : Joins andJoin? Condition.erase Grammar.andJoin? where
  none_iff kind := by
    unfold andJoin? Grammar.andJoin?
    split <;> simp_all
  gives kind join combine isJoin isCombine left right cursor := by
    unfold andJoin? at isJoin
    split at isJoin
    · cases isJoin
      cases isCombine
      exact connect_gives .and left right cursor
    · cases isJoin

theorem or_joins : Joins orJoin? Condition.erase Grammar.orJoin? where
  none_iff kind := by
    unfold orJoin? Grammar.orJoin?
    split <;> simp_all
  gives kind join combine isJoin isCombine left right cursor := by
    unfold orJoin? at isJoin
    split at isJoin
    · cases isJoin
      cases isCombine
      exact connect_gives .or left right cursor
    · cases isJoin

section Trials

variable {α β : Type} {reader : Reader α} {next : Option α → Reader β}
  {cursor : Cursor} {between : α → Cursor → Prop} {demand : β → Cursor → Prop}

theorem ensures_speculate_bind (ensures : Ensures reader cursor between)
    (ifRead : ∀ value after, between value after →
      Ensures (next (some value)) after demand)
    (ifNot : Ensures (next none) cursor demand) :
    Ensures (speculate reader >>= next) cursor demand := by
  cases ran : reader cursor with
  | ok value after =>
      have trial : speculate reader cursor = .ok (some value) after := by
        simp [speculate, ran]
      exact ensures_bind_of_ok trial
        (ifRead value after (ensures value after ran))
  | error expected after =>
      have trial : speculate reader cursor = .ok none cursor := by
        simp [speculate, ran]
      exact ensures_bind_of_ok trial ifNot

theorem speculate_of_fails (fails : Fails reader cursor) :
    speculate reader cursor = .ok none cursor := by
  obtain ⟨expected, after, ran⟩ := fails
  simp [speculate, ran]

theorem gives_speculate_bind (gives : Gives reader cursor between)
    (further : ∀ value after, between value after →
      Gives (next (some value)) after demand) :
    Gives (speculate reader >>= next) cursor demand := by
  obtain ⟨value, after, ran, met⟩ := gives
  have trial : speculate reader cursor = .ok (some value) after := by
    simp [speculate, ran]
  exact gives_bind_of_ok trial (further value after met)

end Trials

section Soundness

theorem relation_sound : Sound relation Condition.erase Literal := by
  intro cursor
  refine ensures_bind_of_ok (position_apply cursor) ?_
  refine (expr_sound cursor).bind ?_
  rintro left reached ⟨first, firstEq, before⟩
  refine ensures_bind_of_ok (next?_apply reached) ?_
  split
  · exact ensures_throw
  · next op found =>
      obtain ⟨kind, head, isRelOp⟩ := Option.bind_eq_some_iff.mp found
      obtain ⟨sign, written, rfl⟩ := relOp?_eq_some_iff.mp isRelOp
      refine ensures_advance_bind head ?_
      intro behind signEq
      refine (expr_sound behind).bind ?_
      rintro right last ⟨second, secondEq, after⟩
      refine ensures_bind_of_ok (next?_apply last) ?_
      split
      · exact ensures_throw
      · refine ensures_pure ⟨first ++ .symbol sign :: second, ?_, ?_⟩
        · rw [firstEq, signEq, secondEq]
          simp
        · rw [Condition.erase]
          exact .rel op before written after

theorem group_ensures {condition : Reader Condition}
    (conditionSound : Sound condition Condition.erase Disjunction)
    {cursor : Cursor}
    (head : cursor.kinds.head? = some (.symbol .openParen)) :
    Ensures (group condition) cursor fun value after =>
      ∃ word, cursor.kinds = word ++ after.kinds ∧
        Literal word value.erase := by
  refine ensures_advance_bind head ?_
  intro opened openEq
  refine (conditionSound opened).bind ?_
  rintro inner reached ⟨word, wordEq, derived⟩
  refine ensures_expect_bind ?_
  intro closed closeEq
  refine ensures_bind_of_ok (next?_apply closed) ?_
  split
  · exact ensures_throw
  · refine ensures_pure ⟨_, ?_, .paren derived⟩
    rw [openEq, wordEq, closeEq]
    simp

theorem disjunction_sound {literal : Reader Condition}
    (literalSound : Sound literal Condition.erase Literal) (limit : Nat) :
    Sound (disjunction limit literal) Condition.erase Disjunction :=
  chain_sound (chain_sound literalSound and_joins limit) or_joins limit

theorem literal_sound (limit : Nat) :
    Sound (literal limit) Condition.erase Literal := by
  induction limit with
  | zero => exact fun cursor => ensures_throw
  | succ limit ih =>
      intro cursor
      refine ensures_bind_of_ok (position_apply cursor) ?_
      refine ensures_accept_bind ?_ ?_
      · intro behind notEq
        refine (ih behind).bind ?_
        rintro operand after ⟨word, wordEq, derived⟩
        refine ensures_pure ⟨.keyword .notWord :: word, ?_, ?_⟩
        · rw [notEq, wordEq]
          rfl
        · rw [Condition.erase]
          exact .not derived
      · intro _
        refine ensures_bind_of_ok (next?_apply cursor) ?_
        split
        · next head =>
            refine ensures_speculate_bind
              (group_ensures (disjunction_sound ih limit) head) ?_ ?_
            · intro value after read
              exact ensures_pure read
            · exact relation_sound cursor
        · exact relation_sound cursor

theorem condition_sound : Sound condition Condition.erase Disjunction := by
  intro cursor
  refine ensures_bind_of_ok (remaining_apply cursor) ?_
  exact disjunction_sound (literal_sound _) _ cursor

end Soundness

/-- The tokens that a part of a conjunction can start with. -/
def startsLiteral (kind : Token.Kind) : Bool :=
  startsFactor kind || kind = .keyword .notWord

/-- The tokens that would continue a part of a conjunction. -/
def continuesLiteral (kind : Token.Kind) : Bool :=
  continuesSum kind || (relOp? kind).isSome

/-- The tokens that would continue a conjunction. -/
def continuesConjunction (kind : Token.Kind) : Bool :=
  continuesLiteral kind || (Grammar.andJoin? kind).isSome

/-- The tokens that would continue a condition. -/
def continuesDisjunction (kind : Token.Kind) : Bool :=
  continuesConjunction kind || (Grammar.orJoin? kind).isSome

theorem literal_starts : Starts startsLiteral Literal := by
  intro word value derived
  cases derived with
  | rel op before written after =>
      obtain ⟨kind, others, rfl, isStart⟩ := expression_starts _ _ before
      exact ⟨kind, _, rfl, by simp [startsLiteral, isStart]⟩
  | not operand => exact ⟨_, _, rfl, rfl⟩
  | paren inner => exact ⟨_, _, rfl, rfl⟩

section Parentheses

theorem factor_of_openParen {others : Word} {value : Expr}
    (derived : Factor (.symbol .openParen :: others) value) :
    ∃ inner, Expression inner value ∧
      others = inner ++ [.symbol .closeParen] := by
  generalize wordEq : Token.Kind.symbol .openParen :: others = word at derived
  cases derived with
  | location located =>
      obtain ⟨name, rest, rfl, _⟩ := location_head located (free_nil _)
      cases wordEq
  | castParen target operand => cases target <;> cases wordEq
  | castBracket target operand => cases target <;> cases wordEq
  | paren inner =>
      cases wordEq
      exact ⟨_, inner, rfl⟩
  | int number => cases wordEq
  | float number => cases wordEq
  | call callee passed => cases wordEq
  | negated operand => cases wordEq
  | positive operand => cases wordEq

/-- A parenthesis at the start of a chain belongs to its first operand. -/
theorem chain_of_openParen {category : Category Expr}
    {combine? : Token.Kind → Option (Expr → Expr → Expr)}
    {starts : Token.Kind → Bool}
    (each : Starts starts category)
    (encloses : ∀ others value, category (.symbol .openParen :: others) value →
      ∃ inner more enclosed, Expression inner enclosed ∧
        others = inner ++ .symbol .closeParen :: more)
    {others : Word} {value : Expr}
    (chained : Chain category combine? (.symbol .openParen :: others) value) :
    ∃ inner more enclosed, Expression inner enclosed ∧
      others = inner ++ .symbol .closeParen :: more := by
  generalize wordEq : Token.Kind.symbol .openParen :: others = word at chained
  induction chained generalizing others with
  | single derived =>
      subst wordEq
      exact encloses others _ derived
  | @joined first second left right sign combine before isCombine derived ih =>
      obtain ⟨kind, rest, rfl, _⟩ := each.chain first left before
      obtain ⟨rfl, othersEq⟩ := List.cons.inj wordEq
      obtain ⟨inner, more, enclosed, innerDerived, rfl⟩ := ih rfl
      exact ⟨inner, more ++ sign :: second, enclosed, innerDerived,
        by simpa using othersEq⟩

theorem expression_of_openParen {others : Word} {value : Expr}
    (derived : Expression (.symbol .openParen :: others) value) :
    ∃ inner more enclosed, Expression inner enclosed ∧
      others = inner ++ .symbol .closeParen :: more := by
  refine chain_of_openParen factor_starts.chain ?_ derived
  intro termOthers term termDerived
  refine chain_of_openParen factor_starts ?_ termDerived
  intro factorOthers value factorDerived
  obtain ⟨inner, innerDerived, rfl⟩ := factor_of_openParen factorDerived
  exact ⟨inner, [], value, innerDerived, rfl⟩

theorem relation_fails {word rest : Word} {value : Expr} {cursor : Cursor}
    (derived : Expression word value)
    (kindsEq : cursor.kinds = word ++ .symbol .closeParen :: rest) :
    Fails relation cursor := by
  refine fails_bind_of_ok (position_apply cursor) ?_
  refine (expr_complete word.length word value _ cursor derived (Nat.le_refl _)
    (.cons rfl) kindsEq).bind_fails ?_
  rintro left reached ⟨_, reachedEq⟩
  refine fails_bind_of_ok (next?_apply reached) ?_
  rw [reachedEq]
  exact fails_throw

/-- Behind a parenthesis that starts an expression there is no condition. -/
theorem disjunction_fails {literal : Reader Condition} {limit : Nat}
    (fails : ∀ {word rest : Word} {value : Expr} {cursor : Cursor},
      Expression word value →
      cursor.kinds = word ++ .symbol .closeParen :: rest → Fails literal cursor)
    {word rest : Word} {value : Expr} {cursor : Cursor}
    (derived : Expression word value)
    (kindsEq : cursor.kinds = word ++ rest)
    (head : cursor.kinds.head? = some (.symbol .openParen)) :
    Fails (disjunction limit literal) cursor.advance := by
  obtain ⟨kind, others, rfl, _⟩ := expression_starts word value derived
  obtain rfl : kind = .symbol .openParen := by
    rw [kindsEq] at head
    simpa using head
  obtain ⟨inner, more, enclosed, innerDerived, rfl⟩ :=
    expression_of_openParen derived
  have innerEq : cursor.advance.kinds = inner ++ .symbol .closeParen ::
      (more ++ rest) := by
    rw [Cursor.kinds_advance, kindsEq]
    simp
  exact (fails innerDerived innerEq).bind.bind

theorem group_fails {literal : Reader Condition} {limit : Nat}
    (fails : ∀ {word rest : Word} {value : Expr} {cursor : Cursor},
      Expression word value →
      cursor.kinds = word ++ .symbol .closeParen :: rest → Fails literal cursor)
    {word rest : Word} {value : Expr} {cursor : Cursor}
    (derived : Expression word value)
    (kindsEq : cursor.kinds = word ++ rest)
    (head : cursor.kinds.head? = some (.symbol .openParen)) :
    Fails (group (disjunction limit literal)) cursor :=
  fails_bind_of_ok (advance_apply cursor)
    (disjunction_fails fails derived kindsEq head).bind

/-- What is tried as a condition but is an expression in parentheses fails,
however often it is enclosed. -/
theorem literal_fails (limit : Nat) {word rest : Word} {value : Expr}
    {cursor : Cursor} (derived : Expression word value)
    (kindsEq : cursor.kinds = word ++ .symbol .closeParen :: rest) :
    Fails (literal limit) cursor := by
  induction limit generalizing word rest value cursor with
  | zero => exact fails_throw
  | succ limit ih =>
      have noNot : cursor.kinds.head? ≠ some (.keyword .notWord) := by
        rw [kindsEq]
        exact expression_starts.head?_ne derived rfl _
      refine fails_bind_of_ok (position_apply cursor) ?_
      refine fails_bind_of_ok (accept_of_ne noNot) ?_
      refine fails_bind_of_ok (next?_apply cursor) ?_
      split
      · next head =>
          refine fails_bind_of_ok
            (speculate_of_fails (group_fails ih derived kindsEq head)) ?_
          exact relation_fails derived kindsEq
      · exact relation_fails derived kindsEq

end Parentheses

section Completeness

theorem relation_gives (op : RelOp) {sign : Symbol} {first second rest : Word}
    {left right : Expr} {cursor : Cursor} (before : Expression first left)
    (written : sign ∈ relSigns op) (after : Expression second right)
    (free : Free continuesLiteral rest)
    (kindsEq : cursor.kinds = first ++ .symbol sign :: (second ++ rest)) :
    Gives relation cursor fun value last =>
      value.erase = .rel default op left right ∧ last.kinds = rest := by
  have isRelOp : relOp? (.symbol sign) = some op :=
    relOp?_eq_some_iff.mpr ⟨sign, written, rfl⟩
  have signFree : Free continuesSum (.symbol sign :: (second ++ rest)) := by
    rw [free_cons]
    unfold relOp? at isRelOp
    split at isRelOp <;> simp_all <;> rfl
  have sumFree : Free continuesSum rest := fun kind isHead => by
    simpa [continuesLiteral]
      using (Bool.or_eq_false_iff.mp (free kind isHead)).1
  refine gives_bind_of_ok (position_apply cursor) ?_
  refine (expr_complete _ first left _ cursor before (Nat.le_refl _) signFree
    kindsEq).bind ?_
  rintro leftRead reached ⟨leftEq, reachedEq⟩
  refine gives_bind_of_ok (next?_apply reached) ?_
  rw [show reached.kinds.head?.bind relOp? =
    some op by rw [reachedEq]; exact isRelOp]
  refine gives_advance_bind reachedEq ?_
  intro behind behindEq
  refine (expr_complete _ second right rest behind after (Nat.le_refl _) sumFree
    behindEq).bind ?_
  rintro rightRead last ⟨rightEq, lastEq⟩
  refine gives_bind_of_ok (next?_apply last) ?_
  have noSecond : last.kinds.head?.bind relOp? = none := by
    rw [lastEq, Option.bind_eq_none_iff]
    intro kind isHead
    simpa using (Bool.or_eq_false_iff.mp (free kind isHead)).2
  rw [if_neg (by rw [noSecond]; simp)]
  exact gives_pure ⟨by rw [Condition.erase, leftEq, rightEq], lastEq⟩

theorem isOperator_eq_false {kind : Token.Kind}
    (isFree : continuesLiteral kind = false) : isOperator kind = false := by
  simp only [continuesLiteral, continuesSum, continuesTerm,
    Bool.or_eq_false_iff, Option.isSome_eq_false_iff,
    Option.isNone_iff_eq_none] at isFree
  obtain ⟨⟨⟨_, noProduct⟩, noSum⟩, noRelation⟩ := isFree
  simp [isOperator, (sum_joins.none_iff kind).mpr noSum,
    (product_joins.none_iff kind).mpr noProduct, noRelation]

theorem group_complete {condition : Reader Condition} {bound : Nat}
    (conditionComplete : Complete condition Condition.erase Disjunction bound
      continuesDisjunction)
    {word rest : Word} {value : Condition} {cursor : Cursor}
    (derived : Disjunction word value)
    (short : word.length ≤ bound) (free : Free continuesLiteral rest)
    (kindsEq : cursor.kinds = .symbol .openParen ::
      (word ++ .symbol .closeParen :: rest)) :
    Gives (group condition) cursor fun inner after =>
      inner.erase = value ∧ after.kinds = rest := by
  refine gives_advance_bind kindsEq ?_
  intro opened openedEq
  refine (conditionComplete word value _ opened derived short (.cons rfl)
    openedEq).bind ?_
  rintro inner reached ⟨innerEq, reachedEq⟩
  refine gives_expect_bind reachedEq ?_
  intro closed closedEq
  refine gives_bind_of_ok (next?_apply closed) ?_
  have noOperator : closed.kinds.head?.any isOperator = false := by
    rw [closedEq]
    cases isHead : rest.head? with
    | none => rfl
    | some kind => exact isOperator_eq_false (free kind isHead)
  rw [if_neg (by rw [noOperator]; simp)]
  exact gives_pure ⟨innerEq, closedEq⟩

theorem disjunction_complete {literal : Reader Condition} {bound limit : Nat}
    (literalComplete : Complete literal Condition.erase Literal bound
      continuesLiteral)
    (enough : bound ≤ limit) :
    Complete (disjunction limit literal) Condition.erase Disjunction bound
      continuesDisjunction := by
  have conjunctionComplete :
      Complete (chain limit literal andJoin?) Condition.erase Conjunction
        bound continuesConjunction := by
    refine chain_complete literalComplete and_joins ?_ ?_ enough
    · intro kind combine isCombine
      unfold Grammar.andJoin? at isCombine
      split at isCombine
      · rfl
      · cases isCombine
    · intro kind isFree
      simpa [continuesConjunction] using isFree
  refine chain_complete conjunctionComplete or_joins ?_ ?_ enough
  · intro kind combine isCombine
    unfold Grammar.orJoin? at isCombine
    split at isCombine
    · rfl
    · cases isCombine
  · intro kind isFree
    simpa [continuesDisjunction] using isFree

theorem literal_complete (limit : Nat) :
    Complete (literal limit) Condition.erase Literal limit
      continuesLiteral := by
  induction limit with
  | zero =>
      intro word value rest cursor derived short
      obtain ⟨kind, others, rfl, _⟩ := literal_starts word value derived
      simp at short
  | succ limit ih =>
      intro word value rest cursor derived short free kindsEq
      refine gives_bind_of_ok (position_apply cursor) ?_
      cases derived with
      | @rel op sign first second left right before written after =>
          have relationGives : Gives relation cursor fun value last =>
              value.erase = .rel default op left right ∧ last.kinds = rest :=
            relation_gives op before written after free (by simpa using kindsEq)
          have leftEq :
              cursor.kinds = first ++ .symbol sign :: (second ++ rest) := by
            simpa using kindsEq
          have noNot : cursor.kinds.head? ≠ some (.keyword .notWord) := by
            rw [leftEq]
            exact expression_starts.head?_ne before rfl _
          refine gives_accept_bind_of_ne noNot ?_
          refine gives_bind_of_ok (next?_apply cursor) ?_
          split
          · next head =>
              -- The parenthesis is part of the left side, so the trial comes
              -- to nothing.
              have trialFails :=
                @group_fails _ limit (literal_fails limit) _ _ _ _ before
                leftEq head
              exact gives_bind_of_ok (speculate_of_fails trialFails)
                relationGives
          · exact relationGives
      | @not word value operand =>
          refine gives_accept_bind kindsEq ?_
          intro behind behindEq
          refine (ih word value rest behind operand
            (Nat.le_of_succ_le_succ short) free behindEq).bind ?_
          rintro inner after ⟨innerEq, afterEq⟩
          exact gives_pure ⟨by rw [Condition.erase, innerEq], afterEq⟩
      | @paren word value inner =>
          have innerShort : word.length ≤ limit := by
            simp only [List.length_cons, List.length_append] at short
            omega
          refine gives_accept_bind_of_ne (by rw [kindsEq]; simp) ?_
          refine gives_bind_of_ok (next?_apply cursor) ?_
          rw [if_pos (by rw [kindsEq]; rfl)]
          refine gives_speculate_bind
            (group_complete (disjunction_complete ih (Nat.le_refl limit))
            inner innerShort free (by simpa using kindsEq)) ?_
          intro condition after read
          exact gives_pure read

theorem condition_complete (bound : Nat) :
    Complete condition Condition.erase Disjunction bound
      continuesDisjunction := by
  intro word value rest cursor derived _ free kindsEq
  have short := Cursor.length_le_of_kinds_eq kindsEq
  refine gives_bind_of_ok (remaining_apply cursor) ?_
  exact disjunction_complete (literal_complete _) (Nat.le_refl _) word value
    rest cursor derived short free kindsEq

end Completeness

end PL0.Reader
