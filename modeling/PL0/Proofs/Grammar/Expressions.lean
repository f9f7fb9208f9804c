import PL0.Grammar.Expr
import PL0.Proofs.Grammar.Chains
import PL0.Proofs.Tree.Erasure

/-!
# Reading expressions follows the grammar

The bound of a reader counts tokens, so that a reader with a bound is sound
whatever the bound and complete for words up to that length.  What is read
inside a factor is shorter than the factor, and that is the induction.
-/

namespace PL0.Reader

open Grammar

theorem joinBy_gives (op : ArithOp) (left right : Expr) (cursor : Cursor) :
    Gives (joinBy op left right) cursor fun value after =>
      value.erase = .binary default op left.erase right.erase ∧
        after.kinds = cursor.kinds := by
  refine gives_newNode_bind ?_
  intro node after kindsEq
  exact gives_pure ⟨by rw [Expr.erase], kindsEq⟩

theorem sum_joins : Joins sumJoin? Expr.erase Grammar.sumJoin? where
  none_iff kind := by
    unfold sumJoin? Grammar.sumJoin?
    split <;> simp_all
  gives kind join combine isJoin isCombine left right cursor := by
    unfold sumJoin? at isJoin
    split at isJoin
    · cases isJoin
      cases isCombine
      exact joinBy_gives .add left right cursor
    · cases isJoin
      cases isCombine
      exact joinBy_gives .sub left right cursor
    · cases isJoin

theorem product_joins : Joins productJoin? Expr.erase Grammar.productJoin? where
  none_iff kind := by
    unfold productJoin? Grammar.productJoin?
    split <;> simp_all
  gives kind join combine isJoin isCombine left right cursor := by
    unfold productJoin? at isJoin
    split at isJoin
    · cases isJoin
      cases isCombine
      exact joinBy_gives .mul left right cursor
    · cases isJoin
      cases isCombine
      exact joinBy_gives .div left right cursor
    · cases isJoin

section Soundness

variable {expr : Reader Expr} {category : Category Expr}

theorem placeWith_sound (exprSound : Sound expr Expr.erase category) :
    Sound (placeWith expr) Place.erase (Location category) := by
  intro cursor
  refine ensures_identifier_bind ?_
  intro name position after nameEq
  refine ensures_accept_bind ?_ ?_
  · intro behind openEq
    refine (exprSound behind).bind ?_
    rintro index reached ⟨word, wordEq, derived⟩
    refine ensures_expect_bind ?_
    intro closed closeEq
    refine ensures_newNode_bind ?_
    intro node last lastEq
    refine ensures_pure ⟨_, ?_,
      by rw [Place.erase]; exact .element name derived⟩
    rw [nameEq, openEq, wordEq, closeEq, lastEq]
    simp
  · intro _
    refine ensures_newNode_bind ?_
    intro node last lastEq
    refine ensures_pure ⟨_, ?_, by rw [Place.erase]; exact .var name⟩
    rw [nameEq, lastEq]
    rfl

theorem argumentsWith_sound (exprSound : Sound expr Expr.erase category)
    (limit : Nat) :
    Sound (argumentsWith limit expr) (List.map Expr.erase) fun word values =>
      ∃ inner, word = inner ++ [.symbol .closeParen] ∧
        Listed (.symbol .comma) category inner values := by
  intro cursor
  refine ensures_accept_bind ?_ ?_
  · intro after closeEq
    exact ensures_pure ⟨[.symbol .closeParen], closeEq, [], rfl, .none⟩
  · intro _
    refine (commaList_sound exprSound limit cursor).bind ?_
    rintro args after ⟨word, wordEq, separated⟩
    refine ensures_expect_bind ?_
    intro closed closeEq
    refine ensures_pure ⟨word ++ [.symbol .closeParen], ?_, word, rfl,
      .some separated⟩
    rw [wordEq, closeEq]
    simp

theorem enclosed_ensures (exprSound : Sound expr Expr.erase category)
    {expected : Expectation} {closing : Token.Kind} (cursor : Cursor) :
    Ensures (do
        let inner ← expr
        expect closing expected
        return inner : Reader Expr) cursor fun inner after =>
      ∃ word, cursor.kinds = word ++ closing :: after.kinds ∧
        category word inner.erase := by
  refine (exprSound cursor).bind ?_
  rintro inner reached ⟨word, wordEq, derived⟩
  refine ensures_expect_bind ?_
  intro closed closeEq
  exact ensures_pure ⟨word, by rw [wordEq, closeEq], derived⟩

theorem castOperand_sound (exprSound : Sound expr Expr.erase category) :
    Sound (castOperand expr) Expr.erase fun word value =>
      ∃ inner, category inner value ∧
      (word = .symbol .openParen :: (inner ++ [.symbol .closeParen]) ∨
        word = .symbol .openBracket :: (inner ++ [.symbol .closeBracket])) := by
  intro cursor
  refine ensures_accept_bind ?_ ?_
  · intro behind openEq
    refine (enclosed_ensures exprSound behind).mono ?_
    rintro operand after ⟨word, wordEq, derived⟩
    exact ⟨_, by rw [openEq, wordEq]; simp, word, derived, .inl rfl⟩
  · intro _
    refine ensures_accept_bind ?_ ?_
    · intro behind openEq
      refine (enclosed_ensures exprSound behind).mono ?_
      rintro operand after ⟨word, wordEq, derived⟩
      exact ⟨_, by rw [openEq, wordEq]; simp, word, derived, .inr rfl⟩
    · intro _
      exact ensures_throw

theorem cast_ensures (exprSound : Sound expr Expr.erase Expression)
    (target : BaseType) {position : Position} {cursor : Cursor}
    (isType : cursor.kinds.head? = some (typeWord target)) :
    Ensures (do
        advance
        let operand ← castOperand expr
        return Expr.cast (← newNode position) target operand :
          Reader Expr) cursor
      fun value after =>
      ∃ word, cursor.kinds = word ++ after.kinds ∧ Factor word value.erase := by
  refine ensures_advance_bind isType ?_
  intro behind typeEq
  refine (castOperand_sound exprSound behind).bind ?_
  rintro operand after ⟨word, wordEq, inner, derived, shape⟩
  refine ensures_newNode_bind ?_
  intro node last lastEq
  refine ensures_pure ⟨typeWord target :: word, ?_, ?_⟩
  · rw [typeEq, wordEq, lastEq]
    rfl
  · rw [Expr.erase]
    rcases shape with rfl | rfl
    · exact .castParen target derived
    · exact .castBracket target derived

theorem primary_sound (exprSound : Sound expr Expr.erase Expression)
    (limit : Nat) : Sound (primary limit expr) Expr.erase Factor := by
  intro cursor
  refine ensures_bind_of_ok (position_apply cursor) ?_
  refine ensures_bind_of_ok (next?_apply cursor) ?_
  cases head : cursor.kinds.head? with
  | none => exact ensures_throw
  | some kind =>
      cases kind with
      | integer value =>
          refine ensures_advance_bind head ?_
          intro behind kindsEq
          refine ensures_newNode_bind ?_
          intro node last lastEq
          exact ensures_pure ⟨[.integer value], by rw [kindsEq, lastEq]; rfl,
            by rw [Expr.erase]; exact .int value⟩
      | float value =>
          refine ensures_advance_bind head ?_
          intro behind kindsEq
          refine ensures_newNode_bind ?_
          intro node last lastEq
          exact ensures_pure ⟨[.float value], by rw [kindsEq, lastEq]; rfl,
            by rw [Expr.erase]; exact .float value⟩
      | identifier name =>
          refine ensures_bind_of_ok (second?_apply cursor) ?_
          by_cases isCall : cursor.kinds.tail.head? = some (.symbol .openParen)
          · rw [if_pos isCall]
            refine ensures_advance_bind head ?_
            intro behind nameEq
            have openNext : behind.kinds.head? = some (.symbol .openParen) := by
              rwa [nameEq, List.tail_cons] at isCall
            refine ensures_advance_bind openNext ?_
            intro opened openEq
            refine (argumentsWith_sound exprSound limit opened).bind ?_
            rintro args after ⟨_, wordEq, inner, rfl, listed⟩
            refine ensures_newNode_bind ?_
            intro node last lastEq
            refine ensures_pure ⟨_, ?_,
              by rw [Expr.erase]; exact .call name listed⟩
            rw [nameEq, openEq, wordEq, lastEq]
            simp
          · rw [if_neg isCall]
            refine (placeWith_sound exprSound cursor).bind ?_
            rintro place after ⟨word, wordEq, located⟩
            refine ensures_newNode_bind ?_
            intro node last lastEq
            exact ensures_pure ⟨word, by rw [wordEq, lastEq],
              by rw [Expr.erase]; exact .location located⟩
      | keyword word =>
          cases word with
          | intWord => exact cast_ensures exprSound .int head
          | floatWord => exact cast_ensures exprSound .float head
          | _ => exact ensures_throw
      | symbol sign =>
          cases sign with
          | openParen =>
              refine ensures_advance_bind head ?_
              intro behind openEq
              refine (enclosed_ensures exprSound behind).mono ?_
              rintro inner after ⟨word, wordEq, derived⟩
              exact ⟨_, by rw [openEq, wordEq]; simp, .paren derived⟩
          | _ => exact ensures_throw
      | _ => exact ensures_throw

theorem sum_sound {factor : Reader Expr}
    (factorSound : Sound factor Expr.erase Factor) (limit : Nat) :
    Sound (sum limit factor) Expr.erase Expression :=
  chain_sound (chain_sound factorSound product_joins limit) sum_joins limit

theorem signed_ensures {operand : Reader Expr}
    (operandSound : Sound operand Expr.erase Factor) {position : Position}
    {op : SignOp} {sign : Token.Kind} {cursor behind : Cursor}
    (signEq : cursor.kinds = sign :: behind.kinds)
    (signed : ∀ word value, Factor word value →
      Factor (sign :: word) (.signed default op value)) :
    Ensures (do
        let inner ← operand
        return Expr.signed (← newNode position) op inner : Reader Expr) behind
      fun value after =>
      ∃ word, cursor.kinds = word ++ after.kinds ∧ Factor word value.erase := by
  refine (operandSound behind).bind ?_
  rintro inner after ⟨word, wordEq, derived⟩
  refine ensures_newNode_bind ?_
  intro node last lastEq
  refine ensures_pure ⟨sign :: word, ?_,
    by rw [Expr.erase]; exact signed word _ derived⟩
  rw [signEq, wordEq, lastEq]
  rfl

theorem factor_sound (limit : Nat) :
    Sound (factor limit) Expr.erase Factor := by
  induction limit with
  | zero => exact fun cursor => ensures_throw
  | succ limit ih =>
      intro cursor
      refine ensures_bind_of_ok (position_apply cursor) ?_
      refine ensures_accept_bind ?_ ?_
      · intro behind minusEq
        exact signed_ensures ih minusEq fun _ _ => .negated
      · intro _
        refine ensures_accept_bind ?_ ?_
        · intro behind plusEq
          exact signed_ensures ih plusEq fun _ _ => .positive
        · intro _
          exact primary_sound (sum_sound ih limit) limit cursor

theorem expr_sound : Sound Reader.expr Expr.erase Expression := by
  intro cursor
  refine ensures_bind_of_ok (remaining_apply cursor) ?_
  exact sum_sound (factor_sound _) _ cursor

theorem place_sound : Sound Reader.place Place.erase (Location Expression) :=
  placeWith_sound expr_sound

theorem arguments_sound :
    Sound Reader.arguments (List.map Expr.erase) fun word values =>
      ∃ inner, word = inner ++ [.symbol .closeParen] ∧
        Listed (.symbol .comma) Expression inner values := by
  intro cursor
  refine ensures_bind_of_ok (remaining_apply cursor) ?_
  exact argumentsWith_sound expr_sound _ cursor

end Soundness

/-- The tokens that a factor can start with. -/
def startsFactor : Token.Kind → Bool
  | .integer _ | .float _ | .identifier _ => true
  | .keyword .intWord | .keyword .floatWord => true
  | .symbol .minus | .symbol .plus | .symbol .openParen => true
  | _ => false

/-- The tokens that would continue a factor: a name may be followed by an
index or by arguments. -/
def continuesFactor (kind : Token.Kind) : Bool :=
  kind = .symbol .openBracket || kind = .symbol .openParen

/-- The tokens that would continue a product. -/
def continuesTerm (kind : Token.Kind) : Bool :=
  continuesFactor kind || (Grammar.productJoin? kind).isSome

/-- The tokens that would continue a sum. -/
def continuesSum (kind : Token.Kind) : Bool :=
  continuesTerm kind || (Grammar.sumJoin? kind).isSome

theorem location_starts {category : Category Expr} :
    Starts startsFactor (Location category) := by
  intro word place located
  cases located with
  | var name => exact ⟨_, _, rfl, rfl⟩
  | element name indexed => exact ⟨_, _, rfl, rfl⟩

theorem factor_starts : Starts startsFactor Factor := by
  intro word value derived
  cases derived with
  | location located => exact location_starts _ _ located
  | castParen target operand => exact ⟨_, _, rfl, by cases target <;> rfl⟩
  | castBracket target operand => exact ⟨_, _, rfl, by cases target <;> rfl⟩
  | int value => exact ⟨_, _, rfl, rfl⟩
  | float value => exact ⟨_, _, rfl, rfl⟩
  | call callee passed => exact ⟨_, _, rfl, rfl⟩
  | negated operand => exact ⟨_, _, rfl, rfl⟩
  | positive operand => exact ⟨_, _, rfl, rfl⟩
  | paren inner => exact ⟨_, _, rfl, rfl⟩

theorem expression_starts : Starts startsFactor Expression :=
  factor_starts.chain.chain

section Completeness

variable {expr : Reader Expr} {category : Category Expr} {bound : Nat}

theorem placeWith_complete
    (exprComplete : Complete expr Expr.erase category bound continuesSum) :
    Complete (placeWith expr) Place.erase (Location category)
      (bound + 1) continuesFactor := by
  intro word place rest cursor located short free kindsEq
  cases located with
  | var name =>
      refine gives_identifier_bind kindsEq ?_
      intro position after afterEq
      refine gives_accept_bind_of_ne ?_ ?_
      · intro isOpen
        rw [afterEq] at isOpen
        simpa [continuesFactor] using free _ isOpen
      · refine gives_newNode_bind ?_
        intro node last lastEq
        exact gives_pure ⟨by rw [Place.erase], lastEq.trans afterEq⟩
  | @element name word value indexed =>
      refine gives_identifier_bind kindsEq ?_
      intro position after afterEq
      refine gives_accept_bind afterEq ?_
      intro opened openedEq
      have indexShort : word.length ≤ bound := by
        simp only [List.length_cons, List.length_append] at short
        omega
      refine (exprComplete word value (.symbol .closeBracket :: rest) opened
        indexed indexShort (.cons rfl) (by simpa using openedEq)).bind ?_
      rintro index reached ⟨indexEq, reachedEq⟩
      refine gives_expect_bind reachedEq ?_
      intro closed closedEq
      refine gives_newNode_bind ?_
      intro node last lastEq
      exact gives_pure ⟨by rw [Place.erase, indexEq], lastEq.trans closedEq⟩

/-- A place starts with a name, and no parenthesis comes next as it would in a
call. -/
theorem location_head {word rest : Word} {place : Place}
    (located : Location category word place)
    (free : Free continuesFactor rest) :
    ∃ name others, word = .identifier name :: others ∧
      (others ++ rest).head? ≠ some (.symbol .openParen) := by
  cases located with
  | var name =>
      refine ⟨name, [], rfl, ?_⟩
      intro isOpen
      simpa [continuesFactor] using free _ isOpen
  | element name indexed => exact ⟨name, _, rfl, by simp⟩

theorem argumentsWith_complete {limit : Nat} {starts : Token.Kind → Bool}
    (exprComplete : Complete expr Expr.erase category bound continuesSum)
    (exprStarts : Starts starts category)
    (noStart : starts (.symbol .closeParen) = false)
    (enough : bound ≤ limit) {word : Word} {values : List Expr} {rest : Word}
    {cursor : Cursor}
    (passed : Listed (.symbol .comma) category word values)
    (short : word.length ≤ bound)
    (kindsEq : cursor.kinds = word ++ .symbol .closeParen :: rest) :
    Gives (argumentsWith limit expr) cursor fun args after =>
      args.map Expr.erase = values ∧ after.kinds = rest := by
  cases passed with
  | none =>
      refine gives_accept_bind kindsEq ?_
      intro after afterEq
      exact gives_pure ⟨rfl, afterEq⟩
  | some separated =>
      have notClosed : cursor.kinds.head? ≠ some (.symbol .closeParen) := by
        rw [kindsEq]
        exact exprStarts.separated.head?_ne separated noStart _
      refine gives_accept_bind_of_ne notClosed ?_
      have listComplete := commaList_complete exprComplete rfl
        (fun kind (isFree : (continuesSum kind || kind = .symbol .comma) = false) => by
          simpa using isFree) enough
      refine (listComplete word values (.symbol .closeParen :: rest) cursor
        separated short (.cons rfl) kindsEq).bind ?_
      rintro args after ⟨argsEq, afterEq⟩
      refine gives_expect_bind afterEq ?_
      intro closed closedEq
      exact gives_pure ⟨argsEq, closedEq⟩

theorem enclosed_gives
    (exprComplete : Complete expr Expr.erase category bound continuesSum)
    {expected : Expectation} {closing : Token.Kind}
    (apart : continuesSum closing = false)
    {word : Word} {value : Expr} {rest : Word} {cursor : Cursor}
    (derived : category word value)
    (short : word.length ≤ bound)
    (kindsEq : cursor.kinds = word ++ closing :: rest) :
    Gives (do
        let inner ← expr
        expect closing expected
        return inner : Reader Expr) cursor fun inner after =>
      inner.erase = value ∧ after.kinds = rest := by
  refine (exprComplete word value _ cursor derived short (.cons apart)
    kindsEq).bind ?_
  rintro inner after ⟨innerEq, afterEq⟩
  refine gives_expect_bind afterEq ?_
  intro closed closedEq
  exact gives_pure ⟨innerEq, closedEq⟩

theorem castOperand_complete
    (exprComplete : Complete expr Expr.erase category bound continuesSum)
    {opening closing : Symbol}
    (bracketed : (opening, closing) = (.openParen, .closeParen) ∨
      (opening, closing) = (.openBracket, .closeBracket))
    {word : Word} {value : Expr} {rest : Word} {cursor : Cursor}
    (derived : category word value)
    (short : word.length ≤ bound)
    (kindsEq : cursor.kinds = .symbol opening ::
      (word ++ .symbol closing :: rest)) :
    Gives (castOperand expr) cursor fun operand after =>
      operand.erase = value ∧ after.kinds = rest := by
  rcases bracketed with ⟨⟨⟩⟩ | ⟨⟨⟩⟩
  · refine gives_accept_bind kindsEq ?_
    intro opened openedEq
    exact enclosed_gives exprComplete rfl derived short openedEq
  · refine gives_accept_bind_of_ne (by rw [kindsEq]; simp) ?_
    refine gives_accept_bind kindsEq ?_
    intro opened openedEq
    exact enclosed_gives exprComplete rfl derived short openedEq

theorem cast_gives
    (exprComplete : Complete expr Expr.erase category bound continuesSum)
    {limit : Nat} {target : BaseType} {opening closing : Symbol}
    (bracketed : (opening, closing) = (.openParen, .closeParen) ∨
      (opening, closing) = (.openBracket, .closeBracket))
    {word : Word} {value : Expr} {rest : Word} {cursor : Cursor}
    (derived : category word value)
    (short : word.length ≤ bound) (kindsEq : cursor.kinds =
      typeWord target :: .symbol opening :: (word ++ .symbol closing :: rest)) :
    Gives (primary limit expr) cursor fun result after =>
      result.erase = .cast default target value ∧ after.kinds = rest := by
  have head : cursor.kinds.head? = some (typeWord target) := by
    rw [kindsEq]; rfl
  have casts : Gives (do
      advance
      let operand ← castOperand expr
      return Expr.cast (← newNode cursor.position) target operand :
        Reader Expr) cursor
      fun result after => result.erase = .cast default target value ∧
        after.kinds = rest := by
    refine gives_advance_bind kindsEq ?_
    intro typed typedEq
    refine (castOperand_complete exprComplete bracketed derived short
      typedEq).bind ?_
    rintro operand reached ⟨operandEq, reachedEq⟩
    refine gives_newNode_bind ?_
    intro node last lastEq
    exact gives_pure ⟨by rw [Expr.erase, operandEq], lastEq.trans reachedEq⟩
  refine gives_bind_of_ok (position_apply cursor) ?_
  refine gives_bind_of_ok (next?_apply cursor) ?_
  rw [head]
  cases target with
  | int => exact casts
  | float => exact casts

/-- No sign stands before the word. -/
def Unsigned (word : Word) : Prop :=
  ∀ sign, word.head? = some sign → sign ≠ .symbol .minus ∧ sign ≠ .symbol .plus

theorem factor_signed_or_unsigned {word : Word} {value : Expr}
    (derived : Factor word value) :
    (∃ inner operand, Factor inner operand ∧ word = .symbol .minus :: inner ∧
      value = .signed default .neg operand) ∨
    (∃ inner operand, Factor inner operand ∧ word = .symbol .plus :: inner ∧
      value = .signed default .plus operand) ∨ Unsigned word := by
  cases derived with
  | negated operand => exact .inl ⟨_, _, operand, rfl, rfl⟩
  | positive operand => exact .inr (.inl ⟨_, _, operand, rfl, rfl⟩)
  | location located =>
      obtain ⟨name, others, rfl, _⟩ := location_head located (free_nil _)
      exact .inr (.inr (by simp [Unsigned]))
  | castParen target operand =>
      exact .inr (.inr (by cases target <;> simp [Unsigned, typeWord]))
  | castBracket target operand =>
      exact .inr (.inr (by cases target <;> simp [Unsigned, typeWord]))
  | int number => exact .inr (.inr (by simp [Unsigned]))
  | float number => exact .inr (.inr (by simp [Unsigned]))
  | call callee passed => exact .inr (.inr (by simp [Unsigned]))
  | paren inner => exact .inr (.inr (by simp [Unsigned]))

theorem primary_complete {limit : Nat}
    (exprComplete : Complete expr Expr.erase Expression bound continuesSum)
    (enough : bound ≤ limit) {word : Word} {value : Expr} {rest : Word}
    {cursor : Cursor} (derived : Factor word value)
    (short : word.length ≤ bound + 1) (unsigned : Unsigned word)
    (free : Free continuesFactor rest) (kindsEq : cursor.kinds = word ++ rest) :
    Gives (primary limit expr) cursor fun result after =>
      result.erase = value ∧ after.kinds = rest := by
  cases derived with
  | int number =>
      refine gives_bind_of_ok (position_apply cursor) ?_
      refine gives_bind_of_ok (next?_apply cursor) ?_
      rw [kindsEq]
      refine gives_advance_bind kindsEq ?_
      intro after afterEq
      refine gives_newNode_bind ?_
      intro node last lastEq
      exact gives_pure ⟨by rw [Expr.erase], lastEq.trans afterEq⟩
  | float number =>
      refine gives_bind_of_ok (position_apply cursor) ?_
      refine gives_bind_of_ok (next?_apply cursor) ?_
      rw [kindsEq]
      refine gives_advance_bind kindsEq ?_
      intro after afterEq
      refine gives_newNode_bind ?_
      intro node last lastEq
      exact gives_pure ⟨by rw [Expr.erase], lastEq.trans afterEq⟩
  | @location word place located =>
      obtain ⟨name, others, wordEq, notCall⟩ := location_head located free
      refine gives_bind_of_ok (position_apply cursor) ?_
      refine gives_bind_of_ok (next?_apply cursor) ?_
      have head : cursor.kinds.head? = some (.identifier name) := by
        rw [kindsEq, wordEq]
        rfl
      rw [head]
      refine gives_bind_of_ok (second?_apply cursor) ?_
      rw [if_neg (by rw [kindsEq, wordEq]; exact notCall)]
      refine (placeWith_complete exprComplete word place rest cursor located
        short free kindsEq).bind ?_
      rintro result after ⟨placeEq, afterEq⟩
      refine gives_newNode_bind ?_
      intro node last lastEq
      exact gives_pure ⟨by rw [Expr.erase, placeEq], lastEq.trans afterEq⟩
  | @call callee word values passed =>
      refine gives_bind_of_ok (position_apply cursor) ?_
      refine gives_bind_of_ok (next?_apply cursor) ?_
      rw [show cursor.kinds.head? =
        some (.identifier callee) by rw [kindsEq]; rfl]
      refine gives_bind_of_ok (second?_apply cursor) ?_
      rw [if_pos (by rw [kindsEq]; rfl)]
      refine gives_advance_bind kindsEq ?_
      intro named namedEq
      refine gives_advance_bind namedEq ?_
      intro opened openedEq
      have argumentsShort : word.length ≤ bound := by
        simp only [List.length_cons, List.length_append] at short
        omega
      refine (argumentsWith_complete exprComplete expression_starts rfl
        enough passed argumentsShort (by simpa using openedEq)).bind ?_
      rintro args after ⟨argsEq, afterEq⟩
      refine gives_newNode_bind ?_
      intro node last lastEq
      exact gives_pure ⟨by rw [Expr.erase, argsEq], lastEq.trans afterEq⟩
  | @castParen target word value operand =>
      refine cast_gives exprComplete (.inl rfl) operand ?_ (by simpa
        using kindsEq)
      simp only [List.length_cons, List.length_append] at short
      omega
  | @castBracket target word value operand =>
      refine cast_gives exprComplete (.inr rfl) operand ?_ (by simpa
        using kindsEq)
      simp only [List.length_cons, List.length_append] at short
      omega
  | negated operand => exact absurd rfl (unsigned _ rfl).1
  | positive operand => exact absurd rfl (unsigned _ rfl).2
  | @paren word value inner =>
      refine gives_bind_of_ok (position_apply cursor) ?_
      refine gives_bind_of_ok (next?_apply cursor) ?_
      rw [kindsEq]
      refine gives_advance_bind kindsEq ?_
      intro opened openedEq
      refine enclosed_gives exprComplete rfl inner ?_ (by simpa using openedEq)
      simp only [List.length_cons, List.length_append] at short
      omega

theorem sum_complete {factor : Reader Expr} {limit : Nat}
    (factorComplete : Complete factor Expr.erase Factor bound continuesFactor)
    (enough : bound ≤ limit) :
    Complete (sum limit factor) Expr.erase Expression bound continuesSum := by
  have termComplete :
      Complete (chain limit factor productJoin?) Expr.erase Term bound
        continuesTerm := by
    refine chain_complete factorComplete product_joins ?_ ?_ enough
    · intro kind combine isCombine
      unfold Grammar.productJoin? at isCombine
      split at isCombine <;> simp_all [continuesFactor]
    · intro kind isFree
      simpa [continuesTerm] using isFree
  refine chain_complete termComplete sum_joins ?_ ?_ enough
  · intro kind combine isCombine
    unfold Grammar.sumJoin? at isCombine
    split at isCombine <;> simp_all [continuesTerm, continuesFactor,
      Grammar.productJoin?]
  · intro kind isFree
    simpa [continuesSum] using isFree

theorem signed_gives {operand : Reader Expr}
    (operandComplete : Complete operand Expr.erase Factor bound continuesFactor)
    {position : Position} {op : SignOp} {word : Word} {value : Expr}
    {rest : Word}
    {cursor : Cursor} (derived : Factor word value)
    (short : word.length ≤ bound)
    (free : Free continuesFactor rest) (kindsEq : cursor.kinds = word ++ rest) :
    Gives (do
        let inner ← operand
        return Expr.signed (← newNode position) op inner : Reader Expr) cursor
      fun result after => result.erase = .signed default op value ∧
        after.kinds = rest := by
  refine (operandComplete word value rest cursor derived short free
    kindsEq).bind ?_
  rintro inner after ⟨innerEq, afterEq⟩
  refine gives_newNode_bind ?_
  intro node last lastEq
  exact gives_pure ⟨by rw [Expr.erase, innerEq], lastEq.trans afterEq⟩

theorem factor_complete (limit : Nat) :
    Complete (factor limit) Expr.erase Factor limit continuesFactor := by
  induction limit with
  | zero =>
      intro word value rest cursor derived short
      obtain ⟨kind, others, rfl, _⟩ := factor_starts word value derived
      simp at short
  | succ limit ih =>
      intro word value rest cursor derived short free kindsEq
      refine gives_bind_of_ok (position_apply cursor) ?_
      rcases factor_signed_or_unsigned derived with
        ⟨inner, operand, operandDerived, rfl, rfl⟩ |
          ⟨inner, operand, operandDerived, rfl, rfl⟩ | unsigned
      · refine gives_accept_bind kindsEq ?_
        intro after afterEq
        exact signed_gives ih operandDerived (Nat.le_of_succ_le_succ short)
          free afterEq
      · refine gives_accept_bind_of_ne (by rw [kindsEq]; simp) ?_
        refine gives_accept_bind kindsEq ?_
        intro after afterEq
        exact signed_gives ih operandDerived (Nat.le_of_succ_le_succ short)
          free afterEq
      · obtain ⟨first, others, rfl, _⟩ := factor_starts word value derived
        obtain ⟨notMinus, notPlus⟩ := unsigned first rfl
        refine gives_accept_bind_of_ne (by rw [kindsEq]; simpa
          using notMinus) ?_
        refine gives_accept_bind_of_ne (by rw [kindsEq]; simpa using notPlus) ?_
        exact primary_complete (sum_complete ih (Nat.le_refl limit))
          (Nat.le_refl limit) derived short unsigned free kindsEq

/-- An expression is read whatever its length, since the bound is taken from
the tokens that are left. -/
theorem expr_complete (bound : Nat) :
    Complete Reader.expr Expr.erase Expression bound continuesSum := by
  intro word value rest cursor derived _ free kindsEq
  have short := Cursor.length_le_of_kinds_eq kindsEq
  refine gives_bind_of_ok (remaining_apply cursor) ?_
  exact sum_complete (factor_complete _) (Nat.le_refl _) word value rest cursor
    derived short free kindsEq

theorem place_complete (bound : Nat) :
    Complete Reader.place Place.erase (Location Expression) bound
      continuesFactor := by
  intro word place rest cursor located _ free kindsEq
  exact placeWith_complete (expr_complete word.length) word place rest
    cursor located (Nat.le_succ _) free kindsEq

theorem arguments_complete {word : Word} {values : List Expr} {rest : Word}
    {cursor : Cursor} (passed : Listed (.symbol .comma) Expression word values)
    (kindsEq : cursor.kinds = word ++ .symbol .closeParen :: rest) :
    Gives Reader.arguments cursor fun args after =>
      args.map Expr.erase = values ∧ after.kinds = rest := by
  have short := Cursor.length_le_of_kinds_eq kindsEq
  refine gives_bind_of_ok (remaining_apply cursor) ?_
  exact argumentsWith_complete (expr_complete _) expression_starts rfl
    (Nat.le_refl _) passed short kindsEq

end Completeness

end PL0.Reader
