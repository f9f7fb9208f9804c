import PL0.Grammar.Condition
import PL0.Proofs.Reading.Setting

/-!
# Expressions and conditions in another setting

An expression is read in the same way in every setting.  The induction is on
the tokens before the next function: what is nested in an expression has fewer
of them.
-/

namespace PL0.Setting

variable {setting : Setting} {cursor : Cursor} {bound limit shownLimit : Nat}

theorem joinBy_follows (op : ArithOp) (left right : Expr)
    (fits : setting.Fits cursor) :
    setting.Follows (Expr.displace setting.toDisplacement)
      (Reader.joinBy op (left.displace setting.toDisplacement)
        (right.displace setting.toDisplacement))
      (Reader.joinBy op left right) 0 cursor := by
  unfold Reader.joinBy
  rw [Expr.node_displace]
  apply follows_newNode_bind fits
  intro node rest _ _
  exact follows_build (by rw [Expr.displace])

theorem sum_joinsAlike :
    setting.JoinsAlike (Expr.displace setting.toDisplacement)
      Reader.sumJoin? := by
  intro kind join isJoin
  unfold Reader.sumJoin? at isJoin
  split at isJoin
  · cases isJoin
    exact ⟨by simp, fun left right _ => joinBy_follows .add left right⟩
  · cases isJoin
    exact ⟨by simp, fun left right _ => joinBy_follows .sub left right⟩
  · cases isJoin

theorem product_joinsAlike :
    setting.JoinsAlike (Expr.displace setting.toDisplacement)
      Reader.productJoin? := by
  intro kind join isJoin
  unfold Reader.productJoin? at isJoin
  split at isJoin
  · cases isJoin
    exact ⟨by simp, fun left right _ => joinBy_follows .mul left right⟩
  · cases isJoin
    exact ⟨by simp, fun left right _ => joinBy_follows .div left right⟩
  · cases isJoin

section Parts

variable {shown expr : Reader Expr}

theorem placeWith_mirrors
    (exprs : setting.Mirrors bound (Expr.displace setting.toDisplacement) shown
      expr 1) :
    setting.Mirrors (bound + 1) (Place.displace setting.toDisplacement)
      (Reader.placeWith shown) (Reader.placeWith expr) 1 := by
  intro cursor fits short
  apply follows_identifier_bind fits
  intro name position named namedFits shorter
  apply follows_accept_bind namedFits (by simp)
  · intro opened openedFits _ openedShorter
    apply ((exprs opened openedFits (by omega)).mono (Nat.zero_le 1)).readerBind
      openedFits
    intro index reached reachedFits _
    apply follows_expect_bind reachedFits (by simp)
    intro closed closedFits _
    apply follows_newNode_bind closedFits
    intro node last _ _
    exact follows_build (by rw [Place.displace])
  · intro _
    apply follows_newNode_bind namedFits
    intro node last _ _
    exact follows_build (by rw [Place.displace])

theorem argumentsWith_mirrors
    (exprs : setting.Mirrors bound (Expr.displace setting.toDisplacement)
      shown expr 1)
    (enough : bound ≤ limit) (shownEnough : bound ≤ shownLimit) :
    setting.Mirrors bound (List.map (Expr.displace setting.toDisplacement))
      (Reader.argumentsWith shownLimit shown) (Reader.argumentsWith limit expr)
        0 := by
  intro cursor fits short
  apply follows_accept_bind fits (by simp)
  · intro closed _ _ _
    exact follows_pure [] closed
  · intro _
    have listed :=
      commaList_mirrors exprs enough shownEnough (Nat.le_refl bound)
    apply ((listed cursor fits short).mono (Nat.zero_le 1)).readerBind fits
    intro args reached reachedFits _
    apply follows_expect_bind reachedFits (by simp)
    intro closed _ _
    exact follows_pure args closed

/-- What stands between brackets or parentheses. -/
theorem enclosed_follows {closing : Token.Kind} {expected : Expectation}
    (exprs : setting.Mirrors bound (Expr.displace setting.toDisplacement)
      shown expr 1)
    (plain : closing ≠ .keyword .funWord) (fits : setting.Fits cursor)
    (short : cursor.span ≤ bound) :
    setting.Follows (Expr.displace setting.toDisplacement)
      (do
        let inner ← shown
        Reader.expect closing expected
        return inner : Reader Expr)
      (do
        let inner ← expr
        Reader.expect closing expected
        return inner) 0 cursor := by
  apply ((exprs cursor fits short).mono (Nat.zero_le 1)).readerBind fits
  intro inner reached reachedFits _
  apply follows_expect_bind reachedFits plain
  intro closed _ _
  exact follows_pure inner closed

theorem castOperand_follows
    (exprs : setting.Mirrors bound (Expr.displace setting.toDisplacement)
      shown expr 1)
    (fits : setting.Fits cursor) (short : cursor.span ≤ bound) :
    setting.Follows (Expr.displace setting.toDisplacement)
      (Reader.castOperand shown) (Reader.castOperand expr) 0 cursor := by
  apply follows_accept_bind fits (by simp)
  · intro opened openedFits _ openedShorter
    exact enclosed_follows exprs (by simp) openedFits (by omega)
  · intro _
    apply follows_accept_bind fits (by simp)
    · intro opened openedFits _ openedShorter
      exact enclosed_follows exprs (by simp) openedFits (by omega)
    · intro _
      exact follows_throw

theorem cast_follows
    (exprs : setting.Mirrors bound (Expr.displace setting.toDisplacement)
      shown expr 1)
    (target : BaseType) {position : Position} {word : Keyword}
    (fits : setting.Fits cursor)
    (short : cursor.span ≤ bound + 1)
    (head : cursor.kinds.head? = some (.keyword word))
    (plain : word ≠ .funWord) :
    setting.Follows (Expr.displace setting.toDisplacement)
      (do
        Reader.advance
        let operand ← Reader.castOperand shown
        return Expr.cast (← Reader.newNode (setting.position position)) target
          operand :
          Reader Expr)
      (do
        Reader.advance
        let operand ← Reader.castOperand expr
        return Expr.cast (← Reader.newNode position) target operand) 1
          cursor := by
  apply follows_advance_bind fits head (by simpa using plain)
  intro behind behindFits _ shorter
  apply (castOperand_follows exprs behindFits (by omega)).readerBind behindFits
  intro operand reached reachedFits _
  apply follows_newNode_bind reachedFits
  intro node last _ _
  exact follows_build (by rw [Expr.displace])

theorem primary_follows
    (exprs : setting.Mirrors bound (Expr.displace setting.toDisplacement)
      shown expr 1)
    (enough : bound ≤ limit) (shownEnough : bound ≤ shownLimit)
    (fits : setting.Fits cursor)
    (short : cursor.span ≤ bound + 1) :
    setting.Follows (Expr.displace setting.toDisplacement)
      (Reader.primary shownLimit shown)
      (Reader.primary limit expr) 1 cursor := by
  apply follows_position_bind fits
  apply follows_next?_bind fits
  cases head : cursor.kinds.head? with
  | none => exact follows_throw
  | some kind =>
      cases kind with
      | integer value =>
          apply follows_advance_bind fits head (by simp)
          intro behind behindFits _ _
          apply follows_newNode_bind behindFits
          intro node last _ _
          exact follows_build (by rw [Expr.displace])
      | float value =>
          apply follows_advance_bind fits head (by simp)
          intro behind behindFits _ _
          apply follows_newNode_bind behindFits
          intro node last _ _
          exact follows_build (by rw [Expr.displace])
      | identifier name =>
          apply follows_second?_bind fits head (by simp)
          by_cases isCall : cursor.kinds.tail.head? = some (.symbol .openParen)
          · rw [if_pos isCall, if_pos isCall]
            apply follows_advance_bind fits head (by simp)
            intro named namedFits nameEq namedShorter
            have openNext : named.kinds.head? = some (.symbol .openParen) := by
              rwa [nameEq, List.tail_cons] at isCall
            apply follows_advance_bind namedFits openNext (by simp)
            intro opened openedFits _ openedShorter
            have listed := argumentsWith_mirrors exprs enough shownEnough
            apply (listed opened openedFits (by omega)).readerBind openedFits
            intro args reached reachedFits _
            apply follows_newNode_bind reachedFits
            intro node last _ _
            exact follows_build (by rw [Expr.displace])
          · rw [if_neg isCall, if_neg isCall]
            apply (placeWith_mirrors exprs cursor fits short).readerBind fits
            intro place reached reachedFits _
            apply follows_newNode_bind reachedFits
            intro node last _ _
            exact follows_build (by rw [Expr.displace])
      | keyword word =>
          cases word with
          | intWord => exact cast_follows exprs .int fits short head (by simp)
          | floatWord =>
              exact cast_follows exprs .float fits short head (by simp)
          | _ => exact follows_throw
      | symbol sign =>
          cases sign with
          | openParen =>
              apply follows_advance_bind fits head (by simp)
              intro opened openedFits _ openedShorter
              exact enclosed_follows exprs (by simp) openedFits (by omega)
          | _ => exact follows_throw
      | _ => exact follows_throw

end Parts

theorem sum_mirrors {shown factor : Reader Expr}
    (factors : setting.Mirrors bound (Expr.displace setting.toDisplacement)
      shown factor 1)
    (enough : bound ≤ limit) (shownEnough : bound ≤ shownLimit) :
    setting.Mirrors bound (Expr.displace setting.toDisplacement)
      (Reader.sum shownLimit shown) (Reader.sum limit factor) 1 :=
  chain_mirrors (chain_mirrors factors product_joinsAlike enough shownEnough)
    sum_joinsAlike enough shownEnough

/-- No factor starts at the end of the input or at the next function. -/
theorem factor_of_span_eq_zero (none : cursor.span = 0) (limit : Nat) :
    Reader.factor limit cursor = .error .expression cursor := by
  have head := Cursor.head_of_span_eq_zero none
  cases limit with
  | zero => rfl
  | succ limit =>
      have noMinus : cursor.kinds.head? ≠ some (.symbol .minus) := by
        rcases head with head | head <;> simp [head]
      have noPlus : cursor.kinds.head? ≠ some (.symbol .plus) := by
        rcases head with head | head <;> simp [head]
      rw [Reader.factor, bind_apply_of_ok (Reader.position_apply cursor),
        bind_apply_of_ok (Reader.accept_of_ne noMinus)]
      simp only [Bool.false_eq_true, if_false]
      rw [bind_apply_of_ok (Reader.accept_of_ne noPlus)]
      simp only [Bool.false_eq_true, if_false]
      rw [Reader.primary, bind_apply_of_ok (Reader.position_apply cursor),
        bind_apply_of_ok (Reader.next?_apply cursor)]
      rcases head with head | head <;> rw [head] <;> rfl

theorem span_cursor_eq_zero (fits : setting.Fits cursor)
    (none : cursor.span = 0) : (setting.cursor cursor).span = 0 := by
  have sameHead := fits.head?
  rw [Cursor.span]
  cases kindsEq : (setting.cursor cursor).kinds with
  | nil => rfl
  | cons kind others =>
      rw [kindsEq, List.head?_cons] at sameHead
      rcases Cursor.head_of_span_eq_zero none with head | head
      · rw [head] at sameHead
        cases sameHead
      · rw [head, Option.some.injEq] at sameHead
        simp [sameHead]

theorem signed_follows {shown operand : Reader Expr} (op : SignOp)
    {position : Position}
    (follows : setting.Follows (Expr.displace setting.toDisplacement) shown
      operand 1 cursor)
    (fits : setting.Fits cursor) :
    setting.Follows (Expr.displace setting.toDisplacement)
      (do
        let inner ← shown
        return Expr.signed (← Reader.newNode (setting.position position))
          op inner :
          Reader Expr)
      (do
        let inner ← operand
        return Expr.signed (← Reader.newNode position) op inner) 0 cursor := by
  apply follows.readerBind fits
  intro inner reached reachedFits _
  apply follows_newNode_bind reachedFits
  intro node last _ _
  exact follows_build (by rw [Expr.displace])

theorem factor_mirrors (enough : bound ≤ limit)
    (shownEnough : bound ≤ shownLimit) :
    setting.Mirrors bound (Expr.displace setting.toDisplacement)
      (Reader.factor shownLimit) (Reader.factor limit) 1 := by
  induction bound generalizing limit shownLimit with
  | zero =>
      intro cursor fits short
      have none := Nat.le_zero.mp short
      exact follows_of_error (factor_of_span_eq_zero none limit)
        (factor_of_span_eq_zero (span_cursor_eq_zero fits none) shownLimit)
        (Cursor.Passes.refl cursor)
  | succ bound ih =>
      intro cursor fits short
      obtain ⟨limit, rfl⟩ : ∃ fewer, limit = fewer + 1 := ⟨limit - 1, by omega⟩
      obtain ⟨shownLimit, rfl⟩ : ∃ fewer, shownLimit = fewer + 1 :=
        ⟨shownLimit - 1, by omega⟩
      have factors :
          setting.Mirrors bound (Expr.displace setting.toDisplacement)
            (Reader.factor shownLimit) (Reader.factor limit) 1 :=
        ih (by omega) (by omega)
      rw [Reader.factor, Reader.factor]
      apply follows_position_bind fits
      apply follows_accept_bind fits (by simp)
      · intro behind behindFits _ shorter
        exact signed_follows .neg (factors behind behindFits (by omega))
          behindFits
      · intro _
        apply follows_accept_bind fits (by simp)
        · intro behind behindFits _ shorter
          exact signed_follows .plus (factors behind behindFits (by omega))
            behindFits
        · intro _
          have covered : bound ≤ limit := by omega
          have shownCovered : bound ≤ shownLimit := by omega
          exact primary_follows (sum_mirrors factors covered shownCovered)
            covered shownCovered fits short

theorem expr_follows (fits : setting.Fits cursor) :
    setting.Follows (Expr.displace setting.toDisplacement) Reader.expr
      Reader.expr 1 cursor := by
  have inPiece := cursor.span_le_length
  have inSetting : cursor.span ≤ (setting.cursor cursor).kinds.length :=
    setting.span_le_length_cursor cursor
  have shownRan : Reader.remaining (setting.cursor cursor) =
      .ok (setting.cursor cursor).kinds.length (setting.cursor cursor) :=
    Reader.remaining_apply _
  refine follows_bind_of_ok (Reader.remaining_apply cursor) shownRan
    (Cursor.Passes.refl cursor) ?_
  exact sum_mirrors (factor_mirrors inPiece inSetting) inPiece inSetting
    cursor fits (Nat.le_refl _)

theorem expr_mirrors (bound : Nat) :
    setting.Mirrors bound (Expr.displace setting.toDisplacement) Reader.expr
      Reader.expr 1 :=
  fun _ fits _ => expr_follows fits

theorem place_follows (fits : setting.Fits cursor) :
    setting.Follows (Place.displace setting.toDisplacement) Reader.place
      Reader.place 1 cursor :=
  placeWith_mirrors (expr_mirrors cursor.span) cursor fits (Nat.le_succ _)

theorem arguments_follows (fits : setting.Fits cursor) :
    setting.Follows (List.map (Expr.displace setting.toDisplacement))
      Reader.arguments Reader.arguments 0 cursor := by
  have shownRan : Reader.remaining (setting.cursor cursor) =
      .ok (setting.cursor cursor).kinds.length (setting.cursor cursor) :=
    Reader.remaining_apply _
  refine follows_bind_of_ok (Reader.remaining_apply cursor) shownRan
    (Cursor.Passes.refl cursor) ?_
  exact argumentsWith_mirrors (expr_mirrors cursor.span) cursor.span_le_length
    (setting.span_le_length_cursor cursor) cursor fits (Nat.le_refl _)

section Conditions

theorem connect_follows (op : LogicOp) (left right : Condition)
    (cursor : Cursor) :
    setting.Follows (Condition.displace setting.toDisplacement)
      (Reader.connect op (left.displace setting.toDisplacement)
        (right.displace setting.toDisplacement))
      (Reader.connect op left right) 0 cursor := by
  apply follows_build
  rw [Condition.displace, Condition.position_displace]

theorem or_joinsAlike :
    setting.JoinsAlike (Condition.displace setting.toDisplacement)
      Reader.orJoin? := by
  intro kind join isJoin
  unfold Reader.orJoin? at isJoin
  split at isJoin
  · cases isJoin
    exact ⟨by simp,
      fun left right cursor _ => connect_follows .or left right cursor⟩
  · cases isJoin

theorem and_joinsAlike :
    setting.JoinsAlike (Condition.displace setting.toDisplacement)
      Reader.andJoin? := by
  intro kind join isJoin
  unfold Reader.andJoin? at isJoin
  split at isJoin
  · cases isJoin
    exact ⟨by simp,
      fun left right cursor _ => connect_follows .and left right cursor⟩
  · cases isJoin

theorem disjunction_mirrors {shown literal : Reader Condition}
    (literals :
      setting.Mirrors bound (Condition.displace setting.toDisplacement) shown
        literal 1)
    (enough : bound ≤ limit) (shownEnough : bound ≤ shownLimit) :
    setting.Mirrors bound (Condition.displace setting.toDisplacement)
      (Reader.disjunction shownLimit shown) (Reader.disjunction limit literal)
        1 :=
  chain_mirrors (chain_mirrors literals and_joinsAlike enough shownEnough)
    or_joinsAlike enough shownEnough

theorem relation_follows (fits : setting.Fits cursor) :
    setting.Follows (Condition.displace setting.toDisplacement) Reader.relation
      Reader.relation 1 cursor := by
  apply follows_position_bind fits
  apply (expr_follows fits).readerBind fits
  intro left reached reachedFits _
  apply follows_next?_bind reachedFits
  cases found : reached.kinds.head?.bind Reader.relOp? with
  | none => exact follows_throw
  | some op =>
      obtain ⟨sign, head, isRelOp⟩ := Option.bind_eq_some_iff.mp found
      have plain : sign ≠ .keyword .funWord := by
        rintro rfl
        cases isRelOp
      apply follows_advance_bind reachedFits head plain
      intro behind behindFits _ _
      apply ((expr_follows behindFits).mono (Nat.zero_le 1)).readerBind
        behindFits
      intro right last lastFits _
      apply follows_next?_bind lastFits
      split
      · exact follows_throw
      · exact follows_build (by rw [Condition.displace])

theorem group_follows {shown condition : Reader Condition}
    (conditions :
      setting.Mirrors bound (Condition.displace setting.toDisplacement) shown
      condition 1) (fits : setting.Fits cursor) (short :
        cursor.span ≤ bound + 1)
    (head : cursor.kinds.head? = some (.symbol .openParen)) :
    setting.Follows (Condition.displace setting.toDisplacement)
      (Reader.group shown) (Reader.group condition) 1 cursor := by
  apply follows_advance_bind fits head (by simp)
  intro opened openedFits _ shorter
  apply ((conditions opened openedFits (by omega)).mono
    (Nat.zero_le 1)).readerBind openedFits
  intro inner reached reachedFits _
  apply follows_expect_bind reachedFits (by simp)
  intro closed closedFits _
  apply follows_next?_bind closedFits
  split
  · exact follows_throw
  · exact follows_pure inner closed

theorem expr_of_span_eq_zero (none : cursor.span = 0) :
    Reader.expr cursor = .error .expression cursor := by
  have noFactor := factor_of_span_eq_zero none cursor.kinds.length
  rw [Reader.expr, bind_apply_of_ok (Reader.remaining_apply cursor)]
  simp [Reader.sum, Reader.chain, Bind.bind, EStateM.bind, noFactor]

/-- No part of a condition starts at the end of the input or at the next
function. -/
theorem literal_of_span_eq_zero (none : cursor.span = 0) (limit : Nat) :
    Reader.literal limit cursor = .error .expression cursor := by
  have head := Cursor.head_of_span_eq_zero none
  cases limit with
  | zero => rfl
  | succ limit =>
      have noNot : cursor.kinds.head? ≠ some (.keyword .notWord) := by
        rcases head with head | head <;> simp [head]
      have noParen : cursor.kinds.head? ≠ some (.symbol .openParen) := by
        rcases head with head | head <;> simp [head]
      rw [Reader.literal, bind_apply_of_ok (Reader.position_apply cursor),
        bind_apply_of_ok (Reader.accept_of_ne noNot)]
      simp only [Bool.false_eq_true, if_false]
      rw [bind_apply_of_ok (Reader.next?_apply cursor), if_neg noParen,
        Reader.relation, bind_apply_of_ok (Reader.position_apply cursor)]
      simp [Bind.bind, EStateM.bind, expr_of_span_eq_zero none]

theorem literal_mirrors (enough : bound ≤ limit)
    (shownEnough : bound ≤ shownLimit) :
    setting.Mirrors bound (Condition.displace setting.toDisplacement)
      (Reader.literal shownLimit) (Reader.literal limit) 1 := by
  induction bound generalizing limit shownLimit with
  | zero =>
      intro cursor fits short
      have none := Nat.le_zero.mp short
      exact follows_of_error (literal_of_span_eq_zero none limit)
        (literal_of_span_eq_zero (span_cursor_eq_zero fits none) shownLimit)
        (Cursor.Passes.refl cursor)
  | succ bound ih =>
      intro cursor fits short
      obtain ⟨limit, rfl⟩ : ∃ fewer, limit = fewer + 1 := ⟨limit - 1, by omega⟩
      obtain ⟨shownLimit, rfl⟩ : ∃ fewer, shownLimit = fewer + 1 :=
        ⟨shownLimit - 1, by omega⟩
      have covered : bound ≤ limit := by omega
      have shownCovered : bound ≤ shownLimit := by omega
      have literals :
          setting.Mirrors bound (Condition.displace setting.toDisplacement)
            (Reader.literal shownLimit) (Reader.literal limit) 1 :=
        ih covered shownCovered
      rw [Reader.literal, Reader.literal]
      apply follows_position_bind fits
      apply follows_accept_bind fits (by simp)
      · intro behind behindFits _ shorter
        have follows := literals behind behindFits (by omega)
        apply (follows.mono (Nat.zero_le 1)).readerBind behindFits
        intro inner last _ _
        exact follows_build (by rw [Condition.displace])
      · intro _
        apply follows_next?_bind fits
        by_cases head : cursor.kinds.head? = some (.symbol .openParen)
        · rw [if_pos head, if_pos head]
          have conditions := disjunction_mirrors literals covered shownCovered
          apply follows_speculate_bind fits
            (group_follows conditions fits short head)
          · intro inner last _
            exact follows_pure inner last
          · exact relation_follows fits
        · rw [if_neg head, if_neg head]
          exact relation_follows fits

theorem condition_follows (fits : setting.Fits cursor) :
    setting.Follows (Condition.displace setting.toDisplacement) Reader.condition
      Reader.condition 1 cursor := by
  have inPiece := cursor.span_le_length
  have inSetting : cursor.span ≤ (setting.cursor cursor).kinds.length :=
    setting.span_le_length_cursor cursor
  have shownRan : Reader.remaining (setting.cursor cursor) =
      .ok (setting.cursor cursor).kinds.length (setting.cursor cursor) :=
    Reader.remaining_apply _
  refine follows_bind_of_ok (Reader.remaining_apply cursor) shownRan
    (Cursor.Passes.refl cursor) ?_
  exact disjunction_mirrors (literal_mirrors inPiece inSetting) inPiece
    inSetting cursor fits (Nat.le_refl _)

end Conditions

end PL0.Setting
