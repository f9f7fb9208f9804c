import PL0.Grammar.Stmt
import PL0.Proofs.Grammar.Recovering

/-!
# Readers that stop before a divider

A semicolon, `begin`, `end` and `fun` divide statements from each other.  No
expression and no condition holds one of them, so their readers never pass
over one, whether they succeed or fail.  The same holds of a statement as long
as it cannot contain a block.  Such a statement also reports nothing on its
own, and what has been reported before does not matter to it.
-/

namespace PL0

/-- The tokens between statements and around lists of them. -/
def Token.Kind.isDivider : Token.Kind → Bool
  | .symbol .semicolon => true
  | .keyword .beginWord | .keyword .endWord | .keyword .funWord => true
  | .endOfInput => true
  | _ => false

namespace Cursor

/-- From one cursor to another there is no divider. -/
def Reaches (cursor rest : Cursor) : Prop :=
  ∃ passed, cursor.tokens = passed ++ rest.tokens ∧
    ∀ token ∈ passed, token.kind.isDivider = false

variable {cursor rest last : Cursor} {kind : Token.Kind}

theorem Reaches.refl (cursor : Cursor) : cursor.Reaches cursor :=
  ⟨[], rfl, by simp⟩

theorem Reaches.trans (first : cursor.Reaches rest)
    (second : rest.Reaches last) : cursor.Reaches last := by
  obtain ⟨passed, tokensEq, plain⟩ := first
  obtain ⟨further, restEq, plainer⟩ := second
  exact ⟨passed ++ further, by rw [tokensEq, restEq, List.append_assoc],
    List.forall_mem_append.mpr ⟨plain, plainer⟩⟩

theorem reaches_advance (head : cursor.kinds.head? = some kind)
    (plain : kind.isDivider = false) : cursor.Reaches cursor.advance := by
  cases tokensEq : cursor.tokens with
  | nil => simp [kinds, tokensEq] at head
  | cons token others =>
      have kindEq : token.kind = kind := by simpa [kinds, tokensEq] using head
      exact ⟨[token], by simp [advance, tokensEq],
        by simpa [kindEq] using plain⟩

/-- No block starts before the next divider, nor at it. -/
def Blockless (cursor : Cursor) : Prop :=
  ∀ rest, cursor.Reaches rest → rest.kinds.head? ≠ some (.keyword .beginWord)

theorem Blockless.of_reaches (blockless : cursor.Blockless)
    (reaches : cursor.Reaches rest) : rest.Blockless :=
  fun last further => blockless last (reaches.trans further)

end Cursor

namespace Reader

variable {α β : Type}

/-- The reader stops before the next divider. -/
def Stays (reader : Reader α) (cursor : Cursor) : Prop :=
  match reader cursor with
  | .ok _ rest => cursor.Reaches rest
  | .error _ rest => cursor.Reaches rest

variable {reader : Reader α} {next : α → Reader β} {cursor rest : Cursor}
  {kind : Token.Kind}

theorem stays_of_ok {value : α} (ran : reader cursor = .ok value rest)
    (reaches : cursor.Reaches rest) : reader.Stays cursor := by
  rw [Stays, ran]
  exact reaches

theorem stays_of_error {expected : Expectation}
    (ran : reader cursor = .error expected rest)
    (reaches : cursor.Reaches rest) : reader.Stays cursor := by
  rw [Stays, ran]
  exact reaches

theorem stays_pure (value : α) (cursor : Cursor) : Stays (pure value) cursor :=
  stays_of_ok rfl (.refl cursor)

theorem stays_throw (expected : Expectation) (cursor : Cursor) :
    Stays (throw expected : Reader α) cursor :=
  stays_of_error rfl (.refl cursor)

theorem stays_bind_of_ok {value : α} (ran : reader cursor = .ok value rest)
    (reaches : cursor.Reaches rest) (further : (next value).Stays rest) :
    Stays (reader >>= next) cursor := by
  cases nextRan : next value rest with
  | ok result last =>
      rw [Stays, nextRan] at further
      exact stays_of_ok (by rw [bind_apply_of_ok ran, nextRan])
        (reaches.trans further)
  | error expected last =>
      rw [Stays, nextRan] at further
      exact stays_of_error (by rw [bind_apply_of_ok ran, nextRan])
        (reaches.trans further)

theorem Stays.bind (stays : reader.Stays cursor)
    (further : ∀ value rest, (next value).Stays rest) :
    Stays (reader >>= next) cursor := by
  cases ran : reader cursor with
  | ok value rest =>
      rw [Stays, ran] at stays
      exact stays_bind_of_ok ran stays (further value rest)
  | error expected rest =>
      rw [Stays, ran] at stays
      have failed : (reader >>= next) cursor = .error expected rest := by
        simp [Bind.bind, EStateM.bind, ran]
      exact stays_of_error failed stays

theorem stays_next?_bind {next : Option Token.Kind → Reader β}
    (further : (next cursor.kinds.head?).Stays cursor) :
    Stays (next? >>= next) cursor :=
  stays_bind_of_ok (next?_apply cursor) (.refl cursor) further

theorem stays_second?_bind {next : Option Token.Kind → Reader β}
    (further : (next cursor.kinds.tail.head?).Stays cursor) :
    Stays (second? >>= next) cursor :=
  stays_bind_of_ok (second?_apply cursor) (.refl cursor) further

theorem stays_position_bind {next : Position → Reader β}
    (further : (next cursor.position).Stays cursor) :
    Stays (position >>= next) cursor :=
  stays_bind_of_ok (position_apply cursor) (.refl cursor) further

theorem stays_remaining_bind {next : Nat → Reader β}
    (further : (next cursor.kinds.length).Stays cursor) :
    Stays (remaining >>= next) cursor :=
  stays_bind_of_ok (remaining_apply cursor) (.refl cursor) further

theorem stays_advance_bind {next : Unit → Reader β}
    (head : cursor.kinds.head? = some kind) (plain : kind.isDivider = false)
    (further : ∀ rest : Cursor, cursor.kinds = kind :: rest.kinds →
      (next ()).Stays rest) :
    Stays (advance >>= next) cursor :=
  stays_bind_of_ok (advance_apply cursor) (Cursor.reaches_advance head plain)
    (further _ (Cursor.kinds_eq_cons head))

theorem accept_stays (plain : kind.isDivider = false) (cursor : Cursor) :
    (accept kind).Stays cursor := by
  by_cases found : cursor.kinds.head? = some kind
  · exact stays_of_ok (accept_of_head found)
      (Cursor.reaches_advance found plain)
  · exact stays_of_ok (accept_of_ne found) (.refl cursor)

theorem expect_stays {expected : Expectation} (plain : kind.isDivider = false)
    (cursor : Cursor) : (expect kind expected).Stays cursor := by
  by_cases found : cursor.kinds.head? = some kind
  · exact stays_of_ok (expect_of_head found)
      (Cursor.reaches_advance found plain)
  · exact stays_of_error (expect_of_ne found) (.refl cursor)

theorem identifier_stays (expected : Expectation) (cursor : Cursor) :
    (identifier expected).Stays cursor := by
  refine stays_next?_bind ?_
  split
  · next name head =>
      refine stays_position_bind (stays_advance_bind head rfl ?_)
      intro rest _
      exact stays_pure _ rest
  · exact stays_throw _ cursor

theorem newNode_stays (position : Position) (cursor : Cursor) :
    (newNode position).Stays cursor :=
  stays_of_ok (newNode_apply position cursor) ⟨[], rfl, by simp⟩

theorem build_stays (build : Node → α) (position : Position) (cursor : Cursor) :
    Stays (do return build (← newNode position)) cursor :=
  (newNode_stays position cursor).bind fun _ rest => stays_pure _ rest

theorem speculate_stays (stays : reader.Stays cursor) :
    (speculate reader).Stays cursor := by
  cases ran : reader cursor with
  | ok value rest =>
      rw [Stays, ran] at stays
      have tried : speculate reader cursor = .ok (some value) rest := by
        simp [speculate, ran]
      exact stays_of_ok tried stays
  | error expected rest =>
      have tried : speculate reader cursor = .ok none cursor := by
        simp [speculate, ran]
      exact stays_of_ok tried (.refl cursor)

section Loops

variable {operand : Reader α} {join? : Token.Kind → Option (α → α → Reader α)}

theorem chainFrom_stays (operandStays : ∀ cursor, operand.Stays cursor)
    (joins : ∀ kind join, join? kind = some join → kind.isDivider = false ∧
      ∀ left right cursor, (join left right).Stays cursor)
    (limit : Nat) (left : α) (cursor : Cursor) :
    (chainFrom operand join? limit left).Stays cursor := by
  induction limit generalizing left cursor with
  | zero => exact stays_pure left cursor
  | succ limit ih =>
      refine stays_next?_bind ?_
      split
      · exact stays_pure left cursor
      · next join found =>
          obtain ⟨sign, head, isJoin⟩ := Option.bind_eq_some_iff.mp found
          obtain ⟨plain, joinStays⟩ := joins sign join isJoin
          refine stays_advance_bind head plain ?_
          intro behind _
          refine (operandStays behind).bind ?_
          intro right reached
          refine (joinStays left right reached).bind ?_
          intro joined last
          exact ih joined last

theorem chain_stays (operandStays : ∀ cursor, operand.Stays cursor)
    (joins : ∀ kind join, join? kind = some join → kind.isDivider = false ∧
      ∀ left right cursor, (join left right).Stays cursor)
    (limit : Nat) (cursor : Cursor) :
    (chain limit operand join?).Stays cursor :=
  (operandStays cursor).bind fun first rest =>
    chainFrom_stays operandStays joins limit first rest

theorem commaList_stays (itemStays : ∀ cursor, operand.Stays cursor)
    (limit : Nat) (cursor : Cursor) :
    (commaList operand limit).Stays cursor := by
  induction limit generalizing cursor with
  | zero =>
      refine (itemStays cursor).bind ?_
      intro first rest
      exact stays_pure _ rest
  | succ limit ih =>
      refine (itemStays cursor).bind ?_
      intro first rest
      refine (accept_stays rfl rest).bind ?_
      intro isComma behind
      split
      · exact (ih behind).bind fun others last => stays_pure _ last
      · exact stays_pure _ behind

end Loops

theorem joinBy_stays (op : ArithOp) (left right : Expr) (cursor : Cursor) :
    (joinBy op left right).Stays cursor :=
  build_stays _ _ cursor

theorem sum_stays {factor : Reader Expr}
    (factorStays : ∀ cursor, factor.Stays cursor) (limit : Nat)
    (cursor : Cursor) : (sum limit factor).Stays cursor := by
  refine chain_stays (chain_stays factorStays ?_ limit) ?_ limit cursor
  · intro kind join isJoin
    unfold productJoin? at isJoin
    split at isJoin <;> cases isJoin <;> exact ⟨rfl, joinBy_stays _⟩
  · intro kind join isJoin
    unfold sumJoin? at isJoin
    split at isJoin <;> cases isJoin <;> exact ⟨rfl, joinBy_stays _⟩

section Parts

variable {expr : Reader Expr} (exprStays : ∀ cursor, expr.Stays cursor)

include exprStays

/-- What stands between brackets or parentheses. -/
theorem enclosed_stays {closing : Token.Kind} {expected : Expectation}
    (plain : closing.isDivider = false) (cursor : Cursor) :
    Stays (do
      let inner ← expr
      expect closing expected
      return inner) cursor := by
  refine (exprStays cursor).bind ?_
  intro inner reached
  exact (expect_stays plain reached).bind fun _ last => stays_pure _ last

theorem placeWith_stays (cursor : Cursor) : (placeWith expr).Stays cursor := by
  refine (identifier_stays _ cursor).bind ?_
  rintro ⟨name, position⟩ named
  refine (accept_stays rfl named).bind ?_
  intro isElement opened
  split
  · refine (exprStays opened).bind ?_
    intro index reached
    refine (expect_stays rfl reached).bind ?_
    intro _ closed
    exact build_stays _ _ closed
  · exact build_stays _ _ opened

theorem argumentsWith_stays (limit : Nat) (cursor : Cursor) :
    (argumentsWith limit expr).Stays cursor := by
  refine (accept_stays rfl cursor).bind ?_
  intro isClosed opened
  split
  · exact stays_pure _ opened
  · refine (commaList_stays exprStays limit opened).bind ?_
    intro args reached
    exact (expect_stays rfl reached).bind fun _ last => stays_pure _ last

theorem castOperand_stays (cursor : Cursor) :
    (castOperand expr).Stays cursor := by
  refine (accept_stays rfl cursor).bind ?_
  intro isParen opened
  split
  · exact enclosed_stays exprStays rfl opened
  · refine (accept_stays rfl opened).bind ?_
    intro isBracket behind
    split
    · exact enclosed_stays exprStays rfl behind
    · exact stays_throw _ behind

theorem cast_stays {kind : Token.Kind} (target : BaseType) (position : Position)
    {cursor : Cursor} (head : cursor.kinds.head? = some kind)
    (plain : kind.isDivider = false) :
    Stays (do
      advance
      let operand ← castOperand expr
      return Expr.cast (← newNode position) target operand) cursor := by
  refine stays_advance_bind head plain ?_
  intro behind _
  refine (castOperand_stays exprStays behind).bind ?_
  intro operand reached
  exact build_stays _ _ reached

theorem primary_stays (limit : Nat) (cursor : Cursor) :
    (primary limit expr).Stays cursor := by
  refine stays_position_bind (stays_next?_bind ?_)
  cases head : cursor.kinds.head? with
  | none => exact stays_throw _ cursor
  | some kind =>
      cases kind with
      | integer value =>
          refine stays_advance_bind head rfl ?_
          intro behind _
          exact build_stays _ _ behind
      | float value =>
          refine stays_advance_bind head rfl ?_
          intro behind _
          exact build_stays _ _ behind
      | identifier name =>
          refine stays_second?_bind ?_
          by_cases isCall : cursor.kinds.tail.head? = some (.symbol .openParen)
          · rw [if_pos isCall]
            refine stays_advance_bind head rfl ?_
            intro named nameEq
            rw [nameEq, List.tail_cons] at isCall
            refine stays_advance_bind isCall rfl ?_
            intro opened _
            refine (argumentsWith_stays exprStays limit opened).bind ?_
            intro args reached
            exact build_stays _ _ reached
          · rw [if_neg isCall]
            refine (placeWith_stays exprStays cursor).bind ?_
            intro place reached
            exact build_stays _ _ reached
      | keyword word =>
          cases word with
          | intWord => exact cast_stays exprStays .int _ head rfl
          | floatWord => exact cast_stays exprStays .float _ head rfl
          | _ => exact stays_throw _ cursor
      | symbol sign =>
          cases sign with
          | openParen =>
              refine stays_advance_bind head rfl ?_
              intro opened _
              exact enclosed_stays exprStays rfl opened
          | _ => exact stays_throw _ cursor
      | _ => exact stays_throw _ cursor

end Parts

theorem factor_stays (limit : Nat) (cursor : Cursor) :
    (factor limit).Stays cursor := by
  induction limit generalizing cursor with
  | zero => exact stays_throw _ cursor
  | succ limit ih =>
      have signed (op : SignOp) (position : Position) (cursor : Cursor) :
          Stays (do
            let operand ← factor limit
            return Expr.signed (← newNode position) op operand) cursor := by
        refine (ih cursor).bind ?_
        intro operand reached
        exact build_stays _ _ reached
      refine stays_position_bind ((accept_stays rfl cursor).bind ?_)
      intro isMinus behind
      split
      · exact signed .neg _ behind
      · refine (accept_stays rfl behind).bind ?_
        intro isPlus last
        split
        · exact signed .plus _ last
        · exact primary_stays (sum_stays ih limit) limit last

theorem expr_stays (cursor : Cursor) : expr.Stays cursor :=
  stays_remaining_bind (sum_stays (factor_stays _) _ cursor)

theorem place_stays (cursor : Cursor) : place.Stays cursor :=
  placeWith_stays expr_stays cursor

theorem arguments_stays (cursor : Cursor) : arguments.Stays cursor :=
  stays_remaining_bind (argumentsWith_stays expr_stays _ cursor)

theorem disjunction_stays {literal : Reader Condition}
    (literalStays : ∀ cursor, literal.Stays cursor) (limit : Nat)
    (cursor : Cursor) :
    (disjunction limit literal).Stays cursor := by
  refine chain_stays (chain_stays literalStays ?_ limit) ?_ limit cursor
  · intro kind join isJoin
    unfold andJoin? at isJoin
    split at isJoin <;> cases isJoin
    exact ⟨rfl, fun _ _ => stays_pure _⟩
  · intro kind join isJoin
    unfold orJoin? at isJoin
    split at isJoin <;> cases isJoin
    exact ⟨rfl, fun _ _ => stays_pure _⟩

theorem isDivider_of_relOp? {kind : Token.Kind} {op : RelOp}
    (isRelOp : relOp? kind = some op) : kind.isDivider = false := by
  unfold relOp? at isRelOp
  split at isRelOp <;> cases isRelOp <;> rfl

theorem relation_stays (cursor : Cursor) : relation.Stays cursor := by
  refine stays_position_bind ((expr_stays cursor).bind ?_)
  intro left reached
  refine stays_next?_bind ?_
  split
  · exact stays_throw _ reached
  · next op found =>
      obtain ⟨sign, head, isRelOp⟩ := Option.bind_eq_some_iff.mp found
      refine stays_advance_bind head (isDivider_of_relOp? isRelOp) ?_
      intro behind _
      refine (expr_stays behind).bind ?_
      intro right last
      refine stays_next?_bind ?_
      split
      · exact stays_throw _ last
      · exact stays_pure _ last

theorem group_stays {condition : Reader Condition}
    (conditionStays : ∀ cursor, condition.Stays cursor)
    (head : cursor.kinds.head? = some (.symbol .openParen)) :
    (group condition).Stays cursor := by
  refine stays_advance_bind head rfl ?_
  intro opened _
  refine (conditionStays opened).bind ?_
  intro inner reached
  refine (expect_stays rfl reached).bind ?_
  intro _ closed
  refine stays_next?_bind ?_
  split
  · exact stays_throw _ closed
  · exact stays_pure _ closed

theorem literal_stays (limit : Nat) (cursor : Cursor) :
    (literal limit).Stays cursor := by
  induction limit generalizing cursor with
  | zero => exact stays_throw _ cursor
  | succ limit ih =>
      refine stays_position_bind ((accept_stays rfl cursor).bind ?_)
      intro isNot behind
      split
      · exact (ih behind).bind fun _ last => stays_pure _ last
      · refine stays_next?_bind ?_
        split
        · next head =>
            refine (speculate_stays
              (group_stays (disjunction_stays ih limit) head)).bind ?_
            intro tried last
            cases tried with
            | some condition => exact stays_pure _ last
            | none => exact relation_stays last
        · exact relation_stays behind

theorem condition_stays (cursor : Cursor) : condition.Stays cursor :=
  stays_remaining_bind (disjunction_stays (literal_stays _) _ cursor)

end Reader

namespace Attempt

open Reader

/-- What stands between the parentheses of `read` and `write`. -/
theorem parenthesised_stays {α : Type} {item : Reader α}
    {opens closes : Expectation} (itemStays : ∀ cursor, item.Stays cursor)
    (build : α → Stmt) (cursor : Cursor) :
    Stays (do
      expect (.symbol .openParen) opens
      let held ← item
      expect (.symbol .closeParen) closes
      return build held) cursor := by
  refine (expect_stays rfl cursor).bind ?_
  intro _ opened
  refine (itemStays opened).bind ?_
  intro held reached
  exact (expect_stays rfl reached).bind fun _ last => stays_pure _ last

theorem printText_stays (position : Position) (cursor : Cursor) :
    (printText position).Stays cursor := by
  refine (expect_stays rfl cursor).bind ?_
  intro _ opened
  refine stays_next?_bind ?_
  split
  · next text head =>
      refine stays_advance_bind head rfl ?_
      intro reached _
      exact (expect_stays rfl reached).bind fun _ last => stays_pure _ last
  · exact stays_throw _ opened

theorem callOrAssignment_stays {position : Position} {name : String}
    {cursor : Cursor} (head : cursor.kinds.head? = some (.identifier name)) :
    (callOrAssignment position name).Stays cursor := by
  refine stays_second?_bind ?_
  by_cases isCall : cursor.kinds.tail.head? = some (.symbol .openParen)
  · rw [if_pos isCall]
    refine stays_advance_bind head rfl ?_
    intro named nameEq
    rw [nameEq, List.tail_cons] at isCall
    refine stays_advance_bind isCall rfl ?_
    intro opened _
    exact (arguments_stays opened).bind fun _ last => stays_pure _ last
  · rw [if_neg isCall]
    refine (place_stays cursor).bind ?_
    intro target reached
    refine (expect_stays rfl reached).bind ?_
    intro _ behind
    exact (expr_stays behind).bind fun _ last => stays_pure _ last

/-- The attempt stops before the next divider and reports nothing, and it does
the same whatever has been reported before. -/
def Quiet {α : Type} (attempt : Attempt α) (cursor : Cursor) : Prop :=
  (∃ value rest, cursor.Reaches rest ∧ ∀ errors recovering,
    attempt ⟨cursor, errors, recovering⟩ = .ok value ⟨rest, errors,
      recovering⟩) ∨
  ∃ expected rest, cursor.Reaches rest ∧ ∀ errors recovering,
    attempt ⟨cursor, errors, recovering⟩ = .error expected ⟨rest, errors,
      recovering⟩

section Quiet

variable {α β : Type} {attempt : Attempt α} {next : α → Attempt β}
  {cursor : Cursor}

theorem quiet_pure (value : α) (cursor : Cursor) : Quiet (pure value) cursor :=
  .inl ⟨value, cursor, .refl cursor, fun _ _ => rfl⟩

theorem quiet_throw (expected : Expectation) (cursor : Cursor) :
    Quiet (throw expected : Attempt α) cursor :=
  .inr ⟨expected, cursor, .refl cursor, fun _ _ => rfl⟩

theorem quiet_lift {reader : Reader α} (stays : reader.Stays cursor) :
    Quiet (liftM reader) cursor := by
  cases ran : reader cursor with
  | ok value rest =>
      rw [Stays, ran] at stays
      exact .inl ⟨value, rest, stays, fun _ _ => lift_apply_of_ok ran⟩
  | error expected rest =>
      rw [Stays, ran] at stays
      exact .inr ⟨expected, rest, stays, fun _ _ => lift_apply_of_error ran⟩

theorem quiet_bind_of_ok {value : α} {rest : Cursor}
    (reaches : cursor.Reaches rest)
    (ran : ∀ errors recovering,
      attempt ⟨cursor, errors, recovering⟩ =
        .ok value ⟨rest, errors, recovering⟩)
    (further : Quiet (next value) rest) : Quiet (attempt >>= next) cursor := by
  rcases further with
    ⟨result, last, onward, nextRan⟩ | ⟨expected, last, onward, nextRan⟩
  · refine .inl ⟨result, last, reaches.trans onward, ?_⟩
    intro errors recovering
    rw [bind_apply_of_ok (ran errors recovering), nextRan]
  · refine .inr ⟨expected, last, reaches.trans onward, ?_⟩
    intro errors recovering
    rw [bind_apply_of_ok (ran errors recovering), nextRan]

theorem Quiet.bind (quiet : Quiet attempt cursor)
    (further : ∀ value rest, cursor.Reaches rest → Quiet (next value) rest) :
    Quiet (attempt >>= next) cursor := by
  rcases quiet with ⟨value, rest, reaches, ran⟩ | ⟨expected, rest, reaches, ran⟩
  · exact quiet_bind_of_ok reaches ran (further value rest reaches)
  · refine .inr ⟨expected, rest, reaches, ?_⟩
    intro errors recovering
    simp [Bind.bind, EStateM.bind, ran]

theorem quiet_lift_bind {reader : Reader α} (stays : reader.Stays cursor)
    (further : ∀ value rest, cursor.Reaches rest → Quiet (next value) rest) :
    Quiet (liftM reader >>= next) cursor :=
  (quiet_lift stays).bind further

/-- What looks at the tokens without passing over one. -/
theorem quiet_look_bind {reader : Reader α} {value : α}
    (ran : reader cursor = .ok value cursor)
    (further : Quiet (next value) cursor) :
    Quiet (liftM reader >>= next) cursor :=
  quiet_bind_of_ok (.refl cursor) (fun _ _ => lift_apply_of_ok ran) further

theorem quiet_advance_bind {next : Unit → Attempt β} {kind : Token.Kind}
    (head : cursor.kinds.head? = some kind) (plain : kind.isDivider = false)
    (further : ∀ rest : Cursor, cursor.Reaches rest → Quiet (next ()) rest) :
    Quiet (liftM Reader.advance >>= next) cursor := by
  have reaches := Cursor.reaches_advance head plain
  exact quiet_bind_of_ok reaches (fun _ _ =>
    lift_apply_of_ok (Reader.advance_apply cursor))
    (further _ reaches)

end Quiet

theorem statementWithin_quiet (limit : Nat) {cursor : Cursor}
    (blockless : cursor.Blockless) : Quiet (statementWithin limit) cursor := by
  induction limit generalizing cursor with
  | zero => exact quiet_throw _ cursor
  | succ limit ih =>
      refine quiet_look_bind (Reader.position_apply cursor) ?_
      refine quiet_look_bind (Reader.next?_apply cursor) ?_
      split
      · next head =>
          refine quiet_advance_bind head rfl ?_
          intro opened toOpened
          refine quiet_lift_bind (condition_stays opened) ?_
          intro condition tested toTested
          refine quiet_lift_bind (expect_stays rfl tested) ?_
          intro _ behind toBehind
          have ahead :=
            (blockless.of_reaches toOpened).of_reaches (toTested.trans toBehind)
          refine (ih ahead).bind ?_
          intro thenBranch reached toReached
          refine quiet_lift_bind (accept_stays rfl reached) ?_
          intro hasElse last toLast
          split
          · refine (ih (ahead.of_reaches (toReached.trans toLast))).bind ?_
            intro elseBranch final _
            exact quiet_pure _ final
          · exact quiet_pure _ last
      · next head =>
          refine quiet_advance_bind head rfl ?_
          intro opened toOpened
          refine quiet_lift_bind (condition_stays opened) ?_
          intro condition tested toTested
          refine quiet_lift_bind (expect_stays rfl tested) ?_
          intro _ behind toBehind
          refine (ih
            ((blockless.of_reaches toOpened).of_reaches
              (toTested.trans toBehind))).bind ?_
          intro body last _
          exact quiet_pure _ last
      · next head => exact absurd head (blockless cursor (.refl cursor))
      · next head =>
          refine quiet_advance_bind head rfl ?_
          intro behind _
          exact quiet_pure _ behind
      · next head =>
          refine quiet_advance_bind head rfl ?_
          intro behind _
          exact quiet_pure _ behind
      · next head =>
          refine quiet_advance_bind head rfl ?_
          intro behind _
          refine quiet_lift_bind (expr_stays behind) ?_
          intro value last _
          exact quiet_pure _ last
      · next head =>
          refine quiet_advance_bind head rfl ?_
          intro behind _
          exact quiet_lift (parenthesised_stays place_stays _ behind)
      · next head =>
          refine quiet_advance_bind head rfl ?_
          intro behind _
          exact quiet_lift (parenthesised_stays expr_stays _ behind)
      · next head =>
          refine quiet_advance_bind head rfl ?_
          intro behind _
          exact quiet_lift (printText_stays _ behind)
      · next name head => exact quiet_lift (callOrAssignment_stays head)
      · exact quiet_throw _ cursor

/-- Where no block can start, a statement is read quietly. -/
theorem statement_quiet {cursor : Cursor} (blockless : cursor.Blockless) :
    Quiet statement cursor :=
  quiet_look_bind (Reader.remaining_apply cursor)
    (statementWithin_quiet _ blockless)

end Attempt

end PL0
