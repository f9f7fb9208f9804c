import PL0.Proofs.Walk.Agreement

/-!
# Walks over expressions and conditions

A walk over an expression or a condition agrees with the reader if it has more
fuel than there are tokens left.  Every loop and every recursion takes a token
before it goes on, so the fuel that is left always suffices.
-/

namespace PL0

namespace Input

variable {input : Input} {walker : Walker} {α ω : Type} {fuel limit : Nat}

/-- The walk and the reader do the same. -/
abbrev Simulates {m : Type → Type} [MonadLiftT m Attempt] (input : Input)
    (walker : Walker) (walk : Walk α) (reader : m α) : Prop :=
  input.Agrees walker walk reader fun _ _ => True

section Chains

variable {operand : Walk α} {op? : Token.Kind → Option ω} {join : ω → α →
  α → Walk α}
  {reader : Reader α} {join? : Token.Kind → Option (α → α → Reader α)}
  {readerJoin : ω → α → α → Reader α}

theorem chainFrom_agrees
    (joins : ∀ kind, join? kind = (op? kind).map readerJoin)
    (joinAgrees : ∀ op left right walker,
      input.Simulates walker (join op left right) (readerJoin op left right))
    (covered : input.left walker ≤ limit) (fueled : input.left walker < fuel)
    (operands : ∀ rest : Walker, walker.index ≤ rest.index →
      input.Simulates rest operand reader)
    (left : α) :
    input.Simulates walker (Walk.chainFrom operand op? join fuel left)
      (Reader.chainFrom reader join? limit left) := by
  induction fuel generalizing limit walker left with
  | zero => exact absurd fueled (Nat.not_lt_zero _)
  | succ fuel ih =>
      refine agrees_of_limit (fun limit =>
        Reader.chainFrom reader join? limit left) covered ?_ ?_
      · rintro ⟨⟨_, stop, nextId⟩, errors, recovering⟩ rfl
        rfl
      intro smaller enough
      rw [Walk.chainFrom, Reader.chainFrom]
      refine next?_agrees.bind ?_
      rintro _ _ - ⟨rfl, rfl⟩
      cases head : input.head? walker with
      | none => exact agrees_pure trivial
      | some kind =>
          rw [Option.bind_some, Option.bind_some, joins]
          cases op? kind with
          | none => exact agrees_pure trivial
          | some op =>
              refine (advance_agrees head).bind ?_
              intro _ passed _ onward
              refine (operands passed (Nat.le_of_lt onward)).bind ?_
              intro right after afterReaches _
              refine (joinAgrees op left right after).bind ?_
              intro joined rest restReaches _
              have shorter := restReaches.contains.left_lt
                (restReaches.after (afterReaches.after onward))
              refine ih (by omega) (by omega) ?_ joined
              intro later onwards
              exact operands later (Nat.le_trans (Nat.le_of_lt
                (restReaches.after (afterReaches.after onward))) onwards)

theorem chain_agrees (joins : ∀ kind, join? kind = (op? kind).map readerJoin)
    (joinAgrees : ∀ op left right walker,
      input.Simulates walker (join op left right) (readerJoin op left right))
    (covered : input.left walker ≤ limit) (fueled : input.left walker < fuel)
    (operands : ∀ rest : Walker, walker.index ≤ rest.index →
      input.Simulates rest operand reader) :
    input.Simulates walker (Walk.chain fuel operand op? join)
      (Reader.chain limit reader join?) := by
  refine (operands walker (Nat.le_refl _)).bind ?_
  intro first rest reaches _
  have fewer := reaches.left_le
  refine chainFrom_agrees joins joinAgrees (Nat.le_trans fewer covered)
    (Nat.lt_of_le_of_lt fewer fueled) ?_ first
  intro later onwards
  exact operands later (Nat.le_trans reaches.index_le onwards)

end Chains

theorem accept_apply_atEnd {kind : Token.Kind}
    (contains : input.Contains walker) (atEnd : input.left walker = 0) :
    Walk.accept kind walker = .ok false walker := by
  have none : input.head? walker = none := by
    rw [← next?_state, state_of_left_eq_zero atEnd]
    rfl
  unfold Walk.accept
  rw [bind_apply_of_ok (next?_apply contains), none]
  rfl

theorem commaList_agrees {item : Walk α} {reader : Reader α}
    (covered : input.left walker ≤ limit) (fueled : input.left walker < fuel)
    (items : ∀ rest : Walker, walker.index ≤ rest.index →
      input.Simulates rest item reader) :
    input.Simulates walker (Walk.commaList item fuel)
      (Reader.commaList reader limit) := by
  induction fuel generalizing limit walker with
  | zero => exact absurd fueled (Nat.not_lt_zero _)
  | succ fuel ih =>
      cases limit with
      | zero =>
          rw [Walk.commaList, Reader.commaList]
          refine (items walker (Nat.le_refl _)).bind ?_
          intro first rest reaches _ contains
          have atEnd : input.left rest = 0 :=
            Nat.le_zero.mp (Nat.le_trans reaches.left_le covered)
          rw [bind_apply_of_ok (accept_apply_atEnd contains atEnd)]
          exact ⟨rfl, contains.reaches, trivial⟩
      | succ limit =>
          rw [Walk.commaList, Reader.commaList]
          refine (items walker (Nat.le_refl _)).bind ?_
          intro first rest reaches _
          refine accept_agrees.bind ?_
          intro found after afterReaches onward
          cases found with
          | false => exact agrees_pure trivial
          | true =>
              have shorter := afterReaches.contains.left_lt onward
              have fewer := reaches.left_le
              have more : walker.index ≤ after.index :=
                Nat.le_trans reaches.index_le afterReaches.index_le
              refine (ih (by omega) (by omega) ?_).bind ?_
              · intro later onwards
                exact items later (Nat.le_trans more onwards)
              · intro others _ _ _
                exact agrees_pure trivial

theorem sumJoin?_eq (kind : Token.Kind) :
    Reader.sumJoin? kind = (Walk.sumOp? kind).map Reader.joinBy := by
  cases kind with
  | symbol sign => cases sign <;> rfl
  | _ => rfl

theorem productJoin?_eq (kind : Token.Kind) :
    Reader.productJoin? kind = (Walk.productOp? kind).map Reader.joinBy := by
  cases kind with
  | symbol sign => cases sign <;> rfl
  | _ => rfl

theorem joinBy_agrees (op : ArithOp) (left right : Expr) (walker : Walker) :
    input.Simulates walker (Walk.joinBy op left right)
      (Reader.joinBy op left right) := by
  refine (newNode_agrees left.node.position).bind ?_
  intro node rest _ _
  exact agrees_pure trivial

theorem sum_agrees {walkFactor : Walk Expr} {factor : Reader Expr}
    (covered : input.left walker ≤ limit) (fueled : input.left walker < fuel)
    (factors : ∀ rest : Walker, walker.index ≤ rest.index →
      input.Simulates rest walkFactor factor) :
    input.Simulates walker (Walk.sum fuel walkFactor)
      (Reader.sum limit factor) := by
  refine chain_agrees sumJoin?_eq joinBy_agrees covered fueled ?_
  intro rest onwards
  have fewer : input.left rest ≤ input.left walker := left_le onwards
  refine chain_agrees productJoin?_eq joinBy_agrees (Nat.le_trans fewer covered)
    (Nat.lt_of_le_of_lt fewer fueled) ?_
  intro later further
  exact factors later (Nat.le_trans onwards further)

section Parts

variable {expr : Walk Expr} {reader : Reader Expr}

theorem placeWith_agrees
    (exprs : ∀ rest : Walker, walker.index < rest.index →
      input.Simulates rest expr reader) :
    input.Agrees walker (Walk.placeWith expr) (Reader.placeWith reader)
      fun _ rest => walker.index < rest.index := by
  refine identifier_agrees.bind ?_
  rintro ⟨name, position⟩ named namedReaches onward
  refine accept_agrees.bind ?_
  intro found opened openedReaches _
  have openedOnward := openedReaches.after onward
  cases found with
  | false =>
      refine (newNode_agrees position).bind ?_
      intro node rest reaches _
      exact agrees_pure (reaches.after openedOnward)
  | true =>
      refine (exprs opened openedOnward).bind ?_
      intro index indexed indexedReaches _
      refine expect_agrees.bind ?_
      intro _ closed closedReaches _
      refine (newNode_agrees position).bind ?_
      intro node rest reaches _
      exact agrees_pure
        (reaches.after
          (closedReaches.after (indexedReaches.after openedOnward)))

theorem argumentsWith_agrees (covered : input.left walker ≤ limit)
    (fueled : input.left walker < fuel)
    (exprs : ∀ rest : Walker, walker.index ≤ rest.index →
      input.Simulates rest expr reader) :
    input.Simulates walker (Walk.argumentsWith fuel expr)
      (Reader.argumentsWith limit reader) := by
  refine accept_agrees.bind ?_
  intro found rest reaches _
  cases found with
  | true => exact agrees_pure trivial
  | false =>
      have fewer := reaches.left_le
      refine (commaList_agrees (Nat.le_trans fewer covered)
        (Nat.lt_of_le_of_lt fewer fueled) ?_).bind ?_
      · intro later onwards
        exact exprs later (Nat.le_trans reaches.index_le onwards)
      · intro args listed _ _
        refine expect_agrees.bind ?_
        intro _ closed _ _
        exact agrees_pure trivial

theorem castOperand_agrees
    (exprs : ∀ rest : Walker, walker.index ≤ rest.index →
      input.Simulates rest expr reader) :
    input.Simulates walker (Walk.castOperand expr)
      (Reader.castOperand reader) := by
  refine accept_agrees.bind ?_
  intro found rest reaches _
  cases found with
  | true =>
      refine (exprs rest reaches.index_le).bind ?_
      intro operand inner _ _
      refine expect_agrees.bind ?_
      intro _ closed _ _
      exact agrees_pure trivial
  | false =>
      refine accept_agrees.bind ?_
      intro bracket opened openedReaches _
      cases bracket with
      | true =>
          refine (exprs opened
            (Nat.le_trans reaches.index_le openedReaches.index_le)).bind ?_
          intro operand inner _ _
          refine expect_agrees.bind ?_
          intro _ closed _ _
          exact agrees_pure trivial
      | false => exact refuse_agrees

theorem agrees_ifSecond {kind other : Token.Kind} {demand : α → Walker → Prop}
    {yes no : Walk α} {readYes readNo : Reader α}
    (head : input.head? walker = some kind)
    (plain : other ≠ .endOfInput)
    (ifYes : input.Agrees walker yes readYes demand)
    (ifNo : input.Agrees walker no readNo demand) :
    input.Agrees walker (do if (← Walk.second?) = some other then yes else no)
      (do if (← Reader.second?) = some other then readYes else readNo) demand := by
  refine agrees_second?_bind ?_
  intro seen read same
  have sameHere := same kind head other plain
  by_cases found : seen = some other
  · rw [if_pos found, if_pos (sameHere.mp found)]
    exact ifYes
  · rw [if_neg found, if_neg fun isRead => found (sameHere.mpr isRead)]
    exact ifNo

theorem primary_agrees (covered : input.left walker ≤ limit + 1)
    (fueled : input.left walker < fuel + 1)
    (exprs : ∀ rest : Walker, walker.index < rest.index →
      input.Simulates rest expr reader) :
    input.Simulates walker (Walk.primary fuel expr)
      (Reader.primary limit reader) := by
  refine position_agrees.bind ?_
  rintro position _ - rfl
  refine next?_agrees.bind ?_
  rintro _ _ - ⟨rfl, rfl⟩
  cases head : input.head? walker with
  | none => exact refuse_agrees
  | some kind =>
      -- Whatever an expression is read for, a token has been passed before.
      have inside (rest : Walker) (onward : walker.index < rest.index)
          (later : Walker)
          (onwards : rest.index ≤ later.index) : input.Simulates later expr reader :=
        exprs later (Nat.lt_of_lt_of_le onward onwards)
      have build (make : Node → Expr) (rest : Walker) :
          input.Simulates rest (do return make (← Walk.newNode position))
            (do return make (← Reader.newNode position)) := by
        refine (newNode_agrees position).bind ?_
        intro node _ _ _
        exact agrees_pure trivial
      cases kind with
      | integer value =>
          refine (advance_agrees head).bind ?_
          intro _ rest _ _
          exact build (.int · value) rest
      | float value =>
          refine (advance_agrees head).bind ?_
          intro _ rest _ _
          exact build (.float · value) rest
      | identifier name =>
          refine agrees_ifSecond head (by simp) ?_ ?_
          · refine (advance_agrees head).bind ?_
            intro _ named namedReaches onward
            refine advance_simulates.bind ?_
            intro _ opened openedReaches _
            have passed := openedReaches.after onward
            have shorter := openedReaches.contains.left_lt passed
            refine (argumentsWith_agrees (by omega) (by omega)
              (inside opened passed)).bind ?_
            intro args rest _ _
            exact build (.call · name args) rest
          · refine (placeWith_agrees exprs).bind ?_
            intro place rest _ _
            exact build (.valueOf · place) rest
      | keyword word =>
          cases word with
          | intWord =>
              refine (advance_agrees head).bind ?_
              intro _ rest _ onward
              refine (castOperand_agrees (inside rest onward)).bind ?_
              intro operand after _ _
              exact build (.cast · .int operand) after
          | floatWord =>
              refine (advance_agrees head).bind ?_
              intro _ rest _ onward
              refine (castOperand_agrees (inside rest onward)).bind ?_
              intro operand after _ _
              exact build (.cast · .float operand) after
          | _ => exact refuse_agrees
      | symbol sign =>
          cases sign with
          | openParen =>
              refine (advance_agrees head).bind ?_
              intro _ rest _ onward
              refine (exprs rest onward).bind ?_
              intro inner after _ _
              refine expect_agrees.bind ?_
              intro _ closed _ _
              exact agrees_pure trivial
          | _ => exact refuse_agrees
      | _ => exact refuse_agrees

end Parts

theorem factor_agrees (covered : input.left walker ≤ limit)
    (fueled : input.left walker < fuel) :
    input.Simulates walker (Walk.factor fuel) (Reader.factor limit) := by
  induction fuel generalizing limit walker with
  | zero => exact absurd fueled (Nat.not_lt_zero _)
  | succ fuel ih =>
      refine agrees_of_limit Reader.factor covered ?_ ?_
      · rintro ⟨⟨_, stop, nextId⟩, errors, recovering⟩ rfl
        rfl
      intro smaller enough
      -- A factor after a token fits into what is left of the bound and of the
      -- fuel.
      have inside (rest : Walker) (onward : walker.index < rest.index) :
          input.Simulates rest (Walk.factor fuel) (Reader.factor smaller) := by
        intro contains
        have shorter := contains.left_lt onward
        exact ih (by omega) (by omega) contains
      rw [Walk.factor, Reader.factor]
      refine position_agrees.bind ?_
      rintro position _ - rfl
      refine accept_agrees.bind ?_
      intro minus signed signedReaches onward
      cases minus with
      | true =>
          refine (inside signed onward).bind ?_
          intro operand rest _ _
          refine (newNode_agrees position).bind ?_
          intro node _ _ _
          exact agrees_pure trivial
      | false =>
          refine accept_agrees.bind ?_
          intro plus added addedReaches onwards
          cases plus with
          | true =>
              refine (inside added ?_).bind ?_
              · exact Nat.lt_of_le_of_lt signedReaches.index_le onwards
              · intro operand rest _ _
                refine (newNode_agrees position).bind ?_
                intro node _ _ _
                exact agrees_pure trivial
          | false =>
              have fewer :=
                Nat.le_trans addedReaches.left_le signedReaches.left_le
              refine primary_agrees (by omega) (by omega) ?_
              intro rest passed contains
              have shorter := contains.left_lt passed
              refine sum_agrees (by omega) (by omega) ?_ contains
              intro later further
              refine inside later ?_
              have first := signedReaches.index_le
              have second := addedReaches.index_le
              omega

theorem expr_agrees (fueled : input.left walker < fuel) :
    input.Simulates walker (Walk.expr fuel) Reader.expr := by
  refine agrees_read_bind (remaining_state walker) ?_
  refine sum_agrees (Nat.le_refl _) fueled ?_
  intro rest onwards
  have fewer : input.left rest ≤ input.left walker := left_le onwards
  exact factor_agrees fewer (Nat.lt_of_le_of_lt fewer fueled)

theorem place_agrees (fueled : input.left walker < fuel) :
    input.Agrees walker (Walk.place fuel) Reader.place
      fun _ rest => walker.index < rest.index := by
  refine placeWith_agrees ?_
  intro rest onward
  have fewer : input.left rest ≤ input.left walker :=
    left_le (Nat.le_of_lt onward)
  exact expr_agrees (Nat.lt_of_le_of_lt fewer fueled)

theorem arguments_agrees (fueled : input.left walker < fuel) :
    input.Simulates walker (Walk.argumentsWith fuel (Walk.expr fuel))
      Reader.arguments := by
  refine agrees_read_bind (remaining_state walker) ?_
  refine argumentsWith_agrees (Nat.le_refl _) fueled ?_
  intro rest onwards
  have fewer : input.left rest ≤ input.left walker := left_le onwards
  exact expr_agrees (Nat.lt_of_le_of_lt fewer fueled)

theorem orJoin?_eq (kind : Token.Kind) :
    Reader.orJoin? kind = (Walk.orOp? kind).map Reader.connect := by
  cases kind with
  | keyword word => cases word <;> rfl
  | _ => rfl

theorem andJoin?_eq (kind : Token.Kind) :
    Reader.andJoin? kind = (Walk.andOp? kind).map Reader.connect := by
  cases kind with
  | keyword word => cases word <;> rfl
  | _ => rfl

theorem connect_agrees (op : LogicOp) (left right : Condition)
    (walker : Walker) :
    input.Simulates walker (Walk.connect op left right)
      (Reader.connect op left right) :=
  agrees_pure trivial

theorem disjunction_agrees {walkLiteral : Walk Condition}
    {literal : Reader Condition} (covered : input.left walker ≤ limit)
    (fueled : input.left walker < fuel)
    (literals : ∀ rest : Walker, walker.index ≤ rest.index →
      input.Simulates rest walkLiteral literal) :
    input.Simulates walker (Walk.disjunction fuel walkLiteral)
      (Reader.disjunction limit literal) := by
  refine chain_agrees orJoin?_eq connect_agrees covered fueled ?_
  intro rest onwards
  have fewer : input.left rest ≤ input.left walker := left_le onwards
  refine chain_agrees andJoin?_eq connect_agrees (Nat.le_trans fewer covered)
    (Nat.lt_of_le_of_lt fewer fueled) ?_
  intro later further
  exact literals later (Nat.le_trans onwards further)

theorem relation_agrees (fueled : input.left walker < fuel) :
    input.Simulates walker (Walk.relation fuel) Reader.relation := by
  refine position_agrees.bind ?_
  rintro position _ - rfl
  refine (expr_agrees fueled).bind ?_
  intro left compared comparedReaches _
  refine next?_agrees.bind ?_
  rintro _ _ - ⟨rfl, rfl⟩
  cases op : (input.head? compared).bind Reader.relOp? with
  | none => exact refuse_agrees
  | some op =>
      refine advance_simulates.bind ?_
      intro _ passed passedReaches _
      have fewer := Nat.le_trans passedReaches.left_le comparedReaches.left_le
      refine (expr_agrees (Nat.lt_of_le_of_lt fewer fueled)).bind ?_
      intro right rest _ _
      refine next?_agrees.bind ?_
      rintro _ _ - ⟨rfl, rfl⟩
      split
      · exact refuse_agrees
      · exact agrees_pure trivial

theorem group_agrees {kind : Token.Kind} {condition : Walk Condition}
    {reader : Reader Condition} (head : input.head? walker = some kind)
    (conditions : ∀ rest : Walker, walker.index < rest.index →
      input.Simulates rest condition reader) :
    input.Simulates walker (Walk.group condition) (Reader.group reader) := by
  refine (advance_agrees head).bind ?_
  intro _ opened _ onward
  refine (conditions opened onward).bind ?_
  intro inner read _ _
  refine expect_agrees.bind ?_
  intro _ closed _ _
  refine next?_agrees.bind ?_
  rintro _ _ - ⟨rfl, rfl⟩
  split
  · exact refuse_agrees
  · exact agrees_pure trivial

theorem literal_agrees (covered : input.left walker ≤ limit)
    (fueled : input.left walker < fuel) :
    input.Simulates walker (Walk.literal fuel) (Reader.literal limit) := by
  induction fuel generalizing limit walker with
  | zero => exact absurd fueled (Nat.not_lt_zero _)
  | succ fuel ih =>
      refine agrees_of_limit Reader.literal covered ?_ ?_
      · rintro ⟨⟨_, stop, nextId⟩, errors, recovering⟩ rfl
        rfl
      intro smaller enough
      have inside (rest : Walker) (onward : walker.index < rest.index) :
          input.Simulates rest (Walk.literal fuel)
            (Reader.literal smaller) := by
        intro contains
        have shorter := contains.left_lt onward
        exact ih (by omega) (by omega) contains
      rw [Walk.literal, Reader.literal]
      refine position_agrees.bind ?_
      rintro position _ - rfl
      refine accept_agrees.bind ?_
      intro negated rest reaches onward
      have fewer := reaches.left_le
      cases negated with
      | true =>
          refine (inside rest onward).bind ?_
          intro operand _ _ _
          exact agrees_pure trivial
      | false =>
          refine next?_agrees.bind ?_
          rintro _ _ - ⟨rfl, rfl⟩
          split
          · next head =>
              refine (group_agrees head ?_).speculate.bind ?_
              · intro opened passed contains
                have onwards := Nat.lt_of_le_of_lt reaches.index_le passed
                have shorter := contains.left_lt onwards
                refine disjunction_agrees (by omega) (by omega) ?_ contains
                intro later further
                exact inside later (Nat.lt_of_lt_of_le onwards further)
              · intro grouped after afterReaches _
                cases grouped with
                | some condition => exact agrees_pure trivial
                | none =>
                    have still := afterReaches.left_le
                    exact relation_agrees (by omega)
          · exact relation_agrees (by omega)

theorem condition_agrees (fueled : input.left walker < fuel) :
    input.Simulates walker (Walk.condition fuel) Reader.condition := by
  refine agrees_read_bind (remaining_state walker) ?_
  refine disjunction_agrees (Nat.le_refl _) fueled ?_
  intro rest onwards
  have fewer : input.left rest ≤ input.left walker := left_le onwards
  exact literal_agrees fewer (Nat.lt_of_le_of_lt fewer fueled)

end Input

end PL0
