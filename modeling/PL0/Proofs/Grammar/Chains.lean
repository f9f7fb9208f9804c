import PL0.Proofs.Grammar.Reading

/-!
# Reading chains and lists

Operands with operators between them are read one after the other and joined
from the left.  The grammar builds the same chains from the left, so a chain
that is derived can be followed operand by operand while the loop of the
reader goes around.
-/

namespace PL0

open Grammar

/-- What a reader passes over is a word of the category, and stands for what
it returns. -/
def Sound {α β : Type} (reader : Reader α) (erase : α → β)
    (category : Category β) : Prop :=
  ∀ cursor, Ensures reader cursor fun value after =>
    ∃ word, cursor.kinds = word ++ after.kinds ∧ category word (erase value)

/-- The first token is none of those that would continue what was read
before. -/
def Free (continues : Token.Kind → Bool) (rest : Word) : Prop :=
  ∀ kind, rest.head? = some kind → continues kind = false

@[simp]
theorem free_nil (continues : Token.Kind → Bool) : Free continues [] := by
  simp [Free]

@[simp]
theorem free_cons (continues : Token.Kind → Bool) (kind : Token.Kind)
    (rest : Word) : Free continues (kind :: rest) ↔ continues kind = false := by
  simp [Free]

theorem Free.cons {continues : Token.Kind → Bool} {kind : Token.Kind}
    {rest : Word} (apart : continues kind = false) :
    Free continues (kind :: rest) := by
  rwa [free_cons]

/-- The reader reads every word of the category up to a length, unless the
next token would continue it. -/
def Complete {α β : Type} (reader : Reader α) (erase : α → β)
    (category : Category β) (bound : Nat) (continues : Token.Kind → Bool) :
    Prop :=
  ∀ (word : Word) (tree : β) (rest : Word) (cursor : Cursor),
    category word tree →
    word.length ≤ bound → Free continues rest → cursor.kinds = word ++ rest →
    Gives reader cursor fun value after =>
      erase value = tree ∧ after.kinds = rest

/-- Every word of the category has a first token, which is one of those
given. -/
def Starts {β : Type} (starts : Token.Kind → Bool) (category : Category β) :
    Prop :=
  ∀ word tree, category word tree → ∃ kind others, word = kind :: others ∧
    starts kind = true

theorem Starts.head?_ne {β : Type} {starts : Token.Kind → Bool}
    {category : Category β} (each : Starts starts category) {word : Word}
    {tree : β} (derived : category word tree)
    {kind : Token.Kind} (isNoStart : starts kind = false) (rest : Word) :
    (word ++ rest).head? ≠ some kind := by
  obtain ⟨first, others, rfl, isStart⟩ := each word tree derived
  rintro ⟨⟩
  rw [isStart] at isNoStart
  cases isNoStart

section Chains

variable {α β : Type} {operand : Reader α} {erase : α → β}
  {category : Category β} {join? : Token.Kind → Option (α → α → Reader α)}
  {combine? : Token.Kind → Option (β → β → β)}

/-- The operators of a reader are those of the grammar, and join what was read
in the same way. -/
structure Joins (join? : Token.Kind → Option (α → α → Reader α)) (erase : α → β)
    (combine? : Token.Kind → Option (β → β → β)) : Prop where
  none_iff : ∀ kind, join? kind = none ↔ combine? kind = none
  gives : ∀ kind join combine, join? kind = some join →
    combine? kind = some combine →
    ∀ left right cursor, Gives (join left right) cursor fun value after =>
      erase value = combine (erase left) (erase right) ∧
        after.kinds = cursor.kinds

theorem Gives.ensures {ε σ γ : Type} {reader : EStateM ε σ γ} {state : σ}
    {demand : γ → σ → Prop} (gives : Gives reader state demand) :
    Ensures reader state demand := by
  obtain ⟨value, rest, ran, meets⟩ := gives
  intro other otherRest otherRan
  rw [ran] at otherRan
  cases otherRan
  exact meets

theorem Joins.exists_combine (joins : Joins join? erase combine?)
    {kind : Token.Kind} {join : α → α → Reader α}
    (isJoin : join? kind = some join) :
    ∃ combine, combine? kind = some combine := by
  rw [← Option.ne_none_iff_exists', ne_eq, ← joins.none_iff, isJoin]
  simp

theorem Joins.exists_join (joins : Joins join? erase combine?)
    {kind : Token.Kind} {combine : β → β → β}
    (isCombine : combine? kind = some combine) :
    ∃ join, join? kind = some join := by
  rw [← Option.ne_none_iff_exists', ne_eq, joins.none_iff, isCombine]
  simp

theorem Starts.chain {starts : Token.Kind → Bool}
    (each : Starts starts category) :
    Starts starts (Chain category combine?) := by
  intro word tree chained
  induction chained with
  | single derived => exact each _ _ derived
  | joined before isCombine derived ih =>
      obtain ⟨kind, others, rfl, isStart⟩ := ih
      exact ⟨kind, _, rfl, isStart⟩

theorem chainFrom_ensures (operandSound : Sound operand erase category)
    (joins : Joins join? erase combine?) (limit : Nat) (left : α)
    (cursor : Cursor)
    (before : Word) (chained : Chain category combine? before (erase left)) :
    Ensures (Reader.chainFrom operand join? limit left) cursor
      fun value after =>
      ∃ word, cursor.kinds = word ++ after.kinds ∧
        Chain category combine? (before ++ word) (erase value) := by
  induction limit generalizing left cursor before with
  | zero => exact ensures_pure ⟨[], rfl, by simpa using chained⟩
  | succ limit ih =>
      refine ensures_bind_of_ok (Reader.next?_apply cursor) ?_
      cases found : cursor.kinds.head?.bind join? with
      | none => exact ensures_pure ⟨[], rfl, by simpa using chained⟩
      | some join =>
          obtain ⟨sign, isHead, isJoin⟩ := Option.bind_eq_some_iff.mp found
          obtain ⟨combine, isCombine⟩ := joins.exists_combine isJoin
          refine Reader.ensures_advance_bind isHead ?_
          intro behind signEq
          refine (operandSound behind).bind ?_
          rintro right after ⟨word, wordEq, derived⟩
          refine (joins.gives sign join combine isJoin isCombine
            left right after).ensures.bind ?_
          rintro joined last ⟨joinedEq, lastEq⟩
          have longer :
              Chain category combine? (before ++ sign :: word)
                (erase joined) := by
            rw [joinedEq]
            exact .joined chained isCombine derived
          refine (ih joined last (before ++ sign :: word) longer).mono ?_
          rintro value final ⟨more, moreEq, chainedAll⟩
          refine ⟨sign :: word ++ more, ?_, by simpa using chainedAll⟩
          rw [signEq, wordEq, ← lastEq, moreEq]
          simp

theorem chain_sound (operandSound : Sound operand erase category)
    (joins : Joins join? erase combine?) (limit : Nat) :
    Sound (Reader.chain limit operand join?) erase
      (Chain category combine?) := by
  intro cursor
  refine (operandSound cursor).bind ?_
  rintro first after ⟨word, wordEq, derived⟩
  refine (chainFrom_ensures operandSound joins limit first after word
    (.single derived)).mono ?_
  rintro value last ⟨more, moreEq, chained⟩
  exact ⟨word ++ more, by rw [wordEq, moreEq, List.append_assoc], chained⟩

/-- A chain that is derived is read up to its end, from where the loop goes
on. -/
theorem chain_follows {bound limit : Nat} {continues : Token.Kind → Bool}
    (operandComplete : Complete operand erase category bound continues)
    (joins : Joins join? erase combine?)
    (apart : ∀ kind combine, combine? kind = some combine →
      continues kind = false)
    {word : Word} {tree : β} (chained : Chain category combine? word tree)
    {rest : Word}
    {cursor : Cursor} (short : word.length ≤ bound) (fits : word.length ≤ limit)
    (free : Free continues rest) (kindsEq : cursor.kinds = word ++ rest) :
    ∃ spare left after, limit ≤ spare + word.length ∧
      Reader.chain limit operand join? cursor =
        Reader.chainFrom operand join? spare left after ∧
      erase left = tree ∧ after.kinds = rest := by
  -- The derivation grows at the right end, where the loop stands after as
  -- many rounds.
  induction chained generalizing rest with
  | single derived =>
      obtain ⟨left, after, ran, leftEq, afterEq⟩ :=
        operandComplete _ _ _ _ derived short free kindsEq
      exact ⟨limit, left, after, Nat.le_add_right _ _, bind_apply_of_ok ran,
        leftEq, afterEq⟩
  | @joined first second leftTree rightTree sign combine before isCombine
      derived ih =>
      simp only [List.length_append, List.length_cons] at short fits
      have signFree : Free continues (sign :: (second ++ rest)) :=
        .cons (apart sign combine isCombine)
      obtain ⟨spare, left, after, enough, ranSoFar, leftEq, afterEq⟩ :=
        ih (by omega) (by omega) signFree (by simpa using kindsEq)
      obtain ⟨spareLeft, rfl⟩ : ∃ spareLeft, spare = spareLeft + 1 :=
        ⟨spare - 1, by omega⟩
      obtain ⟨join, isJoin⟩ := joins.exists_join isCombine
      have behindEq : after.advance.kinds = second ++ rest := by
        rw [Cursor.kinds_advance, afterEq, List.tail_cons]
      obtain ⟨right, reached, ranRight, rightEq, reachedEq⟩ :=
        operandComplete _ _ _ _ derived (by omega) free behindEq
      obtain ⟨joined, last, ranJoin, joinedEq, lastEq⟩ :=
        joins.gives sign join combine isJoin isCombine left right reached
      refine ⟨spareLeft, joined, last, ?_, ?_, ?_, lastEq.trans reachedEq⟩
      · simp only [List.length_append, List.length_cons]
        omega
      · have joinFound : after.kinds.head?.bind join? = some join := by
          rw [afterEq]
          exact isJoin
        rw [ranSoFar, Reader.chainFrom,
          bind_apply_of_ok (Reader.next?_apply after)]
        simp only [joinFound]
        rw [bind_apply_of_ok (Reader.advance_apply after),
          bind_apply_of_ok ranRight, bind_apply_of_ok ranJoin]
      · rw [joinedEq, leftEq, rightEq]

theorem chain_complete {bound limit : Nat}
    {continues continuesChain : Token.Kind → Bool}
    (operandComplete : Complete operand erase category bound continues)
    (joins : Joins join? erase combine?)
    (apart : ∀ kind combine, combine? kind = some combine →
      continues kind = false)
    (chainContinues : ∀ kind, continuesChain kind = false →
      continues kind = false ∧ combine? kind = none) (enough : bound ≤ limit) :
    Complete (Reader.chain limit operand join?) erase (Chain category combine?)
      bound continuesChain := by
  intro word tree rest cursor chained short free kindsEq
  have operandFree : Free continues rest := fun kind isHead =>
    (chainContinues kind (free kind isHead)).1
  obtain ⟨spare, left, after, _, ran, leftEq, afterEq⟩ :=
    chain_follows operandComplete joins
    apart chained short (Nat.le_trans short enough) operandFree kindsEq
  refine ⟨left, after, ?_, leftEq, afterEq⟩
  rw [ran]
  cases spare with
  | zero => rfl
  | succ spare =>
      have noJoin : after.kinds.head?.bind join? = none := by
        rw [Option.bind_eq_none_iff]
        intro kind isHead
        rw [joins.none_iff]
        exact (chainContinues kind (free kind (by rwa [← afterEq]))).2
      rw [Reader.chainFrom, bind_apply_of_ok (Reader.next?_apply after)]
      simp only [noJoin]
      rfl

end Chains

section Lists

variable {α β : Type} {item : Reader α} {erase : α → β} {category : Category β}

theorem Starts.separated {starts : Token.Kind → Bool}
    (each : Starts starts category) {separator : Token.Kind} :
    Starts starts (Separated separator category) := by
  intro word trees separated
  cases separated with
  | single derived => exact each _ _ derived
  | cons derived separated =>
      obtain ⟨kind, others, rfl, isStart⟩ := each _ _ derived
      exact ⟨kind, _, rfl, isStart⟩

theorem commaList_sound (itemSound : Sound item erase category) (limit : Nat) :
    Sound (Reader.commaList item limit) (List.map erase)
      (Separated (.symbol .comma) category) := by
  induction limit with
  | zero =>
      intro cursor
      refine (itemSound cursor).bind ?_
      rintro value after ⟨word, wordEq, derived⟩
      exact ensures_pure ⟨word, wordEq, .single derived⟩
  | succ limit ih =>
      intro cursor
      refine (itemSound cursor).bind ?_
      rintro value after ⟨word, wordEq, derived⟩
      refine Reader.ensures_accept_bind ?_ ?_
      · intro behind commaEq
        refine (ih behind).bind ?_
        rintro values last ⟨others, othersEq, separated⟩
        refine ensures_pure ⟨word ++ .symbol .comma :: others, ?_,
          .cons derived separated⟩
        rw [wordEq, commaEq, othersEq]
        simp
      · intro _
        exact ensures_pure ⟨word, wordEq, .single derived⟩

theorem commaList_complete {bound limit : Nat}
    {continues continuesList : Token.Kind → Bool}
    (itemComplete : Complete item erase category bound continues)
    (apart : continues (.symbol .comma) = false)
    (listContinues : ∀ kind, continuesList kind = false →
      continues kind = false ∧ kind ≠ .symbol .comma) (enough : bound ≤ limit) :
    Complete (Reader.commaList item limit) (List.map erase)
      (Separated (.symbol .comma) category) bound continuesList := by
  intro word trees rest cursor separated short free kindsEq
  have fits := Nat.le_trans short enough
  clear enough
  induction separated generalizing limit cursor with
  | @single word tree derived =>
      have itemFree : Free continues rest := fun kind isHead =>
        (listContinues kind (free kind isHead)).1
      have notComma : ∀ after : Cursor, after.kinds = rest →
          after.kinds.head? ≠ some (.symbol .comma) := by
        rintro after rfl isComma
        exact (listContinues _ (free _ isComma)).2 rfl
      have reads := itemComplete _ _ _ _ derived short itemFree kindsEq
      cases limit with
      | zero =>
          refine reads.bind ?_
          rintro value after ⟨valueEq, afterEq⟩
          exact gives_pure ⟨by rw [List.map_singleton, valueEq], afterEq⟩
      | succ limit =>
          refine reads.bind ?_
          rintro value after ⟨valueEq, afterEq⟩
          refine Reader.gives_accept_bind_of_ne (notComma after afterEq) ?_
          exact gives_pure ⟨by rw [List.map_singleton, valueEq], afterEq⟩
  | @cons first others tree trees derived separated ih =>
      simp only [List.length_append, List.length_cons] at short fits
      obtain ⟨smaller, rfl⟩ : ∃ smaller, limit = smaller + 1 :=
        ⟨limit - 1, by omega⟩
      have commaFree : Free continues (.symbol .comma :: (others ++ rest)) :=
        .cons apart
      refine (itemComplete _ _ _ _ derived (by omega) commaFree (by simpa
        using kindsEq)).bind ?_
      rintro value after ⟨valueEq, afterEq⟩
      refine Reader.gives_accept_bind afterEq ?_
      intro behind behindEq
      refine (ih behind (by omega) behindEq (by omega)).bind ?_
      rintro values last ⟨valuesEq, lastEq⟩
      exact gives_pure ⟨by rw [List.map_cons, valueEq, valuesEq], lastEq⟩

end Lists

end PL0
