import PL0.Grammar.Program
import PL0.Proofs.Grammar.Recovering
import PL0.Proofs.Tree.Occurrences

/-!
# How nodes are numbered

A reader numbers a node when it has read all parts of it, and the numbers go
up.  So the numbers of what was read ascend in the order in which the
occurrences of a tree are listed, and no number is given twice.  A reader that
succeeds keeps everything that it has numbered, so the numbers have no gaps.
A reader that fails may have used some numbers up, but it never goes back
below where it started.  A trial that fails does go back, and what it had
numbered is lost with it.
-/

namespace PL0

/-- The numbers ascend, from one on and below another. -/
structure Ascending (low : NodeId) (occurrences : List Occurrence)
    (high : NodeId) : Prop where
  pairwise : (Occurrence.ids occurrences).Pairwise (· < ·)
  within : ∀ id ∈ Occurrence.ids occurrences, low ≤ id ∧ id < high

namespace Ascending

variable {low middle high : NodeId} {first second : List Occurrence}

theorem nil : Ascending low [] high :=
  ⟨.nil, by simp [Occurrence.ids]⟩

theorem append (ascending : Ascending low first middle)
    (above : Ascending middle second high) (lowLe : low ≤ middle)
    (middleLe : middle ≤ high) :
    Ascending low (first ++ second) high := by
  constructor
  · rw [Occurrence.ids_append, List.pairwise_append]
    refine ⟨ascending.pairwise, above.pairwise, ?_⟩
    intro id inFirst other inSecond
    exact Nat.lt_of_lt_of_le (ascending.within id inFirst).2
      (above.within other inSecond).1
  · intro id member
    rw [Occurrence.ids_append, List.mem_append] at member
    rcases member with inFirst | inSecond
    · have bounds := ascending.within id inFirst
      exact ⟨bounds.1, Nat.lt_of_lt_of_le bounds.2 middleLe⟩
    · have bounds := above.within id inSecond
      exact ⟨Nat.le_trans lowLe bounds.1, bounds.2⟩

theorem singleton {occurrence : Occurrence} (own : occurrence.node.id = low) :
    Ascending low [occurrence] (low + 1) := by
  refine ⟨List.pairwise_singleton .., ?_⟩
  intro id member
  have same : id = occurrence.node.id := List.mem_singleton.mp member
  rw [same, own]
  exact ⟨Nat.le_refl low, Nat.lt_succ_self low⟩

end Ascending

/-- States that hold the next free number.  Numbers may be given in vain, but
not in a state that is clean. -/
class Counting (σ : Type) where
  nextId : σ → NodeId
  Clean : σ → Prop
  Sane : σ → Prop

instance : Counting Cursor :=
  ⟨Cursor.nextId, fun _ => True, fun _ => True⟩

instance : Counting Recovery :=
  ⟨fun state => state.cursor.nextId, fun state => state.errors = [],
    Recovery.Sane⟩

section Numbers

variable {ε σ α β : Type} [Counting σ]

/-- From one state to another the numbers do not go back, nothing is made
clean, and what is sane stays so. -/
structure Onward (state rest : σ) : Prop where
  nextId_le : Counting.nextId state ≤ Counting.nextId rest
  clean : Counting.Clean rest → Counting.Clean state
  sane : Counting.Sane state → Counting.Sane rest

/-- The numbers from one on that were given up to a state.  In a clean state
they have no gaps. -/
structure Counted (low : NodeId) (occurrences : List Occurrence) (state : σ) :
    Prop where
  sane : Counting.Sane state
  low_le : low ≤ Counting.nextId state
  ascending : Ascending low occurrences (Counting.nextId state)
  full : Counting.Clean state → low + occurrences.length = Counting.nextId state

/-- Where the numbers `held` were given before, the reader returns something
with ascending numbers, which may include those held.  It never goes back to
lower numbers. -/
def Numbers (held : List Occurrence) (reader : EStateM ε σ α)
    (occurs : α → List Occurrence) : Prop :=
  ∀ low state, Counted low held state →
    match reader state with
    | .ok value rest => Onward state rest ∧ Counted low (occurs value) rest
    | .error _ rest => Onward state rest

/-- The reader numbers nothing. -/
def Keeps (reader : EStateM ε σ α) : Prop :=
  ∀ state, match reader state with
    | .ok _ rest => Onward state rest ∧ Counting.nextId rest =
        Counting.nextId state
    | .error _ rest => Onward state rest ∧ Counting.nextId rest =
        Counting.nextId state

variable {low : NodeId} {held more : List Occurrence} {state rest last : σ}
  {reader : EStateM ε σ α} {next : α → EStateM ε σ β}
  {occurs between : α → List Occurrence} {occursNext : β → List Occurrence}

theorem Onward.refl (state : σ) : Onward state state :=
  ⟨Nat.le_refl _, id, id⟩

theorem Onward.trans (first : Onward state rest) (second : Onward rest last) :
    Onward state last :=
  ⟨Nat.le_trans first.nextId_le second.nextId_le, first.clean ∘ second.clean,
    second.sane ∘ first.sane⟩

theorem counted_nil (sane : Counting.Sane state) :
    Counted (Counting.nextId state) [] state :=
  ⟨sane, Nat.le_refl _, .nil, fun _ => rfl⟩

theorem Counted.append (numbered : Counted low held state)
    (onward : Onward state rest)
    (fresh : Counted (Counting.nextId state) more rest) :
    Counted low (held ++ more) rest where
  sane := fresh.sane
  low_le := Nat.le_trans numbered.low_le onward.nextId_le
  ascending :=
    numbered.ascending.append fresh.ascending numbered.low_le onward.nextId_le
  full := by
    intro clean
    have before := numbered.full (onward.clean clean)
    rw [List.length_append, ← Nat.add_assoc, before]
    exact fresh.full clean

theorem Counted.kept (numbered : Counted low held state)
    (onward : Onward state rest)
    (same : Counting.nextId rest = Counting.nextId state) :
    Counted low held rest where
  sane := onward.sane numbered.sane
  low_le := Nat.le_trans numbered.low_le onward.nextId_le
  ascending := by
    rw [same]
    exact numbered.ascending
  full := by
    intro clean
    rw [same]
    exact numbered.full (onward.clean clean)

theorem numbers_pure {value : α} (all : occurs value = held) :
    Numbers held (pure value : EStateM ε σ α) occurs := by
  intro low state numbered
  exact ⟨.refl state, by rwa [all]⟩

theorem numbers_throw {error : ε} :
    Numbers held (throw error : EStateM ε σ α) occurs := by
  intro low state _
  exact Onward.refl state

theorem Numbers.bind (numbers : Numbers held reader between)
    (further : ∀ value, Numbers (between value) (next value) occursNext) :
    Numbers held (reader >>= next) occursNext := by
  intro low state numbered
  have first := numbers low state numbered
  cases ran : reader state with
  | error error rest => simpa [Bind.bind, EStateM.bind, ran] using first
  | ok value rest =>
      rw [ran] at first
      have second := further value low rest first.2
      rw [bind_apply_of_ok ran]
      cases nextRan : next value rest with
      | error error last =>
          rw [nextRan] at second
          exact first.1.trans second
      | ok result last =>
          rw [nextRan] at second
          exact ⟨first.1.trans second.1, second.2⟩

/-- What a reader numbers comes after all numbers given before. -/
theorem Numbers.after (numbers : Numbers [] reader occurs)
    (held : List Occurrence) :
    Numbers held reader fun value => held ++ occurs value := by
  intro low state numbered
  have fresh :=
    numbers (Counting.nextId state) state (counted_nil numbered.sane)
  cases ran : reader state with
  | error error rest =>
      rw [ran] at fresh
      exact fresh
  | ok value rest =>
      rw [ran] at fresh
      exact ⟨fresh.1, numbered.append fresh.1 fresh.2⟩

theorem Keeps.numbers (keeps : Keeps reader) : Numbers held reader fun _ =>
    held := by
  intro low state numbered
  have kept := keeps state
  cases ran : reader state with
  | error error rest =>
      rw [ran] at kept
      exact kept.1
  | ok value rest =>
      rw [ran] at kept
      exact ⟨kept.1, numbered.kept kept.1 kept.2⟩

theorem Keeps.bindNumbers (keeps : Keeps reader)
    (further : ∀ value, Numbers held (next value) occursNext) :
    Numbers held (reader >>= next) occursNext :=
  keeps.numbers.bind further

theorem keeps_pure (value : α) : Keeps (pure value : EStateM ε σ α) :=
  fun state => ⟨.refl state, rfl⟩

theorem keeps_throw (error : ε) : Keeps (throw error : EStateM ε σ α) :=
  fun state => ⟨.refl state, rfl⟩

theorem Keeps.bind (keeps : Keeps reader)
    (further : ∀ value, Keeps (next value)) : Keeps (reader >>= next) := by
  intro state
  have first := keeps state
  cases ran : reader state with
  | error error rest => simpa [Bind.bind, EStateM.bind, ran] using first
  | ok value rest =>
      rw [ran] at first
      have second := further value rest
      rw [bind_apply_of_ok ran]
      cases nextRan : next value rest with
      | error error last =>
          rw [nextRan] at second
          exact ⟨first.1.trans second.1, second.2.trans first.2⟩
      | ok result last =>
          rw [nextRan] at second
          exact ⟨first.1.trans second.1, second.2.trans first.2⟩

end Numbers

namespace Reader

variable {α : Type} {held : List Occurrence}

theorem next?_keeps : Keeps next? :=
  fun cursor => ⟨.refl cursor, rfl⟩

theorem second?_keeps : Keeps second? :=
  fun cursor => ⟨.refl cursor, rfl⟩

theorem position_keeps : Keeps position :=
  fun cursor => ⟨.refl cursor, rfl⟩

theorem remaining_keeps : Keeps remaining :=
  fun cursor => ⟨.refl cursor, rfl⟩

theorem advance_keeps : Keeps advance :=
  fun _ => ⟨⟨Nat.le_refl _, id, id⟩, rfl⟩

theorem accept_keeps (kind : Token.Kind) : Keeps (accept kind) := by
  apply next?_keeps.bind
  intro head
  split
  · exact advance_keeps.bind fun _ => keeps_pure true
  · exact keeps_pure false

theorem expect_keeps (kind : Token.Kind) (expected : Expectation) :
    Keeps (expect kind expected) := by
  apply (accept_keeps kind).bind
  intro found
  cases found with
  | true => exact keeps_pure ()
  | false => exact keeps_throw expected

theorem identifier_keeps (expected : Expectation) :
    Keeps (identifier expected) := by
  apply next?_keeps.bind
  intro head
  split
  · exact position_keeps.bind fun _ => advance_keeps.bind fun _ => keeps_pure _
  · exact keeps_throw expected

/-- Numbering what is built from parts that were numbered before. -/
theorem build_numbers (own : Node → Occurrence) {position : Position}
    {build : Node → α} {occurs : α → List Occurrence}
    (all : ∀ node, occurs (build node) = held ++ [own node])
    (numbered : ∀ node, (own node).node = node) :
    Numbers held (do return build (← newNode position)) occurs := by
  intro low cursor given
  have onward : Onward cursor { cursor with nextId := cursor.nextId + 1 } :=
    ⟨Nat.le_succ _, id, id⟩
  have last : Counted cursor.nextId [own ⟨cursor.nextId, position⟩]
      { cursor with nextId := cursor.nextId + 1 } :=
    ⟨trivial, Nat.le_succ _, .singleton (by rw [numbered]), fun _ => rfl⟩
  refine ⟨onward, ?_⟩
  rw [all]
  exact given.append onward last

theorem buildExpr_numbers {position : Position} {build : Node → Expr}
    (all : ∀ node, (build node).occurrences = held ++ [.expr (build node)])
    (numbered : ∀ node, (build node).node = node) :
    Numbers held (do return build (← newNode position)) Expr.occurrences :=
  build_numbers (fun node => .expr (build node)) all numbered

theorem buildPlace_numbers {position : Position} {build : Node → Place}
    (all : ∀ node, (build node).occurrences = held ++ [.place (build node)])
    (numbered : ∀ node, (build node).node = node) :
    Numbers held (do return build (← newNode position)) Place.occurrences :=
  build_numbers (fun node => .place (build node)) all numbered

theorem speculate_numbers {reader : Reader α} {occurs : α → List Occurrence}
    (numbers : Numbers held reader occurs) :
    Numbers held (speculate reader) fun found? => found?.elim held occurs := by
  intro low cursor numbered
  have tried := numbers low cursor numbered
  cases ran : reader cursor with
  | error expected rest =>
      have trial : speculate reader cursor = .ok none cursor := by
        simp [speculate, ran]
      rw [trial]
      exact ⟨.refl cursor, numbered⟩
  | ok value rest =>
      have trial : speculate reader cursor = .ok (some value) rest := by
        simp [speculate, ran]
      rw [trial]
      rwa [ran] at tried

section Sequences

variable {operand : Reader α} {occurs : α → List Occurrence}
  {join? : Token.Kind → Option (α → α → Reader α)}

theorem chainFrom_numbers (operandNumbers : Numbers [] operand occurs)
    (joins : ∀ kind join, join? kind = some join →
      ∀ left right, Numbers (occurs left ++ occurs right)
        (join left right) occurs)
    (limit : Nat) (left : α) :
    Numbers (occurs left) (chainFrom operand join? limit left) occurs := by
  induction limit generalizing left with
  | zero => exact numbers_pure rfl
  | succ limit ih =>
      apply next?_keeps.bindNumbers
      intro head?
      split
      · exact numbers_pure rfl
      · next join found =>
          obtain ⟨kind, _, isJoin⟩ := Option.bind_eq_some_iff.mp found
          apply advance_keeps.bindNumbers
          intro _
          apply (operandNumbers.after (occurs left)).bind
          intro right
          exact (joins kind join isJoin left right).bind ih

theorem chain_numbers (operandNumbers : Numbers [] operand occurs)
    (joins : ∀ kind join, join? kind = some join →
      ∀ left right, Numbers (occurs left ++ occurs right)
        (join left right) occurs)
    (limit : Nat) :
    Numbers [] (chain limit operand join?) occurs :=
  operandNumbers.bind (chainFrom_numbers operandNumbers joins limit)

theorem commaList_numbers (itemNumbers : Numbers [] operand occurs)
    (limit : Nat) :
    Numbers [] (commaList operand limit) (List.flatMap occurs) := by
  induction limit with
  | zero => exact itemNumbers.bind fun first => numbers_pure (by simp)
  | succ limit ih =>
      apply itemNumbers.bind
      intro first
      apply (accept_keeps _).bindNumbers
      intro found
      cases found with
      | true => exact (ih.after (occurs first)).bind fun others =>
          numbers_pure (by simp)
      | false => exact numbers_pure (by simp)

end Sequences

section Expressions

variable {expr : Reader Expr}

theorem joinBy_numbers (op : ArithOp) (left right : Expr) :
    Numbers (left.occurrences ++ right.occurrences) (joinBy op left right)
      Expr.occurrences :=
  buildExpr_numbers (fun _ => by rw [Expr.occurrences]) fun _ => rfl

theorem sumJoin?_numbers (kind : Token.Kind) (join : Expr → Expr → Reader Expr)
    (isJoin : sumJoin? kind = some join) (left right : Expr) :
    Numbers (left.occurrences ++ right.occurrences) (join left right)
      Expr.occurrences := by
  unfold sumJoin? at isJoin
  split at isJoin
  · cases isJoin
    exact joinBy_numbers .add left right
  · cases isJoin
    exact joinBy_numbers .sub left right
  · cases isJoin

theorem productJoin?_numbers (kind : Token.Kind)
    (join : Expr → Expr → Reader Expr) (isJoin : productJoin? kind = some join)
    (left right : Expr) :
    Numbers (left.occurrences ++ right.occurrences) (join left right)
      Expr.occurrences := by
  unfold productJoin? at isJoin
  split at isJoin
  · cases isJoin
    exact joinBy_numbers .mul left right
  · cases isJoin
    exact joinBy_numbers .div left right
  · cases isJoin

theorem sum_numbers {factor : Reader Expr}
    (factorNumbers : Numbers [] factor Expr.occurrences) (limit : Nat) :
    Numbers [] (sum limit factor) Expr.occurrences :=
  chain_numbers (chain_numbers factorNumbers productJoin?_numbers limit)
    sumJoin?_numbers limit

/-- What stands before a closing token is numbered, and nothing else. -/
theorem enclosed_numbers {α : Type} {item : Reader α}
    {occurs : α → List Occurrence} (itemNumbers : Numbers held item occurs)
    {closing : Token.Kind} {expected : Expectation} :
    Numbers held (do
        let inner ← item
        expect closing expected
        return inner) occurs := by
  apply itemNumbers.bind
  intro inner
  exact (expect_keeps closing expected).bindNumbers fun _ => numbers_pure rfl

theorem placeWith_numbers (exprNumbers : Numbers [] expr Expr.occurrences) :
    Numbers [] (placeWith expr) Place.occurrences := by
  apply (identifier_keeps _).bindNumbers
  rintro ⟨name, position⟩
  apply (accept_keeps _).bindNumbers
  intro found
  cases found with
  | true =>
      apply exprNumbers.bind
      intro index
      apply (expect_keeps _ _).bindNumbers
      intro _
      exact buildPlace_numbers (fun _ => by rw [Place.occurrences]) fun _ => rfl
  | false =>
      exact buildPlace_numbers (fun _ => by simp [Place.occurrences])
        fun _ => rfl

theorem argumentsWith_numbers (exprNumbers : Numbers [] expr Expr.occurrences)
    (limit : Nat) :
    Numbers [] (argumentsWith limit expr) (List.flatMap Expr.occurrences) := by
  apply (accept_keeps _).bindNumbers
  intro found
  cases found with
  | true => exact numbers_pure rfl
  | false => exact enclosed_numbers (commaList_numbers exprNumbers limit)

theorem castOperand_numbers (exprNumbers : Numbers [] expr Expr.occurrences) :
    Numbers [] (castOperand expr) Expr.occurrences := by
  apply (accept_keeps _).bindNumbers
  intro inParens
  cases inParens with
  | true => exact enclosed_numbers exprNumbers
  | false =>
      apply (accept_keeps _).bindNumbers
      intro inBrackets
      cases inBrackets with
      | true => exact enclosed_numbers exprNumbers
      | false => exact numbers_throw

theorem cast_numbers (exprNumbers : Numbers [] expr Expr.occurrences)
    (position : Position) (target : BaseType) :
    Numbers [] (do
        advance
        let operand ← castOperand expr
        return Expr.cast (← newNode position) target operand :
          Reader Expr) Expr.occurrences := by
  apply advance_keeps.bindNumbers
  intro _
  apply (castOperand_numbers exprNumbers).bind
  intro operand
  exact buildExpr_numbers (fun _ => by rw [Expr.occurrences]) fun _ => rfl

theorem primary_numbers (exprNumbers : Numbers [] expr Expr.occurrences)
    (limit : Nat) : Numbers [] (primary limit expr) Expr.occurrences := by
  apply position_keeps.bindNumbers
  intro position
  apply next?_keeps.bindNumbers
  intro head?
  cases head? with
  | none => exact numbers_throw
  | some kind =>
      cases kind with
      | integer value =>
          apply advance_keeps.bindNumbers
          intro _
          exact buildExpr_numbers (fun _ => by simp [Expr.occurrences])
            fun _ => rfl
      | float value =>
          apply advance_keeps.bindNumbers
          intro _
          exact buildExpr_numbers (fun _ => by simp [Expr.occurrences])
            fun _ => rfl
      | identifier name =>
          apply second?_keeps.bindNumbers
          intro second?
          split
          · apply advance_keeps.bindNumbers
            intro _
            apply advance_keeps.bindNumbers
            intro _
            apply (argumentsWith_numbers exprNumbers limit).bind
            intro args
            exact buildExpr_numbers (fun _ => by rw [Expr.occurrences,
              Expr.allOccurrences_eq]) fun _ => rfl
          · apply (placeWith_numbers exprNumbers).bind
            intro held
            exact buildExpr_numbers (fun _ => by simp [Expr.occurrences])
              fun _ => rfl
      | keyword word =>
          cases word with
          | intWord => exact cast_numbers exprNumbers position .int
          | floatWord => exact cast_numbers exprNumbers position .float
          | _ => exact numbers_throw
      | symbol sign =>
          cases sign with
          | openParen =>
              apply advance_keeps.bindNumbers
              intro _
              exact enclosed_numbers exprNumbers
          | _ => exact numbers_throw
      | _ => exact numbers_throw

theorem signed_numbers {operand : Reader Expr}
    (operandNumbers : Numbers [] operand Expr.occurrences) (position : Position)
    (op : SignOp) :
    Numbers [] (do
        let inner ← operand
        return Expr.signed (← newNode position) op inner :
          Reader Expr) Expr.occurrences := by
  apply operandNumbers.bind
  intro inner
  exact buildExpr_numbers (fun _ => by rw [Expr.occurrences]) fun _ => rfl

theorem factor_numbers (limit : Nat) :
    Numbers [] (factor limit) Expr.occurrences := by
  induction limit with
  | zero => exact numbers_throw
  | succ limit ih =>
      apply position_keeps.bindNumbers
      intro position
      apply (accept_keeps _).bindNumbers
      intro isMinus
      cases isMinus with
      | true => exact signed_numbers ih position .neg
      | false =>
          apply (accept_keeps _).bindNumbers
          intro isPlus
          cases isPlus with
          | true => exact signed_numbers ih position .plus
          | false => exact primary_numbers (sum_numbers ih limit) limit

theorem expr_numbers : Numbers [] Reader.expr Expr.occurrences :=
  remaining_keeps.bindNumbers fun limit =>
    sum_numbers (factor_numbers limit) limit

theorem place_numbers : Numbers [] place Place.occurrences :=
  placeWith_numbers expr_numbers

theorem arguments_numbers :
    Numbers [] arguments (List.flatMap Expr.occurrences) :=
  remaining_keeps.bindNumbers fun limit =>
    argumentsWith_numbers expr_numbers limit

end Expressions

section Conditions

theorem connect_numbers (op : LogicOp) (left right : Condition) :
    Numbers (left.occurrences ++ right.occurrences) (connect op left right)
      Condition.occurrences :=
  numbers_pure (by rw [Condition.occurrences])

theorem andJoin?_numbers (kind : Token.Kind)
    (join : Condition → Condition → Reader Condition)
    (isJoin : andJoin? kind = some join) (left right : Condition) :
    Numbers (left.occurrences ++ right.occurrences) (join left right)
      Condition.occurrences := by
  unfold andJoin? at isJoin
  split at isJoin
  · cases isJoin
    exact connect_numbers .and left right
  · cases isJoin

theorem orJoin?_numbers (kind : Token.Kind)
    (join : Condition → Condition → Reader Condition)
    (isJoin : orJoin? kind = some join) (left right : Condition) :
    Numbers (left.occurrences ++ right.occurrences) (join left right)
      Condition.occurrences := by
  unfold orJoin? at isJoin
  split at isJoin
  · cases isJoin
    exact connect_numbers .or left right
  · cases isJoin

theorem disjunction_numbers {literal : Reader Condition}
    (literalNumbers : Numbers [] literal Condition.occurrences) (limit : Nat) :
    Numbers [] (disjunction limit literal) Condition.occurrences :=
  chain_numbers (chain_numbers literalNumbers andJoin?_numbers limit)
    orJoin?_numbers limit

theorem relation_numbers : Numbers [] relation Condition.occurrences := by
  apply position_keeps.bindNumbers
  intro position
  apply expr_numbers.bind
  intro left
  apply next?_keeps.bindNumbers
  intro head?
  split
  · exact numbers_throw
  · apply advance_keeps.bindNumbers
    intro _
    apply (expr_numbers.after left.occurrences).bind
    intro right
    apply next?_keeps.bindNumbers
    intro second?
    split
    · exact numbers_throw
    · exact numbers_pure (by rw [Condition.occurrences])

theorem group_numbers {condition : Reader Condition}
    (conditionNumbers : Numbers [] condition Condition.occurrences) :
    Numbers [] (group condition) Condition.occurrences := by
  apply advance_keeps.bindNumbers
  intro _
  apply conditionNumbers.bind
  intro inner
  apply (expect_keeps _ _).bindNumbers
  intro _
  apply next?_keeps.bindNumbers
  intro head?
  split
  · exact numbers_throw
  · exact numbers_pure rfl

theorem literal_numbers (limit : Nat) :
    Numbers [] (literal limit) Condition.occurrences := by
  induction limit with
  | zero => exact numbers_throw
  | succ limit ih =>
      apply position_keeps.bindNumbers
      intro position
      apply (accept_keeps _).bindNumbers
      intro isNot
      cases isNot with
      | true =>
          exact ih.bind fun operand =>
            numbers_pure (by rw [Condition.occurrences])
      | false =>
          apply next?_keeps.bindNumbers
          intro head?
          split
          · apply (speculate_numbers
              (group_numbers (disjunction_numbers ih limit))).bind
            intro trial
            cases trial with
            | some condition => exact numbers_pure rfl
            | none => exact relation_numbers
          · exact relation_numbers

theorem condition_numbers : Numbers [] condition Condition.occurrences :=
  remaining_keeps.bindNumbers fun limit =>
    disjunction_numbers (literal_numbers limit) limit

end Conditions

section Declarations

theorem arraySize_numbers (base : BaseType) (name : String)
    (position : Position) :
    Numbers [] arraySize fun size =>
      Declaration.occurrences ⟨name, ⟨base, some size⟩, position⟩ := by
  have dynamic :
      Numbers [] (do return ArraySize.dynamic (← Reader.expr)) fun size =>
      Declaration.occurrences ⟨name, ⟨base, some size⟩, position⟩ :=
    expr_numbers.bind fun count => numbers_pure rfl
  apply next?_keeps.bindNumbers
  intro head?
  apply second?_keeps.bindNumbers
  intro second?
  split
  · split
    · exact advance_keeps.bindNumbers fun _ => numbers_pure rfl
    · exact dynamic
  · exact dynamic

theorem baseType_keeps : Keeps baseType := by
  apply next?_keeps.bind
  intro head?
  split
  · exact advance_keeps.bind fun _ => keeps_pure _
  · exact advance_keeps.bind fun _ => keeps_pure _
  · exact keeps_throw _

theorem declaration_numbers (expected : Expectation) :
    Numbers [] (declaration expected) Declaration.occurrences := by
  apply (identifier_keeps expected).bindNumbers
  rintro ⟨name, position⟩
  apply (expect_keeps _ _).bindNumbers
  intro _
  have typeNumbers : Numbers [] declaredType fun type =>
      Declaration.occurrences ⟨name, type, position⟩ := by
    apply baseType_keeps.bindNumbers
    intro base
    apply (accept_keeps _).bindNumbers
    intro found
    cases found with
    | false => exact numbers_pure rfl
    | true =>
        apply (arraySize_numbers base name position).bind
        intro size
        exact (expect_keeps _ _).bindNumbers fun _ => numbers_pure rfl
  exact typeNumbers.bind fun type => numbers_pure rfl

theorem parameters_numbers :
    Numbers [] parameters (List.flatMap Declaration.occurrences) := by
  apply next?_keeps.bindNumbers
  intro head?
  split
  · exact numbers_pure rfl
  · exact remaining_keeps.bindNumbers fun limit =>
      commaList_numbers (declaration_numbers .parameterName) limit

theorem localsWithin_numbers (limit : Nat) :
    Numbers [] (localsWithin limit) (List.flatMap Declaration.occurrences) := by
  induction limit with
  | zero => exact numbers_pure rfl
  | succ limit ih =>
      apply next?_keeps.bindNumbers
      intro head?
      split
      · apply (declaration_numbers .variableName).bind
        intro first
        apply (accept_keeps _).bindNumbers
        intro found
        cases found with
        | true => exact (ih.after first.occurrences).bind fun others =>
            numbers_pure (by simp)
        | false => exact numbers_pure (by simp)
      · exact numbers_pure rfl

theorem locals_numbers :
    Numbers [] locals (List.flatMap Declaration.occurrences) :=
  remaining_keeps.bindNumbers localsWithin_numbers

end Declarations

end Reader

end PL0
