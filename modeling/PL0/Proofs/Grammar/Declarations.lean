import PL0.Grammar.Program
import PL0.Proofs.Grammar.Expressions

/-!
# Reading declarations follows the grammar

A number on its own between brackets is a fixed size, and everything else is
an expression.  To see that the number is on its own, the reader looks at one
token after it; that this is enough is because an expression that starts with
a number cannot go on with a bracket.
-/

namespace PL0.Reader

open Grammar

section Soundness

theorem arraySize_ensures (cursor : Cursor) :
    Ensures arraySize cursor fun size after =>
      ∃ word, cursor.kinds = word ++ after.kinds ∧
        (after.kinds.head? = some (.symbol .closeBracket) →
          Size word size.erase) := by
  refine ensures_bind_of_ok (next?_apply cursor) ?_
  refine ensures_bind_of_ok (second?_apply cursor) ?_
  split
  · next value head second =>
      split
      · next nonneg =>
          refine ensures_advance_bind head ?_
          intro after kindsEq
          exact ensures_pure ⟨[.integer value], kindsEq, fun _ => .fixed nonneg⟩
      · next negative =>
          refine (expr_sound cursor).bind ?_
          rintro count after ⟨word, wordEq, counted⟩
          refine ensures_pure ⟨word, wordEq, fun _ => .dynamic counted ?_⟩
          rintro number nonneg rfl
          rw [wordEq] at head
          cases head
          exact negative nonneg
  · next notLone =>
      refine (expr_sound cursor).bind ?_
      rintro count after ⟨word, wordEq, counted⟩
      refine ensures_pure ⟨word, wordEq, fun closes => .dynamic counted ?_⟩
      rintro number _ rfl
      exact notLone number (by rw [wordEq]; rfl) (by rw [wordEq]; exact closes)

theorem baseType_sound : Sound baseType id fun word base =>
    word = [typeWord base] := by
  intro cursor
  refine ensures_bind_of_ok (next?_apply cursor) ?_
  split
  · next head =>
      refine ensures_advance_bind head ?_
      intro after kindsEq
      exact ensures_pure ⟨_, kindsEq, rfl⟩
  · next head =>
      refine ensures_advance_bind head ?_
      intro after kindsEq
      exact ensures_pure ⟨_, kindsEq, rfl⟩
  · exact ensures_throw

theorem declaredType_sound :
    Sound declaredType DeclaredType.erase TypeName := by
  intro cursor
  refine (baseType_sound cursor).bind ?_
  rintro base typed ⟨_, typedEq, rfl⟩
  refine ensures_accept_bind ?_ ?_
  · intro opened openEq
    refine (arraySize_ensures opened).bind ?_
    rintro size reached ⟨word, wordEq, sized⟩
    refine ensures_expect_bind ?_
    intro closed closeEq
    refine ensures_pure ⟨_, ?_, .array base (sized (by rw [closeEq]; rfl))⟩
    rw [typedEq, openEq, wordEq, closeEq]
    simp
  · intro _
    exact ensures_pure ⟨_, typedEq, .scalar base⟩

theorem declaration_sound (expected : Expectation) :
    Sound (declaration expected) Declaration.erase Declared := by
  intro cursor
  refine ensures_identifier_bind ?_
  intro name position named nameEq
  refine ensures_expect_bind ?_
  intro behind colonEq
  refine (declaredType_sound behind).bind ?_
  rintro type after ⟨word, wordEq, typed⟩
  refine ensures_pure ⟨_, ?_, .mk name typed⟩
  rw [nameEq, colonEq, wordEq]
  rfl

theorem parameters_sound :
    Sound parameters (List.map Declaration.erase)
      (Listed (.symbol .comma) Declared) := by
  intro cursor
  refine ensures_bind_of_ok (next?_apply cursor) ?_
  split
  · exact ensures_pure ⟨[], rfl, .none⟩
  · refine ensures_bind_of_ok (remaining_apply cursor) ?_
    refine (commaList_sound (declaration_sound .parameterName) _ cursor).mono ?_
    rintro params after ⟨word, wordEq, separated⟩
    exact ⟨word, wordEq, .some separated⟩

theorem locals_cons {first others : Word} {declared : Declaration}
    {all : List Declaration} (derived : Declared first declared)
    (more : Locals others all) :
    Locals (first ++ .symbol .semicolon :: others) (declared :: all) := by
  cases more with
  | none => exact .some (.single derived) .present
  | some separated ended =>
      rw [← List.cons_append, ← List.append_assoc]
      exact .some (.cons derived separated) ended

theorem localsWithin_sound (limit : Nat) :
    Sound (localsWithin limit) (List.map Declaration.erase) Locals := by
  induction limit with
  | zero => exact fun cursor => ensures_pure ⟨[], rfl, .none⟩
  | succ limit ih =>
      intro cursor
      refine ensures_bind_of_ok (next?_apply cursor) ?_
      split
      · refine (declaration_sound .variableName cursor).bind ?_
        rintro first reached ⟨word, wordEq, derived⟩
        refine ensures_accept_bind ?_ ?_
        · intro behind semicolonEq
          refine (ih behind).bind ?_
          rintro others last ⟨more, moreEq, moreDerived⟩
          refine ensures_pure ⟨_, ?_, locals_cons derived moreDerived⟩
          rw [wordEq, semicolonEq, moreEq]
          simp
        · intro _
          refine ensures_pure ⟨word ++ [], ?_, .some (.single derived) .absent⟩
          rw [wordEq, List.append_nil]
      · exact ensures_pure ⟨[], rfl, .none⟩

theorem locals_sound : Sound locals (List.map Declaration.erase) Locals := by
  intro cursor
  refine ensures_bind_of_ok (remaining_apply cursor) ?_
  exact localsWithin_sound _ cursor

end Soundness

/-- The tokens that a declaration starts with: names. -/
def startsDeclaration : Token.Kind → Bool
  | .identifier _ => true
  | _ => false

theorem declared_starts : Starts startsDeclaration Declared := by
  rintro _ _ ⟨name, typed⟩
  exact ⟨_, _, rfl, rfl⟩

/-- The tokens that would continue a type. -/
def continuesType (kind : Token.Kind) : Bool :=
  kind = .symbol .openBracket

section Completeness

/-- If a bracket follows the number at the start of an expression, the number
is all of it: the expression and the number are read from the same place, so
what is left is the same. -/
theorem others_eq_nil {value : Int64} {others rest : Word} {count : Expr}
    {cursor : Cursor} (counted : Expression (.integer value :: others) count)
    (kindsEq : cursor.kinds = .integer value ::
      (others ++ .symbol .closeBracket :: rest))
    (closes : (others ++ .symbol .closeBracket :: rest).head? =
      some (.symbol .closeBracket)) :
    others = [] := by
  obtain ⟨_, after, ran, _, afterEq⟩ :=
    expr_complete _ _ count _ cursor counted (Nat.le_refl _)
    ((free_cons _ (.symbol .closeBracket) rest).mpr rfl) kindsEq
  have bracketFree :
      Free continuesSum (others ++ .symbol .closeBracket :: rest) := by
    intro kind isHead
    rw [closes] at isHead
    cases isHead
    rfl
  have numberReads := expr_complete 1 [.integer value] _ _ cursor
    (.single (.single (.int value))) (Nat.le_refl _) bracketFree kindsEq
  obtain ⟨_, sameAfter⟩ := numberReads.ensures _ _ ran
  rw [afterEq] at sameAfter
  simpa using sameAfter

theorem dynamic_gives {word rest : Word} {count : Expr} {cursor : Cursor}
    (counted : Expression word count)
    (kindsEq : cursor.kinds = word ++ .symbol .closeBracket :: rest) :
    Gives (do return ArraySize.dynamic (← expr) : Reader ArraySize) cursor
      fun size after =>
      size.erase = .dynamic count ∧
        after.kinds = .symbol .closeBracket :: rest := by
  refine (expr_complete _ word count _ cursor counted (Nat.le_refl _)
    (.cons rfl) kindsEq).bind ?_
  rintro value after ⟨valueEq, afterEq⟩
  exact gives_pure ⟨by rw [ArraySize.erase, valueEq], afterEq⟩

theorem arraySize_gives {word rest : Word} {size : ArraySize} {cursor : Cursor}
    (sized : Size word size)
    (kindsEq : cursor.kinds = word ++ .symbol .closeBracket :: rest) :
    Gives arraySize cursor fun result after =>
      result.erase = size ∧ after.kinds = .symbol .closeBracket :: rest := by
  refine gives_bind_of_ok (next?_apply cursor) ?_
  refine gives_bind_of_ok (second?_apply cursor) ?_
  cases sized with
  | fixed nonneg =>
      rw [kindsEq]
      dsimp only [List.cons_append, List.nil_append, List.head?_cons,
        List.tail_cons]
      rw [if_pos nonneg]
      refine gives_advance_bind kindsEq ?_
      intro after afterEq
      exact gives_pure ⟨rfl, afterEq⟩
  | dynamic counted notFixed =>
      split
      · next value head second =>
          split
          · next nonneg =>
              -- The number would be the whole expression, and its size a
              -- fixed one.
              exfalso
              obtain ⟨kind, others, rfl, _⟩ := expression_starts _ _ counted
              rw [kindsEq] at head second
              obtain rfl : kind = .integer value := by simpa using head
              have alone := others_eq_nil counted kindsEq second
              exact notFixed value nonneg (by rw [alone])
          · exact dynamic_gives counted kindsEq
      · exact dynamic_gives counted kindsEq

theorem baseType_gives (base : BaseType) {rest : Word} {cursor : Cursor}
    (kindsEq : cursor.kinds = typeWord base :: rest) :
    Gives baseType cursor fun result after =>
      result = base ∧ after.kinds = rest := by
  refine gives_bind_of_ok (next?_apply cursor) ?_
  rw [kindsEq]
  cases base with
  | int =>
      refine gives_advance_bind kindsEq ?_
      intro after afterEq
      exact gives_pure ⟨rfl, afterEq⟩
  | float =>
      refine gives_advance_bind kindsEq ?_
      intro after afterEq
      exact gives_pure ⟨rfl, afterEq⟩

theorem declaredType_complete (bound : Nat) :
    Complete declaredType DeclaredType.erase TypeName bound continuesType := by
  intro word type rest cursor typed _ free kindsEq
  cases typed with
  | scalar base =>
      refine (baseType_gives base kindsEq).bind ?_
      rintro _ after ⟨rfl, afterEq⟩
      refine gives_accept_bind_of_ne ?_ (gives_pure ⟨rfl, afterEq⟩)
      intro isOpen
      rw [afterEq] at isOpen
      simpa [continuesType] using free _ isOpen
  | array base sized =>
      refine (baseType_gives base kindsEq).bind ?_
      rintro _ after ⟨rfl, afterEq⟩
      refine gives_accept_bind afterEq ?_
      intro opened openedEq
      refine (arraySize_gives sized (by simpa using openedEq)).bind ?_
      rintro size reached ⟨rfl, reachedEq⟩
      refine gives_expect_bind reachedEq ?_
      intro closed closedEq
      exact gives_pure ⟨rfl, closedEq⟩

theorem declaration_complete (expected : Expectation) (bound : Nat) :
    Complete (declaration expected) Declaration.erase Declared bound
      continuesType := by
  rintro _ _ rest cursor ⟨name, typed⟩ _ free kindsEq
  refine gives_identifier_bind kindsEq ?_
  intro position named namedEq
  refine gives_expect_bind namedEq ?_
  intro behind behindEq
  refine (declaredType_complete _ _ _ rest behind typed (Nat.le_refl _) free
    behindEq).bind ?_
  rintro type after ⟨rfl, afterEq⟩
  exact gives_pure ⟨rfl, afterEq⟩

theorem parameters_gives {word rest : Word} {params : List Declaration}
    {cursor : Cursor} (listed : Listed (.symbol .comma) Declared word params)
    (kindsEq : cursor.kinds = word ++ .symbol .closeParen :: rest) :
    Gives parameters cursor fun result after =>
      result.map Declaration.erase = params ∧
        after.kinds = .symbol .closeParen :: rest := by
  refine gives_bind_of_ok (next?_apply cursor) ?_
  cases listed with
  | none =>
      rw [if_pos (by rw [kindsEq]; rfl)]
      exact gives_pure ⟨rfl, kindsEq⟩
  | some separated =>
      have notClosed : cursor.kinds.head? ≠ some (.symbol .closeParen) := by
        rw [kindsEq]
        exact declared_starts.separated.head?_ne separated rfl _
      have short := Cursor.length_le_of_kinds_eq kindsEq
      rw [if_neg notClosed]
      refine gives_bind_of_ok (remaining_apply cursor) ?_
      have listComplete :=
        commaList_complete (declaration_complete .parameterName _) rfl
        (fun kind (isFree : (continuesType kind || kind = .symbol .comma) = false) => by
          simpa using isFree) (Nat.le_refl cursor.kinds.length)
      exact listComplete word params _ cursor separated short
        (.cons rfl) kindsEq

/-- Reading local variables stops before a `begin`. -/
theorem localsWithin_of_begin (limit : Nat) {rest : Word} {cursor : Cursor}
    (kindsEq : cursor.kinds = .keyword .beginWord :: rest) :
    Gives (localsWithin limit) cursor fun result after =>
      result = [] ∧ after.kinds = .keyword .beginWord :: rest := by
  cases limit with
  | zero => exact gives_pure ⟨rfl, kindsEq⟩
  | succ limit =>
      refine gives_bind_of_ok (next?_apply cursor) ?_
      rw [kindsEq]
      exact gives_pure ⟨rfl, kindsEq⟩

theorem localsWithin_step {limit : Nat} {word rest : Word}
    {declared : Declaration} {cursor : Cursor}
    {demand : List Declaration → Cursor → Prop}
    (derived : Declared word declared) (free : Free continuesType rest)
    (kindsEq : cursor.kinds = word ++ rest)
    (further : ∀ (first : Declaration) (after : Cursor),
      first.erase = declared → after.kinds = rest →
      Gives (do
        if ← accept (.symbol .semicolon) then
          return first :: (← localsWithin limit)
        else
          return [first] : Reader (List Declaration)) after demand) :
    Gives (localsWithin (limit + 1)) cursor demand := by
  obtain ⟨kind, others, rfl, isName⟩ := declared_starts word declared derived
  obtain ⟨name, rfl⟩ : ∃ name, kind = .identifier name := by
    unfold startsDeclaration at isName
    split at isName
    · exact ⟨_, rfl⟩
    · cases isName
  refine gives_bind_of_ok (next?_apply cursor) ?_
  rw [kindsEq]
  refine (declaration_complete .variableName _ _ declared rest cursor derived
    (Nat.le_refl _) free kindsEq).bind ?_
  rintro first after ⟨firstEq, afterEq⟩
  exact further first after firstEq afterEq

theorem localsWithin_gives {limit : Nat} {word tail rest : Word}
    {declared : List Declaration} {cursor : Cursor}
    (separated : Separated (.symbol .semicolon) Declared word declared)
    (ended : Optional (.symbol .semicolon) tail) (fits : word.length ≤ limit)
    (kindsEq : cursor.kinds = word ++ (tail ++ .keyword .beginWord :: rest)) :
    Gives (localsWithin limit) cursor fun result after =>
      result.map Declaration.erase = declared ∧
        after.kinds = .keyword .beginWord :: rest := by
  induction separated generalizing limit cursor with
  | @single word tree derived =>
      obtain ⟨kind, others, rfl, _⟩ := declared_starts word tree derived
      obtain ⟨smaller, rfl⟩ : ∃ smaller, limit = smaller + 1 :=
        ⟨limit - 1, by simp at fits; omega⟩
      cases ended with
      | absent =>
          refine localsWithin_step derived (.cons rfl) kindsEq ?_
          intro first after firstEq afterEq
          refine gives_accept_bind_of_ne (by rw [afterEq]; simp) ?_
          exact gives_pure ⟨by rw [List.map_singleton, firstEq], afterEq⟩
      | present =>
          refine localsWithin_step derived (.cons rfl) kindsEq ?_
          intro first after firstEq afterEq
          refine gives_accept_bind afterEq ?_
          intro behind behindEq
          refine (localsWithin_of_begin smaller behindEq).bind ?_
          rintro _ last ⟨rfl, lastEq⟩
          exact gives_pure ⟨by rw [List.map_singleton, firstEq], lastEq⟩
  | @cons first others tree trees derived separated ih =>
      simp only [List.length_append, List.length_cons] at fits
      obtain ⟨smaller, rfl⟩ : ∃ smaller, limit = smaller + 1 :=
        ⟨limit - 1, by omega⟩
      have firstEq : cursor.kinds =
          first ++ .symbol .semicolon ::
            (others ++ (tail ++ .keyword .beginWord :: rest)) := by
        simpa using kindsEq
      refine localsWithin_step derived (.cons rfl) firstEq ?_
      intro read after readEq afterEq
      refine gives_accept_bind afterEq ?_
      intro behind behindEq
      refine (ih (by omega) behindEq).bind ?_
      rintro more last ⟨moreEq, lastEq⟩
      exact gives_pure ⟨by rw [List.map_cons, readEq, moreEq], lastEq⟩

theorem locals_gives {word rest : Word} {declared : List Declaration}
    {cursor : Cursor} (derived : Locals word declared)
    (kindsEq : cursor.kinds = word ++ .keyword .beginWord :: rest) :
    Gives locals cursor fun result after =>
      result.map Declaration.erase = declared ∧
        after.kinds = .keyword .beginWord :: rest := by
  refine gives_bind_of_ok (remaining_apply cursor) ?_
  cases derived with
  | none =>
      refine (localsWithin_of_begin _ kindsEq).mono ?_
      rintro _ after ⟨rfl, afterEq⟩
      exact ⟨rfl, afterEq⟩
  | @some word tail declared separated ended =>
      have fits : word.length ≤ cursor.kinds.length := by
        rw [kindsEq]
        simp only [List.length_append]
        omega
      exact localsWithin_gives separated ended fits (by simpa using kindsEq)

end Completeness

end PL0.Reader
