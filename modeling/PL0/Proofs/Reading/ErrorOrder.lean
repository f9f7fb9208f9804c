import Mathlib.Data.List.NodupEquivFin
import PL0.Proofs.Reading.Input
import PL0.Proofs.Reading.Marks
import PL0.Proofs.Token.Scanning

/-!
# Errors come in the order of the tokens

What is reported is about tokens of the input, in their order and at most once
each.  The tokens of a text stand one behind another, so the positions of the
errors ascend.
-/

namespace PL0

namespace Position

/-- One position comes before another: on an earlier line, or earlier on the
same line. -/
def Before (first second : Position) : Prop :=
  first.line < second.line ∨ first.line = second.line ∧
    first.column < second.column

theorem Before.trans {first second third : Position}
    (before : first.Before second) (further : second.Before third) :
    first.Before third := by
  unfold Before at *
  omega

theorem before_next (position : Position) (c : Char) :
    position.Before (position.next c) := by
  unfold Before next
  split
  · exact .inl (Nat.lt_succ_self _)
  · exact .inr ⟨rfl, Nat.lt_succ_self _⟩

theorem before_after (position : Position) {text : List Char}
    (some : text ≠ []) : position.Before (position.after text) := by
  induction text generalizing position with
  | nil => exact absurd rfl some
  | cons c text ih =>
      rw [after_cons]
      by_cases more : text = []
      · rw [more]
        exact position.before_next c
      · exact (position.before_next c).trans (ih _ more)

end Position

namespace Lexical

theorem Cut.position_eq {before text : List Char} {tokens : List Token}
    (cut : Cut before text tokens) :
    ∀ token ∈ tokens, ∃ passed, token.position =
      .behind (before ++ passed) := by
  induction cut with
  | @finish before gap isGap =>
      intro token member
      exact ⟨gap, by rw [List.mem_singleton.mp member]⟩
  | @token before gap lexeme rest kind tokens isGap longest noComment denotes
      more ih =>
      intro token member
      rcases List.mem_cons.mp member with rfl | later
      · exact ⟨gap, rfl⟩
      · obtain ⟨passed, positionEq⟩ := ih token later
        exact ⟨gap ++ (lexeme ++ passed), by simpa using positionEq⟩

/-- A lexeme takes at least one character, so each token stands before the
next. -/
theorem Cut.pairwise_before {before text : List Char} {tokens : List Token}
    (cut : Cut before text tokens) :
    tokens.Pairwise fun first second =>
      first.position.Before second.position := by
  induction cut with
  | finish isGap => exact List.pairwise_singleton ..
  | @token before gap lexeme rest kind tokens isGap longest noComment denotes
      more ih =>
      refine List.pairwise_cons.mpr ⟨?_, ih⟩
      intro token member
      obtain ⟨passed, positionEq⟩ := more.position_eq token member
      rw [positionEq, List.append_assoc,
        ← Position.after_behind (before ++ gap)]
      exact Position.before_after _ (by simp [longest.isLexeme.ne_nil])

theorem Cut.withEnd_eq_self {before text : List Char} {tokens : List Token}
    (cut : Cut before text tokens) : withEnd tokens = tokens := by
  have last : ∃ stop, tokens.getLast? = some ⟨.endOfInput, stop⟩ := by
    induction cut with
    | finish isGap => exact ⟨_, rfl⟩
    | token isGap longest noComment denotes more ih =>
        obtain ⟨stop, lastEq⟩ := ih
        exact ⟨stop, by rw [List.getLast?_cons, lastEq]; rfl⟩
  obtain ⟨stop, lastEq⟩ := last
  rw [withEnd, lastEq]
  rfl

end Lexical

/-- The token that a mark was taken from. -/
def Mark.token (mark : Mark) : Token :=
  ⟨mark.1.getD .endOfInput, mark.2⟩

theorem readProgram_marks_sublist (tokens : List Token) :
    ((readProgram tokens).errors.map SyntaxError.mark).Sublist
      ((Cursor.ofTokens tokens).tokens.map Token.mark ++
        [(none, (Cursor.ofTokens tokens).stop)]) := by
  have start : Recovery.Behind (Cursor.ofTokens tokens) ⟨Cursor.ofTokens tokens,
      [], false⟩ :=
    ⟨[], ⟨rfl, rfl⟩, .refl _⟩
  obtain ⟨passed, past, inOrder⟩ :=
    (Recoverer.program_orders _ start.ordered).upTo
  refine List.Sublist.trans inOrder ?_
  generalize (Recoverer.program _).2.cursor = cursor at past ⊢
  rw [past.tokens]
  cases tokensEq : cursor.tokens with
  | nil =>
      have markEq : cursor.mark = (none, (Cursor.ofTokens tokens).stop) := by
        simp [Cursor.mark, Cursor.next?, Cursor.position, tokensEq, past.stop]
      rw [markEq, List.append_nil]
  | cons token others =>
      have markEq : cursor.mark = token.mark := by
        simp [Cursor.mark, Cursor.next?, Cursor.position, tokensEq, Token.mark]
      rw [markEq, List.map_append, List.append_assoc]
      exact List.Sublist.append_left (List.singleton_sublist.mpr (by simp)) _

theorem readProgram_error_tokens_sublist (tokens : List Token) :
    ((readProgram tokens).errors.map fun error => error.mark.token).Sublist
      (withEnd tokens) := by
  obtain ⟨unread, inputEq⟩ := withEnd_eq tokens
  have mapped := (readProgram_marks_sublist tokens).map Mark.token
  rw [List.map_map, List.map_append, List.map_map] at mapped
  have same : (Cursor.ofTokens tokens).tokens.map (Mark.token ∘ Token.mark) =
      (Cursor.ofTokens tokens).tokens := List.map_id _
  rw [same] at mapped
  rw [inputEq]
  refine mapped.trans
    (List.Sublist.append_left (List.singleton_sublist.mpr ?_) _)
  simp [Mark.token]

/-- The error is about the token: it stands there, and it names the kind of
the token or says that the input ended. -/
def SyntaxError.IsAbout (error : SyntaxError) (token : Token) : Prop :=
  error.position = token.position ∧
    error.found = if token.kind = .endOfInput then none else some token.kind

theorem SyntaxError.isAbout_token {error : SyntaxError}
    (named : error.found ≠ some .endOfInput) :
    error.IsAbout error.mark.token := by
  refine ⟨rfl, ?_⟩
  cases foundEq : error.found with
  | none => simp [SyntaxError.mark, Mark.token, foundEq]
  | some kind =>
      have notEnd : kind ≠ .endOfInput := by
        rintro rfl
        exact named foundEq
      simp [SyntaxError.mark, Mark.token, foundEq, notEnd]

theorem readProgram_found_ne_endOfInput {tokens : List Token}
    {error : SyntaxError} (member : error ∈ (readProgram tokens).errors) :
    error.found ≠ some .endOfInput := by
  intro foundEq
  have marked :=
    (readProgram_marks_sublist tokens).subset (List.mem_map_of_mem member)
  rcases List.mem_append.mp marked with inTokens | atEnd
  · obtain ⟨token, isToken, markEq⟩ := List.mem_map.mp inTokens
    have kindEq : some token.kind = error.found := congrArg Prod.fst markEq
    rw [foundEq, Option.some.injEq] at kindEq
    exact Cursor.kind_ne_endOfInput isToken kindEq
  · have none : error.found = none :=
      congrArg Prod.fst (List.mem_singleton.mp atEnd)
    rw [foundEq] at none
    cases none

/-- That the input ended is reported last. -/
theorem readProgram_dropLast_not_atEnd {tokens : List Token}
    {error : SyntaxError}
    (member : error ∈ (readProgram tokens).errors.dropLast) :
    error.isAtEnd = false := by
  obtain ⟨left, right, marksEq, inTokens, atEnd⟩ :=
    List.sublist_append_iff.mp (readProgram_marks_sublist tokens)
  have marked : error.mark ∈ (left ++ right).dropLast := by
    rw [← marksEq, ← List.map_dropLast]
    exact List.mem_map_of_mem member
  have inLeft : error.mark ∈ left := by
    cases right with
    | nil =>
        rw [List.append_nil] at marked
        exact (List.dropLast_sublist left).subset marked
    | cons last others =>
        have alone : others = [] := by
          have short := atEnd.length_le
          simpa using short
        rwa [alone, List.dropLast_concat] at marked
  obtain ⟨token, _, markEq⟩ := List.mem_map.mp (inTokens.subset inLeft)
  have foundEq : some token.kind = error.found := congrArg Prod.fst markEq
  rw [SyntaxError.isAtEnd, ← foundEq]
  rfl

/-- Every error is about a token of the input, and the errors come in the
order of their tokens, at most one for each.  Only the last one can be about
the end of the input.  In a source text the positions of the errors ascend. -/
theorem readProgram_errors_ordered (tokens : List Token) :
    (∃ place : Fin (readProgram tokens).errors.length → Fin (withEnd tokens).length,
      StrictMono place ∧ ∀ number,
        ((readProgram tokens).errors.get number).IsAbout
        ((withEnd tokens).get (place number))) ∧
    (∀ error ∈ (readProgram tokens).errors.dropLast, error.isAtEnd = false) ∧
    ∀ source, scan source = .ok tokens →
      ((readProgram tokens).errors.map SyntaxError.position).Pairwise
        Position.Before := by
  have sublist := readProgram_error_tokens_sublist tokens
  refine ⟨?_, fun error => readProgram_dropLast_not_atEnd, ?_⟩
  · obtain ⟨place, placeEq⟩ :=
      List.sublist_iff_exists_fin_orderEmbedding_get_eq.mp sublist
    refine ⟨fun number => place (number.cast (List.length_map _).symm), ?_, ?_⟩
    · exact place.strictMono.comp fun _ _ less => less
    · intro number
      rw [← placeEq]
      simp only [List.get_eq_getElem, List.getElem_map, Fin.val_cast]
      exact SyntaxError.isAbout_token
        (readProgram_found_ne_endOfInput (List.getElem_mem _))
  · intro source scanned
    have cut := Lexical.cut_of_scan scanned
    rw [cut.withEnd_eq_self] at sublist
    have ordered := cut.pairwise_before.sublist sublist
    rw [List.pairwise_map] at ordered ⊢
    exact ordered

/-- Two functions with a mistake in each: the parameters of one are not
opened, and those of the other are not closed. -/
theorem readProgram_errors_ordered_twoFunctions :
    ∃ tokens, scan "fun f) fun g(" = .ok tokens ∧
      (readProgram tokens).errors =
        [⟨some (.symbol .closeParen), .openAfterFunctionName, ⟨1, 6⟩⟩,
          ⟨none, .parameterName, ⟨1, 14⟩⟩] ∧
      ((readProgram tokens).errors.map SyntaxError.position).Pairwise
        Position.Before := by
  have scanned : scan "fun f) fun g(" = .ok [⟨.keyword .funWord, ⟨1, 1⟩⟩,
      ⟨.identifier "f", ⟨1, 5⟩⟩, ⟨.symbol .closeParen, ⟨1, 6⟩⟩,
      ⟨.keyword .funWord, ⟨1, 8⟩⟩, ⟨.identifier "g", ⟨1, 12⟩⟩,
      ⟨.symbol .openParen, ⟨1, 13⟩⟩,
      ⟨.endOfInput, ⟨1, 14⟩⟩] := by decide +kernel
  exact ⟨_, scanned, by decide +kernel,
    (readProgram_errors_ordered _).2.2 _ scanned⟩

end PL0
