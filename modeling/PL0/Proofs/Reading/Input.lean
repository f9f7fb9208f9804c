import Mathlib.Data.List.TakeWhile
import PL0.Proofs.Grammar.Programs

/-!
# The input and its end

A sequence of tokens is read up to the first token for the end of the input.
If the last token is none, one is put behind it, so that there is always a
token at which reading can stop.  What comes behind the first one is never
read.
-/

namespace PL0

/-- The tokens with one for the end of the input behind them.  Where there was
none, it stands where the last token stands. -/
def withEnd (tokens : List Token) : List Token :=
  if tokens.getLast?.any fun token => token.kind = .endOfInput then tokens
  else tokens ++ [⟨.endOfInput, tokens.getLast?.elim ⟨0, 0⟩ Token.position⟩]

namespace Cursor

variable {tokens before : List Token}

theorem ofTokens_of_end {stop : Token}
    (unended : ∀ token ∈ before, token.kind ≠ .endOfInput)
    (ends : stop.kind = .endOfInput)
    (unread : List Token) : ofTokens (before ++ stop :: unread) = ⟨before,
      stop.position, 0⟩ := by
  have notFound :
      before.find? (fun token => token.kind = .endOfInput) = none := by
    simpa using unended
  unfold ofTokens
  rw [List.takeWhile_append_of_pos (by simpa using unended), List.find?_append,
    notFound]
  simp [ends]

theorem ofTokens_of_unended
    (unended : ∀ token ∈ tokens, token.kind ≠ .endOfInput) :
    ofTokens tokens = ⟨tokens,
      tokens.getLast?.elim ⟨0, 0⟩ Token.position, 0⟩ := by
  have notFound :
      tokens.find? (fun token => token.kind = .endOfInput) = none := by
    simpa using unended
  unfold ofTokens
  rw [List.takeWhile_eq_self_iff.mpr (by simpa using unended), notFound]
  cases tokens.getLast? <;> rfl

theorem kind_ne_endOfInput {token : Token}
    (member : token ∈ (ofTokens tokens).tokens) : token.kind ≠ .endOfInput := by
  simpa using List.mem_takeWhile_imp member

end Cursor

/-- What is read of the input is all that comes before its first end. -/
theorem withEnd_eq (tokens : List Token) :
    ∃ unread, withEnd tokens = (Cursor.ofTokens tokens).tokens ++
      ⟨.endOfInput, (Cursor.ofTokens tokens).stop⟩ :: unread := by
  cases found : tokens.find? fun token => token.kind = .endOfInput with
  | some stop =>
      obtain ⟨ends, before, unread, rfl, unended⟩ :=
        List.find?_eq_some_iff_append.mp found
      rw [Cursor.ofTokens_of_end (by simpa using unended) (by simpa using ends)]
      have stopEq : stop = ⟨.endOfInput, stop.position⟩ := by
        rw [← of_decide_eq_true ends]
      unfold withEnd
      split
      · exact ⟨unread, by rw [← stopEq]⟩
      · exact ⟨_, by rw [List.append_assoc, List.cons_append, ← stopEq]⟩
  | none =>
      have unended : ∀ token ∈ tokens, token.kind ≠ .endOfInput := by
        simpa using found
      rw [Cursor.ofTokens_of_unended unended]
      refine ⟨[], if_neg ?_⟩
      rw [Option.any_eq_true]
      rintro ⟨last, isLast, ends⟩
      exact unended last (List.mem_of_getLast? isLast) (of_decide_eq_true ends)

end PL0
