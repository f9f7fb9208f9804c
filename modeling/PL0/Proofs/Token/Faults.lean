import PL0.Proofs.Token.Names

/-!
# What is wrong with a text that has no tokens

A character that starts no token is no blank, for blanks are skipped.  A
number that is too large is made of digits.
-/

namespace PL0

/-- What a fault of a source text can show of the text. -/
def ScanFault.IsFound : ScanFault → Prop
  | .unexpectedCharacter c => Scan.isBlank c = false
  | .integerTooLarge digits => ∀ c ∈ digits.toList, c.isDigit = true
  | .unterminatedComment | .unterminatedString | .endInString
  | .unknownEscape _ => True

namespace Scan

theorem eq_error_of_map_eq_error {α β ε : Type} {f : α → β}
    {result : Except ε α} {error : ε} (failed : result.map f = .error error) :
    result = .error error := by
  cases result with
  | error fault =>
      cases failed
      rfl
  | ok value => cases failed

variable {start stop : Position} {text rest : Located} {error : ScanError}

theorem skip_error_isFound {opened : Option Position}
    (failed : skip opened text = .error error) : error.fault.IsFound := by
  fun_induction skip opened text with
  | case1 => cases failed
  | case2 =>
      cases failed
      trivial
  | case3 _ _ _ induction => exact induction failed
  | case4 _ _ _ _ _ induction => exact induction failed
  | case5 => cases failed
  | case6 _ _ _ _ induction => exact induction failed
  | case7 _ _ _ _ induction => exact induction failed

/-- A text from which blanks were skipped does not start with one. -/
theorem not_isBlank_of_skip {opened : Option Position} {c : Char}
    (skipped : skip opened text = .ok ((c, start) :: rest)) :
    isBlank c = false := by
  fun_induction skip opened text with
  | case1 => cases skipped
  | case2 => cases skipped
  | case3 _ _ _ induction => exact induction skipped
  | case4 _ _ _ _ _ induction => exact induction skipped
  | case5 _ _ _ _ noBlank =>
      cases skipped
      simpa using noBlank
  | case6 _ _ _ _ induction => exact induction skipped
  | case7 _ _ _ _ induction => exact induction skipped

theorem stringBody_error_isFound
    (failed : stringBody start stop text = .error error) :
    error.fault.IsFound := by
  fun_induction stringBody start stop text with
  | case1 =>
      cases failed
      trivial
  | case2 => cases failed
  | case3 =>
      cases failed
      trivial
  | case4 =>
      cases failed
      trivial
  | case5 _ _ _ _ _ _ _ induction =>
      exact induction (eq_error_of_map_eq_error failed)
  | case6 _ _ _ _ _ induction =>
      exact induction (eq_error_of_map_eq_error failed)

theorem integer_error_isFound {digits : List Char}
    (areDigits : ∀ c ∈ digits, c.isDigit = true)
    (failed : integer start digits = .error error) : error.fault.IsFound := by
  rw [integer] at failed
  split at failed
  · cases failed
  · cases failed
    simpa [ScanFault.IsFound] using areDigits

theorem fraction_error_isFound {whole : List Char}
    (areDigits : ∀ c ∈ whole, c.isDigit = true)
    (failed : fraction start whole text = .error error) :
    error.fault.IsFound := by
  unfold fraction at failed
  split at failed
  · split at failed
    · exact integer_error_isFound areDigits (eq_error_of_map_eq_error failed)
    · cases failed
  · exact integer_error_isFound areDigits (eq_error_of_map_eq_error failed)

theorem token_error_isFound {c : Char} (noBlank : isBlank c = false)
    (failed : token stop c start text = .error error) :
    error.fault.IsFound := by
  rw [token] at failed
  split at failed
  · cases failed
  split at failed
  · next isDigit =>
    refine fraction_error_isFound ?_ failed
    rw [List.forall_mem_cons, List.forall_mem_map]
    exact ⟨isDigit,
      fun located member => List.mem_takeWhile_imp (p := isDigitAt) member⟩
  split at failed
  · exact stringBody_error_isFound (eq_error_of_map_eq_error failed)
  · rw [symbol] at failed
    split at failed
    · cases failed
    · cases failed
    · cases failed
      exact noBlank

theorem tokens_error_isFound (failed : tokens stop text = .error error) :
    error.fault.IsFound := by
  fun_induction tokens stop text with
  | case1 _ fault skipped =>
      cases failed
      exact skip_error_isFound skipped
  | case2 => cases failed
  | case3 _ c start rest skipped fault read =>
      cases failed
      exact token_error_isFound (not_isBlank_of_skip skipped) read
  | case4 _ _ _ _ _ _ _ _ induction =>
      exact induction (eq_error_of_map_eq_error failed)

end Scan

theorem scan_error_isFound {source : String} {error : ScanError}
    (failed : scan source = .error error) : error.fault.IsFound :=
  Scan.tokens_error_isFound failed

end PL0
