import PL0.Proofs.Binary64.Nearest
import PL0.Proofs.Token.Scanning

/-!
# Scanning undoes writing

Tokens are written one after the other, with blanks and comments between any
two of them.  Numbers are written with their digits, words and symbols by
their spellings, and strings in quotes, where a line feed, a tab or a carriage
return may stand as it is or as an escape.  From such a text the scanner reads
the tokens that were written.

What is behind a written token is a blank, the start of a comment, or the end.
None of these goes on with a lexeme, so every token is the longest lexeme
where it stands.
-/

namespace PL0

namespace Lexical

open Scan

/-- What may stand before and behind tokens: blanks and comments, or nothing. -/
structure Space where
  text : List Char
  isGap : Gap text

/-- What stands between two tokens: at least one blank or comment. -/
structure Separator extends Space where
  nonempty : text ≠ []

/-- A token other than the end of a text, and how it is written.  A character
of a string comes with whether it is escaped if it need not be. -/
inductive Written where
  | integer (number : Int64) (nonNegative : 0 ≤ number.toInt)
  | decimal (whole places : List Char) (wholeNumeral : Numeral whole)
      (placesNumeral : Numeral places)
  | string (letters : List (Char × Bool))
  | identifier (name : String) (isWord : Word name.toList)
      (free : ∀ reserved : Keyword, reserved.spelling ≠ name)
  | keyword (reserved : Keyword)
  | symbol (sign : Symbol)

/-- What stands for a character between the quotes of a string. -/
def letterText : Char × Bool → List Char
  | ('"', _) => ['\\', '"']
  | ('\\', _) => ['\\', '\\']
  | ('\n', true) => ['\\', 'n']
  | ('\t', true) => ['\\', 't']
  | ('\r', true) => ['\\', 'r']
  | (c, _) => [c]

namespace Written

/-- The characters that are written for a token. -/
def text : Written → List Char
  | .integer number _ => (toString number.toInt).toList
  | .decimal whole places _ _ => whole ++ '.' :: places
  | .string letters => '"' :: (letters.flatMap letterText ++ ['"'])
  | .identifier name _ _ => name.toList
  | .keyword reserved => reserved.spelling.toList
  | .symbol sign => sign.spelling.toList

/-- The token that is written.  A number with a point is the double nearest to
its value. -/
def Is : Written → Token.Kind → Prop
  | .integer number _, kind => kind = .integer number
  | .decimal whole places _ _, kind =>
      ∃ number : Binary64, kind = .float number ∧
      number.IsNearest (value whole + value places / 10 ^ places.length)
  | .string letters, kind =>
      kind = .string (String.ofList (letters.map Prod.fst))
  | .identifier name _ _, kind => kind = .identifier name
  | .keyword reserved, kind => kind = .keyword reserved
  | .symbol sign, kind => kind = .symbol sign

end Written

/-- Tokens in a row, with the separators between them. -/
def row (separators : Nat → Separator) : List Written → List Char
  | [] => []
  | [last] => last.text
  | first :: next :: others =>
      first.text ++ (separators 0).text ++
        row (fun i => separators (i + 1)) (next :: others)

/-- The digits that are printed for a number have its value. -/
theorem value_toDigits (n : Nat) : value (Nat.toDigits 10 n) = n :=
  (value_eq _).trans Nat.ofDigitChars_ten_toDigits

theorem numeral_toDigits (n : Nat) : Numeral (Nat.toDigits 10 n) where
  nonempty := List.ne_nil_of_length_pos Nat.length_toDigits_pos
  digits _ := Text.isDigit_of_mem_toDigits

/-- Digits behind a point count as a fraction. -/
theorem value_append_scaled (whole places : List Char) :
    (value (whole ++ places) * 10 ^ (-(places.length : ℤ)) : ℚ) =
      value whole + value places / 10 ^ places.length := by
  have parts : value (whole ++ places) = value places + 10 ^ places.length *
      value whole := by
    simp [value, Nat.ofDigits_append]
  rw [parts, zpow_neg, zpow_natCast]
  push_cast
  field_simp
  ring

theorem quoted_letterText (c : Char) (isEscaped : Bool) {body text : List Char}
    (quoted : Quoted body text) : Quoted (letterText (c, isEscaped) ++ body)
    (c :: text) := by
  unfold letterText
  split
  case h_6 letter _ noQuote noEscape _ _ _ same =>
    obtain ⟨rfl, rfl⟩ := Prod.mk.inj same
    exact .plain (by simpa using noQuote) (by simpa using noEscape) quoted
  all_goals
    next same =>
      obtain ⟨rfl, -⟩ := Prod.mk.inj same
      exact .escape (by decide) quoted

theorem quoted_letters (letters : List (Char × Bool)) :
    Quoted (letters.flatMap letterText) (letters.map Prod.fst) := by
  induction letters with
  | nil => exact .nil
  | cons letter letters induction =>
      rw [List.flatMap_cons, List.map_cons]
      exact quoted_letterText letter.1 letter.2 induction

namespace Written

theorem text_integer {number : Int64} (nonNegative : 0 ≤ number.toInt) :
    (integer number nonNegative).text = Nat.toDigits 10 number.toInt.toNat := by
  rw [text, Text.toList_toString_int, if_pos nonNegative]

/-- What is written for a token is a lexeme of it, and of no other. -/
theorem denotes (written : Written) :
    ∃ kind, Denotes written.text kind ∧ ∀ other, written.Is other ↔
      other = kind := by
  cases written with
  | integer number nonNegative =>
      have small : value (Nat.toDigits 10 number.toInt.toNat) < 2 ^ 63 := by
        have := number.toInt_lt
        rw [value_toDigits]
        omega
      have numberEq :
          Int64.ofNat (value (Nat.toDigits 10 number.toInt.toNat)) =
            number := by
        apply Int64.toInt_inj.mp
        rw [Int64.toInt_ofNat_of_lt small, value_toDigits]
        omega
      refine ⟨.integer number, ?_, fun other => Iff.rfl⟩
      rw [text_integer, ← congrArg Token.Kind.integer numberEq]
      exact .integer (numeral_toDigits _) small
  | decimal whole places wholeNumeral placesNumeral =>
      have nearest :=
        Binary64.isNearest_ofDecimal (value (whole ++ places)) (-places.length)
      rw [value_append_scaled] at nearest
      refine ⟨_, .decimal wholeNumeral placesNumeral, ?_⟩
      intro other
      constructor
      · rintro ⟨number, rfl, otherNearest⟩
        rw [otherNearest.unique nearest]
      · rintro rfl
        exact ⟨_, rfl, nearest⟩
  | string letters => exact ⟨_, .string (quoted_letters letters),
      fun other => Iff.rfl⟩
  | identifier name isWord free =>
      have free' (reserved : Keyword) :
          reserved.spelling.toList ≠ name.toList := by
        rw [ne_eq, String.toList_inj]
        exact free reserved
      have denoted := Denotes.identifier isWord free'
      rw [String.ofList_toList] at denoted
      exact ⟨_, denoted, fun other => Iff.rfl⟩
  | keyword reserved => exact ⟨_, .keyword reserved, fun other => Iff.rfl⟩
  | symbol sign => exact ⟨_, .symbol sign, fun other => Iff.rfl⟩

end Written

/-- A text that starts with a blank or as a comment does, or is empty. -/
def Apart (rest : List Char) : Prop :=
  ∀ c ∈ rest.head?, c ∈ [' ', '\t', '\r', '\n', '/']

theorem Space.apart (space : Space) : Apart space.text := by
  intro c isHead
  have isGap := space.isGap
  generalize space.text = gap at isHead isGap
  cases isGap with
  | nil => cases isHead
  | blank isBlank =>
      cases isHead
      exact List.mem_append_left ['/'] isBlank
  | comment =>
      cases isHead
      decide

theorem Separator.apart (separator : Separator) (rest : List Char) :
    Apart (separator.text ++ rest) := by
  intro c isHead
  rw [List.head?_append_of_ne_nil _ separator.nonempty] at isHead
  exact separator.toSpace.apart c isHead

/-- What keeps tokens apart is no digit, no point and no character of a word,
and it makes no symbol longer. -/
theorem Apart.stops {rest : List Char} (apart : Apart rest) : ∀ c ∈ rest.head?,
    c.isDigit = false ∧ c ≠ '.' ∧ c ≠ '*' ∧ isWordChar c = false ∧
      ∀ sign : Symbol, Symbol.ofChars? (sign.spelling.toList ++ [c]) =
        none := by
  intro c isHead
  have isApart := apart c isHead
  simp only [List.mem_cons, List.not_mem_nil, or_false] at isApart
  rcases isApart with rfl | rfl | rfl | rfl | rfl
  all_goals
    refine ⟨rfl, by decide, by decide, rfl, ?_⟩
    intro sign
    cases sign <;> rfl

/-- Nothing behind a written token belongs to it. -/
theorem Written.longest (written : Written) {rest : List Char}
    (apart : Apart rest) : Longest written.text rest := by
  have noDigit : ∀ c ∈ rest.head?, c.isDigit = false :=
    fun c isHead => (apart.stops c isHead).1
  have noWordChar : ∀ c ∈ rest.head?, isWordChar c = false := fun c isHead =>
    (apart.stops c isHead).2.2.2.1
  cases written with
  | integer number nonNegative =>
      rw [text_integer, longest_integer_iff (numeral_toDigits _)]
      refine ⟨noDigit, ?_⟩
      rintro c ⟨tail, rfl⟩
      exact absurd rfl (apart.stops '.' rfl).2.1
  | decimal whole places wholeNumeral placesNumeral =>
      exact (longest_decimal_iff wholeNumeral placesNumeral).mpr noDigit
  | string letters => exact longest_string (quoted_letters letters) rest
  | identifier name isWord => exact (longest_word_iff isWord).mpr noWordChar
  | keyword reserved =>
      exact (longest_word_iff (.of_spelling reserved)).mpr noWordChar
  | symbol sign =>
      exact (longest_symbol_iff sign).mpr fun c isHead =>
        (apart.stops c isHead).2.2.2.2 sign

theorem Gap.append {first second : List Char} (isGap : Gap first)
    (isGap' : Gap second) : Gap (first ++ second) := by
  induction isGap with
  | nil => exact isGap'
  | blank isBlank _ induction => exact .blank isBlank induction
  | comment unended _ induction =>
      simp only [List.cons_append, List.append_assoc]
      exact .comment unended induction

/-- A text that stands behind the characters `before` is cut into the tokens
that are written in it, and there is no other list of kinds that they can
be. -/
def Reads (before text : List Char) (written : List Written) : Prop :=
  ∃ tokens kinds, Cut before text tokens ∧ tokens.map Token.kind =
    kinds ++ [.endOfInput] ∧
    ∀ others, List.Forall₂ Written.Is written others ↔ others = kinds

theorem reads_gap {gap : List Char} (isGap : Gap gap) (before : List Char) :
    Reads before gap [] :=
  ⟨_, [], .finish isGap, rfl, fun _ => List.forall₂_nil_left_iff⟩

theorem reads_token {before rest : List Char} {others : List Written}
    (opening : Space) (written : Written) (apart : Apart rest)
    (more : Reads (before ++ opening.text ++ written.text) rest others) :
    Reads before (opening.text ++ written.text ++ rest)
      (written :: others) := by
  obtain ⟨tokens, kinds, cut, kindsEq, exactlyOthers⟩ := more
  obtain ⟨kind, denotes, exactly⟩ := written.denotes
  have noComment : ¬ (written.text = ['/'] ∧ rest.head? = some '*') := by
    rintro ⟨-, isStar⟩
    exact absurd rfl (apart.stops '*' isStar).2.2.1
  refine ⟨_, kind :: kinds,
    .token opening.isGap (written.longest apart) noComment denotes cut, by
      rw [List.map_cons, kindsEq]; rfl, ?_⟩
  intro found
  rw [List.forall₂_cons_left_iff]
  simp only [exactly, exactlyOthers, exists_and_left, exists_eq_left]

theorem reads_row (separators : Nat → Separator) (written : List Written)
    (opening closing : Space) (before : List Char) :
    Reads before (opening.text ++ row separators written ++ closing.text)
      written := by
  induction separators, written
    using row.induct generalizing opening before with
  | case1 separators =>
      rw [row, List.append_nil]
      exact reads_gap (opening.isGap.append closing.isGap) before
  | case2 separators last =>
      rw [row]
      exact reads_token opening last closing.apart (reads_gap closing.isGap _)
  | case3 separators first next others induction =>
      have more :=
        induction (separators 0).toSpace (before ++ opening.text ++ first.text)
      have apart : Apart ((separators 0).text ++
          row (fun i => separators (i + 1)) (next :: others) ++
            closing.text) := by
        rw [List.append_assoc]
        exact (separators 0).apart _
      have whole := reads_token opening first apart more
      rw [row]
      simpa only [List.append_assoc] using whole

end Lexical

/-- Tokens that are written with separators between them are scanned as the
tokens they are, with the end of the text behind them. -/
theorem scan_row (opening closing : Lexical.Space)
    (separators : Nat → Lexical.Separator) (written : List Lexical.Written) :
    ∃ tokens kinds,
      scan (String.ofList (opening.text ++ Lexical.row separators written ++
        closing.text)) = .ok tokens ∧
      tokens.map Token.kind = kinds ++ [.endOfInput] ∧
      ∀ others, List.Forall₂ Lexical.Written.Is written others ↔
        others = kinds := by
  obtain ⟨tokens, kinds, cut, kindsEq, exactly⟩ :=
    Lexical.reads_row separators written opening closing []
  have scanned := Lexical.tokens_of_cut cut
  rw [← Position.after_behind] at scanned
  refine ⟨tokens, kinds, ?_, kindsEq, exactly⟩
  rw [scan, String.toList_ofList]
  exact scanned

end PL0
