import PL0.Token.Basic

/-!
# Scanning

A source text is cut into tokens from left to right.  Between tokens blanks
and comments are skipped; each token is as long as it can be.  The end of the
text is a token of its own, and the first fault ends the scan.

Every character carries its position from the start, so that a token stands
where its first character stands.
-/

namespace PL0

/-- Why a text has no tokens. -/
inductive ScanFault where
  | unterminatedComment
  | unexpectedCharacter (c : Char)
  | unterminatedString
  /-- The text ends after the backslash of an escape. -/
  | endInString
  | unknownEscape (c : Char)
  /-- An integer that does not fit in 64 bits with a sign. -/
  | integerTooLarge (digits : String)
deriving DecidableEq

namespace ScanFault

/-- The wording of a fault, without its position. -/
def detail : ScanFault → String
  | .unterminatedComment => "Unterminated block comment"
  | .unexpectedCharacter c =>
    "Unexpected character: '" ++ String.singleton c ++ "'"
  | .unterminatedString => "Unterminated string literal"
  | .endInString => "Unexpected end of file in string literal"
  | .unknownEscape c => "Unknown escape sequence: \\" ++ String.singleton c
  | .integerTooLarge digits => "Invalid integer literal: " ++ digits

end ScanFault

/-- A fault and where it was noticed. -/
structure ScanError where
  fault : ScanFault
  position : Position
deriving DecidableEq

/-- The message for a fault in a source text. -/
def ScanError.message (error : ScanError) : String :=
  "Lexer error at line " ++ toString error.position.line ++ ", column " ++
    toString error.position.column ++ ": " ++ error.fault.detail

namespace Scan

/-- Characters with their positions. -/
abbrev Located := List (Char × Position)

/-- A text that starts at `position`, every character with its own position. -/
def locate (position : Position) : List Char → Located
  | [] => []
  | c :: text => (c, position) :: locate (position.next c) text

/-- The position of the next character, or of the end of the text. -/
def here (stop : Position) (text : Located) : Position :=
  text.head?.elim stop Prod.snd

/-- The characters that separate tokens. -/
def isBlank (c : Char) : Bool :=
  c = ' ' || c = '\t' || c = '\r' || c = '\n'

/-- The characters an identifier may go on with. -/
def isWordChar (c : Char) : Bool :=
  c.isAlphanum || c = '_'

/-- Skip blanks and comments.  The first argument is where the comment begins
whose end is still to come, if there is one. -/
def skip : Option Position → Located → Except ScanError Located
  | none, [] => .ok []
  | some start, [] => .error ⟨.unterminatedComment, start⟩
  | none, ('/', start) :: ('*', _) :: text => skip (some start) text
  | none, (c, position) :: text =>
    if isBlank c then skip none text else .ok ((c, position) :: text)
  | some _, ('*', _) :: ('/', _) :: text => skip none text
  | some start, _ :: text => skip (some start) text

/-- The character that an escaped character stands for. -/
def unescape : Char → Option Char
  | 'n' => some '\n'
  | 't' => some '\t'
  | 'r' => some '\r'
  | '\\' => some '\\'
  | '"' => some '"'
  | _ => none

/-- The value of a string whose opening quote stands at `start`, and the text
after its closing quote. -/
def stringBody (start stop : Position) :
    Located → Except ScanError (List Char × Located)
  | [] => .error ⟨.unterminatedString, start⟩
  | (c, _) :: text =>
    if c = '"' then .ok ([], text)
    else if c = '\\' then
      match text with
      | [] => .error ⟨.endInString, stop⟩
      | (escaped, _) :: text =>
        match unescape escaped with
        | none => .error ⟨.unknownEscape escaped, here stop text⟩
        | some plain => (stringBody start stop text).map fun (value, rest) =>
          (plain :: value, rest)
    else (stringBody start stop text).map fun (value, rest) =>
      (c :: value, rest)

/-- The value of a run of decimal digits. -/
def digitsValue (digits : List Char) : Nat :=
  digits.foldl (fun value digit => 10 * value + (digit.toNat - '0'.toNat)) 0

/-- The integer token of a run of digits at `start`. -/
def integer (start : Position) (digits : List Char) :
    Except ScanError Token.Kind :=
  if digitsValue digits < Nat.pow 2 63
    then .ok (.integer (.ofNat (digitsValue digits)))
  else .error ⟨.integerTooLarge (String.ofList digits), start⟩

/-- The number that the digits `whole`, a point and the digits `places` stand
for. -/
def decimal (whole places : List Char) : Token.Kind :=
  .float (.ofDecimal (digitsValue (whole ++ places)) (-(places.length : Int)))

/-- Whether a located character is a decimal digit. -/
def isDigitAt (c : Char × Position) : Bool :=
  c.1.isDigit

/-- Whether a located character can stand inside an identifier. -/
def isWordCharAt (c : Char × Position) : Bool :=
  isWordChar c.1

/-- The number that begins with the digits `whole`: a decimal if a point and a
digit follow them, an integer otherwise. -/
def fraction (start : Position) (whole : List Char) (rest : Located) :
    Except ScanError (Token.Kind × Located) :=
  match rest with
  | ('.', point) :: tail =>
    if (tail.takeWhile isDigitAt).isEmpty then
      (integer start whole).map fun kind => (kind, ('.', point) :: tail)
    else
      .ok (decimal whole ((tail.takeWhile isDigitAt).map Prod.fst),
        tail.dropWhile isDigitAt)
  | _ => (integer start whole).map fun kind => (kind, rest)

/-- The number whose first digit is `c` at `start`. -/
def number (c : Char) (start : Position) (text : Located) :
    Except ScanError (Token.Kind × Located) :=
  fraction start (c :: (text.takeWhile isDigitAt).map Prod.fst)
    (text.dropWhile isDigitAt)

/-- The word whose first letter is `c`: a reserved word, or else an
identifier. -/
def word (c : Char) (text : Located) : Token.Kind × Located :=
  let name := String.ofList (c :: (text.takeWhile isWordCharAt).map Prod.fst)
  ((Keyword.ofSpelling? name).elim (.identifier name) .keyword,
    text.dropWhile isWordCharAt)

/-- The symbol that starts with `c`, of two characters if they make one. -/
def symbol (c : Char) (start : Position) (text : Located) :
    Except ScanError (Token.Kind × Located) :=
  match text.head?.bind fun d => Symbol.ofChars? [c, d.1],
    Symbol.ofChars? [c] with
  | some sign, _ => .ok (.symbol sign, text.tail)
  | none, some sign => .ok (.symbol sign, text)
  | none, none => .error ⟨.unexpectedCharacter c, start⟩

/-- The token that starts with the character `c` at `start`, and the text
after it. -/
def token (stop : Position) (c : Char) (start : Position) (text : Located) :
    Except ScanError (Token.Kind × Located) :=
  if c.isAlpha then .ok (word c text)
  else if c.isDigit then number c start text
  else if c = '"' then
    (stringBody start stop text).map fun (value, rest) =>
      (.string (String.ofList value), rest)
  else symbol c start text

theorem length_dropWhile_le {α : Type} (p : α → Bool) (list : List α) :
    (list.dropWhile p).length ≤ list.length :=
  (List.dropWhile_sublist p).length_le

/-- Skipping never adds to a text. -/
theorem length_le_of_skip {opened : Option Position} {text rest : Located}
    (skipped : skip opened text = .ok rest) : rest.length ≤ text.length := by
  fun_induction skip opened text with
  | case1 => simp_all
  | case2 => simp at skipped
  | case3 _ _ _ induction =>
    have := induction skipped
    simp only [List.length_cons]
    omega
  | case4 _ _ _ _ _ induction =>
    have := induction skipped
    simp only [List.length_cons]
    omega
  | case5 => simp_all
  | case6 _ _ _ _ induction =>
    have := induction skipped
    simp only [List.length_cons]
    omega
  | case7 _ _ _ _ induction =>
    have := induction skipped
    simp only [List.length_cons]
    omega

/-- A string ends inside the text in which it starts. -/
theorem length_le_of_stringBody {start stop : Position} {text rest : Located}
    {value : List Char}
    (read : stringBody start stop text = .ok (value, rest)) :
    rest.length ≤ text.length := by
  fun_induction stringBody start stop text generalizing value rest with
  | case1 => simp at read
  | case2 => simp_all
  | case3 => simp at read
  | case4 => simp at read
  | case5 _ _ _ text _ _ _ induction =>
    cases inner : stringBody start stop text with
    | error => simp [inner, Except.map] at read
    | ok found =>
      have := induction inner
      simp only [inner, Except.map, Except.ok.injEq, Prod.mk.injEq] at read
      simp only [List.length_cons, ← read.2]
      omega
  | case6 _ _ text _ _ induction =>
    cases inner : stringBody start stop text with
    | error => simp [inner, Except.map] at read
    | ok found =>
      have := induction inner
      simp only [inner, Except.map, Except.ok.injEq, Prod.mk.injEq] at read
      simp only [List.length_cons, ← read.2]
      omega

/-- A number adds nothing to the text after its first digits. -/
theorem length_le_of_fraction {start : Position} {whole : List Char}
    {text rest : Located} {kind : Token.Kind}
    (read : fraction start whole text = .ok (kind, rest)) :
    rest.length ≤ text.length := by
  have ofInteger {tail : Located}
      (read : (integer start whole).map (fun kind => (kind, tail)) =
        .ok (kind, rest)) :
      rest = tail := by
    cases value : integer start whole <;> simp_all [Except.map]
  unfold fraction at read
  split at read
  · next point tail =>
    split at read
    · exact Nat.le_of_eq (congrArg List.length (ofInteger read))
    · simp only [Except.ok.injEq, Prod.mk.injEq] at read
      rw [← read.2]
      exact Nat.le_succ_of_le (length_dropWhile_le isDigitAt tail)
  · exact Nat.le_of_eq (congrArg List.length (ofInteger read))

/-- A token takes its first character and adds nothing to the text after it. -/
theorem length_le_of_token {stop start : Position} {c : Char}
    {text rest : Located} {kind : Token.Kind}
    (read : token stop c start text = .ok (kind, rest)) :
    rest.length ≤ text.length := by
  unfold token at read
  split at read
  · simp only [word, Except.ok.injEq, Prod.mk.injEq] at read
    simpa only [← read.2] using length_dropWhile_le isWordCharAt text
  split at read
  · exact Nat.le_trans (length_le_of_fraction read)
      (length_dropWhile_le isDigitAt text)
  split at read
  · cases body : stringBody start stop text with
    | error => simp [body, Except.map] at read
    | ok found =>
      have bound := length_le_of_stringBody body
      simp only [body, Except.map, Except.ok.injEq, Prod.mk.injEq] at read
      simpa only [← read.2] using bound
  · unfold symbol at read
    split at read
    · simp only [Except.ok.injEq, Prod.mk.injEq] at read
      simp [← read.2]
    · simp only [Except.ok.injEq, Prod.mk.injEq] at read
      simp [← read.2]
    · simp at read

/-- The tokens of a text that ends at `stop`. -/
def tokens (stop : Position) (text : Located) : Except ScanError (List Token) :=
  match _skipped : skip none text with
  | .error error => .error error
  | .ok [] => .ok [⟨.endOfInput, stop⟩]
  | .ok ((c, start) :: rest) =>
    match _read : token stop c start rest with
    | .error error => .error error
    | .ok (kind, rest) => (tokens stop rest).map fun others =>
      ⟨kind, start⟩ :: others
termination_by text.length
decreasing_by
  have := length_le_of_skip _skipped
  have := length_le_of_token _read
  simp_all
  omega

end Scan

/-- The tokens of a source text, the last of them for its end. -/
def scan (source : String) : Except ScanError (List Token) :=
  let text := source.toList
  Scan.tokens (Position.first.after text) (Scan.locate Position.first text)

end PL0
