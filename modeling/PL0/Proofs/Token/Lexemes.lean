import Mathlib.Data.Nat.Digits.Defs
import PL0.Proofs.Text.Parts
import PL0.Token.Scan

/-!
# Lexemes

How tokens are written.  A source text is cut into lexemes with gaps between
them.  A gap is made of blanks and comments, and a comment ends where it first
can.  A lexeme is the longest that starts where it starts; what it stands for
is a token.

The definitions do not say how a text is cut, only which cuts are right.  For
every shape of lexeme it is then shown where one ends: by the characters
behind it one sees whether it is the longest.
-/

namespace PL0

/-- The position behind the given characters: lines are counted by line feeds,
and columns by the characters since the last one. -/
def Position.behind (before : List Char) : Position where
  line := 1 + before.count '\n'
  column := 1 + (before.reverse.takeWhile (· ≠ '\n')).length

namespace Lexical

/-- Blanks and comments.  A comment ends with the first `*/` after its start. -/
inductive Gap : List Char → Prop where
  | nil : Gap []
  | blank {c : Char} {rest : List Char} (isBlank : c ∈ [' ', '\t', '\r', '\n'])
      (more : Gap rest) : Gap (c :: rest)
  | comment {body rest : List Char} (unended : ¬ ['*', '/'] <:+: body)
      (more : Gap rest) :
      Gap ('/' :: '*' :: (body ++ '*' :: '/' :: rest))

/-- A letter followed by letters, digits and underscores. -/
inductive Word : List Char → Prop where
  | mk {c : Char} {others : List Char} (letter : c.isAlpha = true)
      (wordChars : ∀ d ∈ others, d.isAlphanum = true ∨ d = '_') :
        Word (c :: others)

/-- One or more decimal digits. -/
structure Numeral (text : List Char) : Prop where
  nonempty : text ≠ []
  digits : ∀ c ∈ text, c.isDigit = true

/-- The number that decimal digits stand for. -/
def value (digits : List Char) : Nat :=
  Nat.ofDigits 10 (digits.reverse.map fun digit => digit.toNat - '0'.toNat)

/-- What can be escaped in a string, with what it then stands for. -/
def escapes : List (Char × Char) :=
  [('n', '\n'), ('t', '\t'), ('r', '\r'), ('\\', '\\'), ('"', '"')]

/-- What stands between the quotes of a string, and the text it is for. -/
inductive Quoted : List Char → List Char → Prop where
  | nil : Quoted [] []
  | plain {c : Char} {body text : List Char} (noQuote : c ≠ '"')
      (noEscape : c ≠ '\\')
      (more : Quoted body text) : Quoted (c :: body) (c :: text)
  | escape {escaped meant : Char} {body text : List Char}
      (known : (escaped, meant) ∈ escapes)
      (more : Quoted body text) :
        Quoted ('\\' :: escaped :: body) (meant :: text)

/-- The shapes of lexemes. -/
inductive Lexeme : List Char → Prop where
  | word {text : List Char} (isWord : Word text) : Lexeme text
  | integer {digits : List Char} (numeral : Numeral digits) : Lexeme digits
  | decimal {whole places : List Char} (wholeNumeral : Numeral whole)
      (placesNumeral : Numeral places) : Lexeme (whole ++ '.' :: places)
  | string {body text : List Char} (quoted : Quoted body text) :
      Lexeme ('"' :: (body ++ ['"']))
  | symbol (sign : Symbol) : Lexeme sign.spelling.toList

/-- What a lexeme stands for.  An integer of `2 ^ 63` or more stands for
nothing. -/
inductive Denotes : List Char → Token.Kind → Prop where
  | keyword (reserved : Keyword) :
      Denotes reserved.spelling.toList (.keyword reserved)
  | identifier {name : List Char} (isWord : Word name)
      (free : ∀ reserved : Keyword, reserved.spelling.toList ≠ name) :
      Denotes name (.identifier (String.ofList name))
  | integer {digits : List Char} (numeral : Numeral digits)
      (small : value digits < 2 ^ 63) :
      Denotes digits (.integer (.ofNat (value digits)))
  | decimal {whole places : List Char} (wholeNumeral : Numeral whole)
      (placesNumeral : Numeral places) :
      Denotes (whole ++ '.' :: places)
        (.float (.ofDecimal (value (whole ++ places)) (-(places.length : Int))))
  | string {body text : List Char} (quoted : Quoted body text) :
      Denotes ('"' :: (body ++ ['"'])) (.string (String.ofList text))
  | symbol (sign : Symbol) : Denotes sign.spelling.toList (.symbol sign)

/-- No longer lexeme starts where this one does. -/
structure Longest (lexeme rest : List Char) : Prop where
  isLexeme : Lexeme lexeme
  longest : ∀ other, Lexeme other → other <+: lexeme ++ rest →
    other.length ≤ lexeme.length

/-- The tokens of a text that stands behind the characters `before`.  Each
token stands where its lexeme starts.  A `/` with a `*` directly behind it is
no lexeme. -/
inductive Cut : List Char → List Char → List Token → Prop where
  | finish {before gap : List Char} (isGap : Gap gap) :
      Cut before gap [⟨.endOfInput, .behind (before ++ gap)⟩]
  | token {before gap lexeme rest : List Char} {kind : Token.Kind}
      {tokens : List Token} (isGap : Gap gap) (longest : Longest lexeme rest)
      (noComment : ¬ (lexeme = ['/'] ∧ rest.head? = some '*'))
        (denotes : Denotes lexeme kind)
      (more : Cut (before ++ gap ++ lexeme) rest tokens) :
      Cut before (gap ++ lexeme ++ rest)
        (⟨kind, .behind (before ++ gap)⟩ :: tokens)

end Lexical

theorem Keyword.ofSpelling?_eq_some_iff {name : String} {reserved : Keyword} :
    Keyword.ofSpelling? name = some reserved ↔ reserved.spelling = name := by
  constructor
  · intro found
    simpa using List.find?_some found
  · rintro rfl
    cases reserved <;> rfl

theorem Symbol.ofChars?_eq_some_iff {chars : List Char} {sign : Symbol} :
    Symbol.ofChars? chars = some sign ↔ sign.spelling.toList = chars := by
  constructor
  · intro found
    simpa using List.find?_some found
  · rintro rfl
    cases sign <;> rfl

namespace Lexical

open Scan

theorem isWordChar_iff {c : Char} :
    isWordChar c = true ↔ c.isAlphanum = true ∨ c = '_' := by
  simp [isWordChar]

theorem Word.of_spelling (reserved : Keyword) :
    Word reserved.spelling.toList := by
  have checked : reserved.spelling.toList.all isWordChar = true ∧
      reserved.spelling.toList.head?.any Char.isAlpha = true := by
    cases reserved <;> exact ⟨rfl, rfl⟩
  generalize reserved.spelling.toList = spelling at checked
  cases spelling with
  | nil => exact absurd checked.2 (by decide)
  | cons c others =>
      obtain ⟨⟨-, inOthers⟩, letter⟩ :
        (isWordChar c = true ∧ ∀ d ∈ others, isWordChar d = true) ∧
          c.isAlpha = true := by simpa using checked
      exact .mk letter fun d member => isWordChar_iff.mp (inOthers d member)

/-- The characters that start no symbol, and not a gap either. -/
theorem spelling_head {sign : Symbol} {c : Char} {others : List Char}
    (spelled : sign.spelling.toList = c :: others) :
    c.isAlpha = false ∧ c.isDigit = false ∧ c ≠ '"' ∧ isBlank c = false := by
  have checked : sign.spelling.toList.head?.all
      (fun c => !c.isAlpha && !c.isDigit && c ≠ '"' && !isBlank c) = true := by
    cases sign <;> rfl
  rw [spelled] at checked
  simpa [and_assoc] using checked

theorem Numeral.isDigit_head {c : Char} {others : List Char}
    (numeral : Numeral (c :: others)) : c.isDigit = true :=
  numeral.digits c (by simp)

/-- The first character of a lexeme tells its shape. -/
theorem Lexeme.shape_of_head {c : Char} {others : List Char}
    (lexeme : Lexeme (c :: others)) :
    (c.isAlpha = true ∧ Word (c :: others)) ∨
    (c.isDigit = true ∧ (Numeral (c :: others) ∨
      ∃ whole places, c :: others = whole ++ '.' :: places ∧ Numeral whole ∧
        Numeral places)) ∨
    (c = '"' ∧ ∃ body text, others = body ++ ['"'] ∧ Quoted body text) ∨
    ∃ sign : Symbol, sign.spelling.toList = c :: others := by
  generalize textEq : c :: others = text at lexeme
  cases lexeme with
  | word isWord =>
      subst textEq
      obtain ⟨letter, _⟩ := id isWord
      exact .inl ⟨letter, isWord⟩
  | integer numeral =>
      subst textEq
      exact .inr (.inl ⟨numeral.isDigit_head, .inl numeral⟩)
  | @decimal whole places wholeNumeral placesNumeral =>
      obtain ⟨digit, digits, rfl⟩ :=
        List.exists_cons_of_ne_nil wholeNumeral.nonempty
      obtain ⟨rfl, -⟩ := List.cons.inj textEq
      exact .inr (.inl ⟨wholeNumeral.isDigit_head,
        .inr ⟨_, places, rfl, wholeNumeral, placesNumeral⟩⟩)
  | @string body text quoted =>
      obtain ⟨rfl, rfl⟩ := List.cons.inj textEq
      exact .inr (.inr (.inl ⟨rfl, body, text, rfl, quoted⟩))
  | symbol sign => exact .inr (.inr (.inr ⟨sign, rfl⟩))

/-- A longest lexeme is no part of a longer one. -/
theorem Longest.not_lexeme_append {lexeme more rest : List Char}
    (longest : Longest lexeme rest) (follows : more <+: rest)
    (nonempty : more ≠ []) : ¬ Lexeme (lexeme ++ more) := by
  intro longer
  have bound :=
    longest.longest _ longer ((List.prefix_append_right_inj lexeme).mpr follows)
  have := List.length_pos_iff.mpr nonempty
  rw [List.length_append] at bound
  omega

/-- To be the longest it is enough to be as long as those with the same first
character. -/
theorem Longest.of_head {c : Char} {more rest : List Char}
    (isLexeme : Lexeme (c :: more))
    (longest : ∀ others, Lexeme (c :: others) → others <+: more ++ rest →
      others.length ≤ more.length) : Longest (c :: more) rest := by
  refine ⟨isLexeme, ?_⟩
  rintro (_ | ⟨d, others⟩) other within
  · simp
  · obtain ⟨rfl, tailWithin⟩ := List.cons_prefix_cons.mp within
    exact Nat.succ_le_succ (longest others other tailWithin)

theorem longest_word_iff {word rest : List Char} (isWord : Word word) :
    Longest word rest ↔ ∀ c ∈ rest.head?, isWordChar c = false := by
  obtain @⟨c, more, letter, wordChars⟩ := id isWord
  constructor
  · intro longest d isHead
    obtain ⟨tail, rfl⟩ := List.head?_eq_some_iff.mp isHead
    by_contra goesOn
    rw [Bool.not_eq_false, isWordChar_iff] at goesOn
    have longer : Word (c :: (more ++ [d])) :=
      .mk letter (List.forall_mem_append.mpr ⟨wordChars, by simpa using goesOn⟩)
    exact longest.not_lexeme_append (List.prefix_append [d] tail) (by simp)
      (.word longer)
  · intro stop
    refine .of_head (.word isWord) ?_
    intro others other within
    rcases other.shape_of_head with ⟨-, ⟨-, inOthers⟩⟩ | ⟨isDigit, -⟩ |
      ⟨rfl, -⟩ | ⟨sign, spelled⟩
    · exact Text.length_le_of_stop within (fun d member =>
        isWordChar_iff.mpr (inOthers d member))
        stop
    · simp [Text.isAlpha_of_isDigit isDigit] at letter
    · exact absurd letter (by decide)
    · simp [(spelling_head spelled).1] at letter

theorem Numeral.append {digits more : List Char} (numeral : Numeral digits)
    (inMore : ∀ c ∈ more, c.isDigit = true) : Numeral (digits ++ more) where
  nonempty := by simp [numeral.nonempty]
  digits := List.forall_mem_append.mpr ⟨numeral.digits, inMore⟩

/-- A lexeme that starts with a digit is a number. -/
theorem Lexeme.number_of_isDigit {c : Char} {others : List Char}
    (lexeme : Lexeme (c :: others)) (isDigit : c.isDigit = true) :
    Numeral (c :: others) ∨
      ∃ whole places, c :: others = whole ++ '.' :: places ∧ Numeral whole ∧
        Numeral places := by
  rcases lexeme.shape_of_head with ⟨letter, -⟩ | ⟨-, number⟩ | ⟨rfl, -⟩ |
    ⟨sign, spelled⟩
  · simp [Text.isAlpha_of_isDigit isDigit] at letter
  · exact number
  · exact absurd isDigit (by decide)
  · simp [(spelling_head spelled).2.1] at isDigit

/-- Where a number with a point starts, its digits before the point are all
that stand there. -/
theorem whole_eq {digits rest whole places tail : List Char}
    (numeral : Numeral digits) (stop : ∀ c ∈ rest.head?, c.isDigit = false)
    (wholeNumeral : Numeral whole)
    (same : whole ++ '.' :: places ++ tail = digits ++ rest) :
    whole = digits ∧ '.' :: (places ++ tail) = rest :=
  Text.append_inj_of_stop Char.isDigit wholeNumeral.digits numeral.digits
    (by simp) stop (by simpa using same)

theorem longest_integer_iff {digits rest : List Char}
    (numeral : Numeral digits) :
    Longest digits rest ↔
      (∀ c ∈ rest.head?, c.isDigit = false) ∧ ∀ c, ['.', c] <+: rest →
        c.isDigit = false := by
  constructor
  · intro longest
    constructor
    · intro c isHead
      obtain ⟨tail, rfl⟩ := List.head?_eq_some_iff.mp isHead
      by_contra goesOn
      exact longest.not_lexeme_append (List.prefix_append [c] tail) (by simp)
        (.integer (numeral.append (by simpa using goesOn)))
    · intro c follows
      by_contra goesOn
      exact longest.not_lexeme_append follows (by simp)
        (.decimal numeral ⟨by simp, by simpa using goesOn⟩)
  · rintro ⟨stop, noPlaces⟩
    obtain ⟨digit, more, rfl⟩ := List.exists_cons_of_ne_nil numeral.nonempty
    refine .of_head (.integer numeral) ?_
    intro others other within
    rcases other.number_of_isDigit numeral.isDigit_head with
      otherNumeral | ⟨whole, places, othersEq, wholeNumeral, placesNumeral⟩
    · exact Text.length_le_of_stop within
        (List.forall_mem_cons.mp otherNumeral.digits).2 stop
    · -- The point would have to follow the digits, with a digit behind it.
      obtain ⟨tail, same⟩ := within
      obtain ⟨place, others, rfl⟩ :=
        List.exists_cons_of_ne_nil placesNumeral.nonempty
      obtain ⟨rfl, rfl⟩ := whole_eq numeral stop wholeNumeral
        (by rw [← othersEq, List.cons_append, same, List.cons_append])
      have isPlace := placesNumeral.isDigit_head
      rw [noPlaces place (List.prefix_append ['.',
        place] (others ++ tail))] at isPlace
      exact absurd isPlace (by decide)

theorem longest_decimal_iff {whole places rest : List Char}
    (wholeNumeral : Numeral whole) (placesNumeral : Numeral places) :
    Longest (whole ++ '.' :: places) rest ↔
      ∀ c ∈ rest.head?, c.isDigit = false := by
  constructor
  · intro longest c isHead
    obtain ⟨tail, rfl⟩ := List.head?_eq_some_iff.mp isHead
    by_contra goesOn
    refine longest.not_lexeme_append (List.prefix_append [c] tail) (by simp) ?_
    rw [List.append_assoc]
    exact .decimal wholeNumeral (placesNumeral.append (by simpa using goesOn))
  · intro stop
    have pointStop : ∀ c ∈ ('.' :: (places ++ rest)).head?,
        c.isDigit = false := by simp
    refine ⟨.decimal wholeNumeral placesNumeral, ?_⟩
    rintro (_ | ⟨c, others⟩) other within
    · simp
    · have isDigit : c.isDigit = true := by
        obtain ⟨digit, digits, rfl⟩ :=
          List.exists_cons_of_ne_nil wholeNumeral.nonempty
        obtain ⟨rfl, -⟩ := List.cons_prefix_cons.mp within
        exact wholeNumeral.isDigit_head
      rcases other.number_of_isDigit isDigit with
        numeral | ⟨whole', places', othersEq, wholeNumeral', placesNumeral'⟩
      · have bound :=
          Text.length_le_of_stop (by simpa using within) numeral.digits
            pointStop
        rw [List.length_append]
        omega
      · obtain ⟨tail, same⟩ := within
        rw [othersEq] at same ⊢
        obtain ⟨rfl, placesEq⟩ :=
          whole_eq wholeNumeral pointStop wholeNumeral' (by simpa using same)
        have bound := Text.length_le_of_stop ⟨tail, (List.cons.inj placesEq).2⟩
          placesNumeral'.digits stop
        simpa using bound

/-- The text of a string ends at the first quote that is not escaped. -/
theorem Quoted.eq_of_append {body body' text text' rest rest' : List Char}
    (quoted : Quoted body text) (quoted' : Quoted body' text')
    (same : body ++ '"' :: rest = body' ++ '"' :: rest') : body = body' := by
  induction quoted generalizing body' text' with
  | nil =>
      cases quoted' with
      | nil => rfl
      | plain noQuote => exact absurd (List.cons.inj same).1.symm noQuote
      | escape => exact absurd (List.cons.inj same).1 (by decide)
  | plain noQuote noEscape _ induction =>
      cases quoted' with
      | nil => exact absurd (List.cons.inj same).1 noQuote
      | plain noQuote' noEscape' more' =>
          obtain ⟨rfl, sameTail⟩ := List.cons.inj same
          rw [induction more' sameTail]
      | escape => exact absurd (List.cons.inj same).1 noEscape
  | escape known _ induction =>
      cases quoted' with
      | nil => exact absurd (List.cons.inj same).1 (by decide)
      | plain noQuote' noEscape' =>
          exact absurd (List.cons.inj same).1.symm noEscape'
      | escape known' more' =>
          obtain ⟨-, sameEscape⟩ := List.cons.inj same
          obtain ⟨rfl, sameTail⟩ := List.cons.inj sameEscape
          rw [induction more' sameTail]

theorem longest_string {body text : List Char} (quoted : Quoted body text)
    (rest : List Char) : Longest ('"' :: (body ++ ['"'])) rest := by
  refine .of_head (.string quoted) ?_
  intro others other within
  rcases other.shape_of_head with
    ⟨letter, -⟩ | ⟨isDigit, -⟩ | ⟨-, body', text', rfl, quoted'⟩ |
      ⟨sign, spelled⟩
  · exact absurd letter (by decide)
  · exact absurd isDigit (by decide)
  · obtain ⟨tail, same⟩ := within
    rw [quoted.eq_of_append quoted' (by simpa using same.symm)]
  · exact absurd rfl (spelling_head spelled).2.2.1

theorem spelling_length (sign : Symbol) :
    1 ≤ sign.spelling.toList.length ∧ sign.spelling.toList.length ≤ 2 := by
  cases sign <;> decide

/-- A lexeme that starts as a symbol does is a symbol. -/
theorem Lexeme.symbol_of_head {c : Char} {others : List Char}
    (lexeme : Lexeme (c :: others)) (noLetter : c.isAlpha = false)
    (noDigit : c.isDigit = false) (noQuote : c ≠ '"') :
    ∃ sign : Symbol, sign.spelling.toList = c :: others := by
  rcases lexeme.shape_of_head with
    ⟨letter, -⟩ | ⟨isDigit, -⟩ | ⟨isQuote, -⟩ | isSymbol
  · simp [noLetter] at letter
  · simp [noDigit] at isDigit
  · exact absurd isQuote noQuote
  · exact isSymbol

theorem longest_symbol_iff (sign : Symbol) {rest : List Char} :
    Longest sign.spelling.toList rest ↔
      ∀ c ∈ rest.head?, Symbol.ofChars? (sign.spelling.toList ++ [c]) =
        none := by
  constructor
  · intro longest c isHead
    obtain ⟨tail, rfl⟩ := List.head?_eq_some_iff.mp isHead
    cases found : Symbol.ofChars? (sign.spelling.toList ++ [c]) with
    | none => rfl
    | some other =>
        refine absurd ?_
          (longest.not_lexeme_append (List.prefix_append [c] tail) (by simp))
        rw [← Symbol.ofChars?_eq_some_iff.mp found]
        exact .symbol other
  · intro stop
    refine ⟨.symbol sign, ?_⟩
    rintro other lexeme ⟨tail, same⟩
    -- What is longer goes on behind the sign, by one character since symbols
    -- have at most two.
    rcases List.append_eq_append_iff.mp same with
      ⟨more, signEq, -⟩ | ⟨more, rfl, restEq⟩
    · simp [signEq]
    have signLength := spelling_length sign
    obtain ⟨c, others, spelled⟩ := List.exists_cons_of_length_pos signLength.1
    obtain ⟨noLetter, noDigit, noQuote, -⟩ := spelling_head spelled
    obtain ⟨longer, longerSpelled⟩ : ∃ longer : Symbol,
        longer.spelling.toList = sign.spelling.toList ++ more := by
      rw [spelled] at lexeme ⊢
      exact lexeme.symbol_of_head noLetter noDigit noQuote
    match more with
    | [] => simp
    | [d] =>
        have unknown := stop d (by rw [restEq]; rfl)
        rw [Symbol.ofChars?_eq_some_iff.mpr longerSpelled] at unknown
        cases unknown
    | _ :: _ :: _ =>
        have longerLength := spelling_length longer
        rw [longerSpelled, List.length_append] at longerLength
        simp only [List.length_cons] at longerLength
        omega

theorem Lexeme.ne_nil {lexeme : List Char} (isLexeme : Lexeme lexeme) :
    lexeme ≠ [] := by
  cases isLexeme with
  | word isWord =>
      cases isWord
      simp
  | integer numeral => exact numeral.nonempty
  | decimal => simp
  | string => simp
  | symbol sign => exact List.ne_nil_of_length_pos (spelling_length sign).1

end Lexical

end PL0
