import Mathlib.Data.List.Induction
import PL0.Proofs.Token.Counting
import PL0.Proofs.Token.Lexemes

/-!
# Scanning by the longest match

A text has tokens exactly if it can be cut into lexemes and gaps, each lexeme
as long as it can be, and the tokens are then those of the lexemes, each at
the position of its first character.

The scanner decides by the first character of a lexeme what the lexeme is.
For every such kind two facts are proved: where a lexeme of the kind stands
and cannot go on, the scanner reads it; and what the scanner reads is such a
lexeme.
-/

namespace PL0

namespace Position

@[simp]
theorem after_nil (position : Position) : position.after [] = position := rfl

@[simp]
theorem after_cons (position : Position) (c : Char) (text : List Char) :
    position.after (c :: text) = (position.next c).after text := rfl

theorem after_append (position : Position) (first second : List Char) :
    position.after (first ++ second) = (position.after first).after second :=
  List.foldl_append

theorem behind_snoc (before : List Char) (c : Char) :
    behind (before ++ [c]) = (behind before).next c := by
  rw [behind, behind, next]
  split
  · next isLineFeed => simp [isLineFeed, Nat.add_assoc]
  · next noLineFeed => simp [noLineFeed, Nat.add_comm]

/-- Counting lines and columns in a text and following its characters come to
the same. -/
theorem after_behind (before text : List Char) :
    (behind before).after text = behind (before ++ text) := by
  induction text generalizing before with
  | nil => simp
  | cons c text induction =>
      rw [after_cons, ← behind_snoc, induction, List.append_assoc]; rfl

end Position

namespace Lexical

open Scan

theorem value_eq (digits : List Char) : value digits = digitsValue digits := by
  induction digits using List.reverseRecOn with
  | nil => rfl
  | append_singleton digits digit induction =>
      have snoc : digitsValue (digits ++ [digit]) =
          10 * digitsValue digits + (digit.toNat - '0'.toNat) := by
            simp [digitsValue]
      rw [snoc, ← induction, value, value, List.reverse_append, List.map_append,
        List.reverse_singleton, List.map_singleton, List.singleton_append,
        Nat.ofDigits_cons]
      omega

theorem isBlank_iff {c : Char} :
    isBlank c = true ↔ c ∈ [' ', '\t', '\r', '\n'] := by
  simp [isBlank]
  tauto

@[simp]
theorem locate_nil (position : Position) : locate position [] = [] := rfl

@[simp]
theorem locate_cons (position : Position) (c : Char) (text : List Char) :
    locate position (c :: text) = (c,
      position) :: locate (position.next c) text := rfl

/-- A text where a lexeme can start: no blank and no comment stands there. -/
structure Bare (text : List Char) : Prop where
  noBlank : ∀ c ∈ text.head?, isBlank c = false
  noComment : ¬ ['/', '*'] <+: text

/-- A comment is skipped up to its first end. -/
theorem skip_comment (start position : Position) {body : List Char}
    (unended : ¬ ['*', '/'] <:+: body) (rest : List Char) :
    skip (some start) (locate position (body ++ '*' :: '/' :: rest)) =
      skip none (locate (position.after (body ++ ['*', '/'])) rest) := by
  induction body generalizing position with
  | nil => simp [skip]
  | cons c body induction =>
      have unendedBody : ¬ ['*', '/'] <:+: body :=
        fun inside => unended (inside.trans (List.suffix_cons c body).isInfix)
      have noEnd : ∀ d others, body ++ '*' :: '/' :: rest = d :: others →
          ¬ (c = '*' ∧ d = '/') := by
        rintro d others headEq ⟨rfl, rfl⟩
        cases body with
        | nil => simp at headEq
        | cons d body =>
            obtain ⟨rfl, -⟩ := List.cons.inj headEq
            exact unended (List.prefix_append ['*', '/'] body).isInfix
      rw [List.cons_append, locate_cons, List.cons_append, Position.after_cons,
        ← induction (position.next c) unendedBody]
      cases textEq : body ++ '*' :: '/' :: rest with
      | nil => simp at textEq
      | cons d others =>
          have := noEnd d others textEq
          rw [locate_cons, skip]
          grind

/-- What can be skipped inside a comment holds its end. -/
theorem comment_of_skip {start position : Position} {text : List Char}
    {found : Located}
    (skipped : skip (some start) (locate position text) = .ok found) :
    ∃ body rest, text = body ++ '*' :: '/' :: rest ∧ ¬ ['*',
      '/'] <:+: body := by
  induction text generalizing position with
  | nil => simp [skip] at skipped
  | cons c text induction =>
      by_cases ends : ∃ rest, c = '*' ∧ text = '/' :: rest
      · obtain ⟨rest, rfl, rfl⟩ := ends
        exact ⟨[], rest, rfl, by simp⟩
      · have goesOn :
            skip (some start) (locate (position.next c) text) = .ok found := by
          cases text with
          | nil => simp [skip] at skipped
          | cons d others =>
              rw [locate_cons, locate_cons, skip] at skipped
              · exact skipped
              · grind
        obtain ⟨body, rest, rfl, unended⟩ := induction goesOn
        refine ⟨c :: body, rest, rfl, ?_⟩
        rw [List.infix_cons_iff]
        rintro (⟨others, startEq⟩ | inside)
        · obtain ⟨rfl, bodyEq⟩ := List.cons.inj startEq
          exact ends ⟨others ++ '*' :: '/' :: rest, rfl, by rw [← bodyEq]; rfl⟩
        · exact unended inside

/-- Gaps are skipped. -/
theorem skip_gap {gap : List Char} (isGap : Gap gap) (position : Position)
    (rest : List Char) :
    skip none (locate position (gap ++ rest)) =
      skip none (locate (position.after gap) rest) := by
  induction isGap generalizing position with
  | nil => rfl
  | @blank c more isBlank _ induction =>
      rw [List.cons_append, locate_cons, Position.after_cons, ← induction, skip,
        if_pos (isBlank_iff.mpr isBlank)]
      rintro _ _ _ rfl
      simp at isBlank
  | @comment body more unended _ induction =>
      have shape : '/' :: '*' :: (body ++ '*' :: '/' :: more) ++ rest =
          '/' :: '*' :: (body ++ '*' :: '/' :: (more ++ rest)) := by simp
      have behind :
          position.after ('/' :: '*' :: (body ++ '*' :: '/' :: more)) =
          (((position.next '/').next '*').after (body ++ ['*', '/'])).after
            more := by
        simp [Position.after_append]
      rw [shape, behind, ← induction, ← skip_comment position _ unended]
      rfl

/-- Nothing is skipped where a lexeme can start. -/
theorem skip_of_bare {text : List Char} (bare : Bare text)
    (position : Position) :
    skip none (locate position text) = .ok (locate position text) := by
  cases text with
  | nil => rfl
  | cons c text =>
      rw [locate_cons, skip, if_neg (by simp [bare.noBlank c rfl])]
      rintro star others locatedEq rfl
      cases text with
      | nil => simp at locatedEq
      | cons d text =>
          simp only [locate_cons, List.cons.injEq, Prod.mk.injEq] at locatedEq
          obtain ⟨⟨rfl, -⟩, -⟩ := locatedEq
          exact bare.noComment (List.prefix_append ['/', '*'] text)

/-- What was skipped is a gap, and no gap follows it. -/
theorem gap_of_skip {position : Position} {text : List Char} {found : Located}
    (skipped : skip none (locate position text) = .ok found) :
    ∃ gap rest, text = gap ++ rest ∧ Gap gap ∧ Bare rest ∧
      found = locate (position.after gap) rest := by
  -- A comment is skipped as a whole, so that the induction is on the length
  -- of the text.
  induction size : text.length
    using Nat.strong_induction_on generalizing position text with
  | _ size induction =>
      by_cases opens : ['/', '*'] <+: text
      · obtain ⟨others, rfl⟩ := opens
        have inside :
            skip (some position)
              (locate ((position.next '/').next '*') others) =
            .ok found := skipped
        obtain ⟨body, behind, rfl, unended⟩ := comment_of_skip inside
        rw [skip_comment _ _ unended] at inside
        obtain ⟨gap, rest, rfl, isGap, bare, rfl⟩ := induction behind.length
          (by simp [← size]; omega) inside rfl
        exact ⟨'/' :: '*' :: (body ++ '*' :: '/' :: gap), rest, by simp,
          .comment unended isGap, bare, by simp [Position.after_append]⟩
      · cases text with
        | nil =>
            exact ⟨[], [], rfl, .nil, ⟨by simp, by simp⟩,
              by simpa [skip, eq_comm] using skipped⟩
        | cons c text =>
            by_cases blank : isBlank c = true
            · rw [← List.singleton_append,
                skip_gap (.blank (isBlank_iff.mp blank) .nil)] at skipped
              obtain ⟨gap, rest, rfl, isGap, bare, rfl⟩ := induction text.length
                (by simp [← size]) skipped rfl
              exact ⟨c :: gap, rest, rfl, .blank (isBlank_iff.mp blank) isGap,
                bare, rfl⟩
            · have bare : Bare (c :: text) := ⟨by simpa using blank, opens⟩
              rw [skip_of_bare bare] at skipped
              exact ⟨[], c :: text, rfl, .nil, bare,
                (Except.ok.inj skipped).symm⟩

theorem exists_of_map_eq_ok {α β : Type} {f : α → β}
    {result : Except ScanError α} {b : β} (mapped : result.map f = .ok b) :
    ∃ a, result = .ok a ∧ f a = b := by
  cases result with
  | error => cases mapped
  | ok a => exact ⟨a, rfl, Except.ok.inj mapped⟩

/-- A run of characters of one kind is found with its positions. -/
theorem span_locate {kind : Char → Bool} {kindAt : Char × Position → Bool}
    (sameKind : ∀ c, kindAt c = kind c.1) {left right : List Char}
    (inLeft : ∀ c ∈ left, kind c = true)
    (stop : ∀ c ∈ right.head?, kind c = false)
    (position : Position) :
    ((locate position (left ++ right)).takeWhile kindAt).map Prod.fst = left ∧
      (locate position (left ++ right)).dropWhile kindAt =
        locate (position.after left) right := by
  induction left generalizing position with
  | nil =>
      cases right with
      | nil => simp
      | cons c right => simp [sameKind, stop c rfl]
  | cons c left induction =>
      have inHead := inLeft c (by simp)
      have inTail :=
        induction (fun d member => inLeft d (by simp [member]))
          (position.next c)
      simpa [sameKind, inHead] using inTail

/-- Where a word stands, it is read: as a reserved word if it is one. -/
theorem token_word (stop start position : Position) {c : Char}
    {more rest : List Char} (isWord : Word (c :: more))
    (longest : Longest (c :: more) rest) :
    token stop c start (locate position (more ++ rest)) =
      .ok ((Keyword.ofSpelling? (String.ofList (c :: more))).elim
        (.identifier (String.ofList (c :: more))) .keyword,
        locate (position.after more) rest) := by
  have ends := (longest_word_iff isWord).mp longest
  obtain ⟨letter, wordChars⟩ := isWord
  obtain ⟨name, behind⟩ :=
    @span_locate isWordChar isWordCharAt (fun _ => rfl) more rest
    (fun d member => isWordChar_iff.mpr (wordChars d member)) ends position
  rw [token, if_pos letter, word, name, behind]

/-- Digits without a point and a digit behind them are an integer. -/
theorem fraction_integer (start position : Position) (digits : List Char)
    {rest : List Char} (noPlaces : ∀ c, ['.', c] <+: rest → c.isDigit = false) :
    fraction start digits (locate position rest) =
      (integer start digits).map fun kind => (kind, locate position rest) := by
  cases rest with
  | nil => rfl
  | cons c rest =>
      by_cases isPoint : c = '.'
      · subst isPoint
        have empty :
            ((locate (position.next '.') rest).takeWhile isDigitAt).isEmpty =
              true := by
          cases rest with
          | nil => rfl
          | cons d rest => simp [isDigitAt,
              noPlaces d (List.prefix_append ['.', d] rest)]
        rw [locate_cons, fraction, if_pos empty]
      · rw [locate_cons, fraction]
        simp [isPoint]

theorem token_integer (stop start position : Position) {c : Char}
    {more rest : List Char} (numeral : Numeral (c :: more))
    (longest : Longest (c :: more) rest) :
    token stop c start (locate position (more ++ rest)) =
      (integer start (c :: more)).map fun kind =>
        (kind, locate (position.after more) rest) := by
  obtain ⟨ends, noPlaces⟩ := (longest_integer_iff numeral).mp longest
  obtain ⟨digits, behind⟩ :=
    @span_locate Char.isDigit isDigitAt (fun _ => rfl) more rest
    (List.forall_mem_cons.mp numeral.digits).2 ends position
  have isDigit := numeral.isDigit_head
  rw [token, if_neg (by simp [Text.isAlpha_of_isDigit isDigit]), if_pos isDigit,
    number, digits, behind, fraction_integer _ _ _ noPlaces]

theorem token_decimal (stop start position : Position) {c : Char}
    {digits places rest : List Char} (wholeNumeral : Numeral (c :: digits))
    (placesNumeral : Numeral places)
    (longest : Longest (c :: digits ++ '.' :: places) rest) :
    token stop c start (locate position (digits ++ '.' :: places ++ rest)) =
      .ok (decimal (c :: digits) places,
        locate (position.after (digits ++ '.' :: places)) rest) := by
  have ends := (longest_decimal_iff wholeNumeral placesNumeral).mp longest
  obtain ⟨wholeDigits, point⟩ :=
    @span_locate Char.isDigit isDigitAt (fun _ => rfl) digits
    ('.' :: (places ++ rest)) (List.forall_mem_cons.mp wholeNumeral.digits).2
      (by simp) position
  obtain ⟨placesDigits, behind⟩ :=
    @span_locate Char.isDigit isDigitAt (fun _ => rfl) places rest
    placesNumeral.digits ends ((position.after digits).next '.')
  have isDigit := wholeNumeral.isDigit_head
  have somePlaces :
      ¬ ((locate ((position.after digits).next '.') (places ++ rest)).takeWhile
        isDigitAt).isEmpty = true := by
    intro isEmpty
    rw [List.isEmpty_iff.mp isEmpty] at placesDigits
    exact placesNumeral.nonempty placesDigits.symm
  rw [token, if_neg (by simp [Text.isAlpha_of_isDigit isDigit]),
    if_pos isDigit, number, List.append_assoc, List.cons_append, wholeDigits,
    point, locate_cons, fraction,
    if_neg somePlaces, placesDigits, behind, Position.after_append,
    Position.after_cons]

theorem unescape_eq_some_iff {escaped meant : Char} :
    unescape escaped = some meant ↔ (escaped, meant) ∈ escapes := by
  unfold unescape
  split <;> simp_all [escapes, eq_comm]

/-- A string is read to its closing quote. -/
theorem stringBody_quoted (start stop position : Position)
    {body text : List Char} (quoted : Quoted body text) (rest : List Char) :
    stringBody start stop (locate position (body ++ '"' :: rest)) =
      .ok (text, locate (position.after (body ++ ['"'])) rest) := by
  induction quoted generalizing position with
  | nil =>
      unfold stringBody
      simp
  | plain noQuote noEscape _ induction =>
      unfold stringBody
      simp [noQuote, noEscape, induction, Except.map]
  | escape known _ induction =>
      unfold stringBody
      simp [unescape_eq_some_iff.mpr known, induction, Except.map]

theorem locate_eq_cons {position head : Position} {text : List Char} {c : Char}
    {rest : Located} (located : locate position text = (c, head) :: rest) :
    ∃ others, text = c :: others ∧ head = position ∧
      rest = locate (position.next c) others := by
  cases text with
  | nil => cases located
  | cons d others =>
      cases located
      exact ⟨others, rfl, rfl, rfl⟩

/-- What is read up to a closing quote is the text of a string. -/
theorem quoted_of_stringBody {start stop position : Position}
    {text value : List Char} {found : Located}
    (read : stringBody start stop (locate position text) = .ok (value, found)) :
    ∃ body rest, text = body ++ '"' :: rest ∧ Quoted body value := by
  generalize locatedEq : locate position text = located at read
  fun_induction stringBody start stop located
    generalizing position text value found with
  | case1 => simp at read
  | case2 =>
      obtain ⟨others, rfl, -, -⟩ := locate_eq_cons locatedEq
      cases read
      exact ⟨[], others, rfl, .nil⟩
  | case3 => simp at read
  | case4 => simp at read
  | case5 _ escaped _ _ meant known _ induction =>
      obtain ⟨others, rfl, -, othersEq⟩ := locate_eq_cons locatedEq
      obtain ⟨others, rfl, -, rfl⟩ := locate_eq_cons othersEq.symm
      obtain ⟨inner, readRest, innerEq⟩ := exists_of_map_eq_ok read
      cases innerEq
      obtain ⟨body, rest, rfl, quoted⟩ := induction rfl readRest
      exact ⟨'\\' :: escaped :: body, rest, rfl,
        .escape (unescape_eq_some_iff.mp known) quoted⟩
  | case6 c _ _ noQuote noEscape induction =>
      obtain ⟨others, rfl, -, rfl⟩ := locate_eq_cons locatedEq
      obtain ⟨inner, readRest, innerEq⟩ := exists_of_map_eq_ok read
      cases innerEq
      obtain ⟨body, rest, rfl, quoted⟩ := induction rfl readRest
      exact ⟨c :: body, rest, rfl, .plain noQuote noEscape quoted⟩

theorem token_symbol (stop start position : Position) {sign : Symbol} {c : Char}
    {more rest : List Char} (spelled : sign.spelling.toList = c :: more)
    (longest : Longest (c :: more) rest) :
    token stop c start (locate position (more ++ rest)) =
      .ok (.symbol sign, locate (position.after more) rest) := by
  obtain ⟨noLetter, noDigit, noQuote, -⟩ := spelling_head spelled
  have known := Symbol.ofChars?_eq_some_iff.mpr spelled
  rw [token, if_neg (by simp [noLetter]), if_neg (by simp [noDigit]),
    if_neg noQuote, symbol]
  rcases more with _ | ⟨d, _ | ⟨_, _⟩⟩
  · have noSecond : ((locate position ([] ++ rest)).head?.bind
        fun d => Symbol.ofChars? [c, d.1]) = none := by
      rw [← spelled, longest_symbol_iff, spelled] at longest
      cases rest with
      | nil => rfl
      | cons d rest => exact longest d rfl
    rw [noSecond, known]
    rfl
  · rw [List.singleton_append, locate_cons, List.head?_cons,
      Option.bind_some, known]
    rfl
  · have length := (spelling_length sign).2
    rw [spelled] at length
    simp at length

/-- A word that is no reserved word is not taken for one. -/
theorem ofSpelling?_eq_none {name : List Char}
    (free : ∀ reserved : Keyword, reserved.spelling.toList ≠ name) :
    Keyword.ofSpelling? (String.ofList name) = none := by
  cases found : Keyword.ofSpelling? (String.ofList name) with
  | none => rfl
  | some reserved =>
      refine absurd ?_ (free reserved)
      rw [Keyword.ofSpelling?_eq_some_iff.mp found, String.toList_ofList]

/-- A longest lexeme that stands for a token is read as that token. -/
theorem token_of_longest (stop start position : Position) {c : Char}
    {more rest : List Char} {kind : Token.Kind}
    (longest : Longest (c :: more) rest) (denotes : Denotes (c :: more) kind) :
    token stop c start (locate position (more ++ rest)) =
      .ok (kind, locate (position.after more) rest) := by
  generalize lexemeEq : c :: more = lexeme at denotes
  cases denotes with
  | keyword reserved =>
      rw [token_word stop start position (lexemeEq ▸ .of_spelling reserved)
        longest, lexemeEq,
        String.ofList_toList, Keyword.ofSpelling?_eq_some_iff.mpr rfl]
      rfl
  | identifier isWord free =>
      subst lexemeEq
      rw [token_word stop start position isWord longest,
        ofSpelling?_eq_none free]
      rfl
  | integer numeral small =>
      subst lexemeEq
      rw [token_integer stop start position numeral longest, integer,
        Nat.pow_eq, ← value_eq, if_pos small]
      rfl
  | @decimal whole places wholeNumeral placesNumeral =>
      obtain ⟨digit, digits, rfl⟩ :=
        List.exists_cons_of_ne_nil wholeNumeral.nonempty
      rw [List.cons_append] at lexemeEq
      obtain ⟨rfl, rfl⟩ := List.cons.inj lexemeEq
      rw [token_decimal stop start position wholeNumeral placesNumeral longest,
        decimal, value_eq]
  | @string body text quoted =>
      obtain ⟨rfl, rfl⟩ := List.cons.inj lexemeEq
      rw [token, if_neg (by decide), if_neg (by decide), if_pos rfl,
        List.append_assoc, List.singleton_append,
        stringBody_quoted start stop position quoted]
      rfl
  | symbol sign =>
      exact token_symbol stop start position lexemeEq.symm (lexemeEq ▸ longest)

/-- A word stands for the reserved word it spells, or for itself. -/
theorem denotes_word {name : List Char} (isWord : Word name) :
    Denotes name ((Keyword.ofSpelling? (String.ofList name)).elim
      (.identifier (String.ofList name)) .keyword) := by
  cases found : Keyword.ofSpelling? (String.ofList name) with
  | some reserved =>
      have spelled : name = reserved.spelling.toList := by
        rw [Keyword.ofSpelling?_eq_some_iff.mp found, String.toList_ofList]
      rw [spelled]
      exact .keyword reserved
  | none =>
      refine .identifier isWord ?_
      rintro reserved rfl
      rw [String.ofList_toList,
        Keyword.ofSpelling?_eq_some_iff.mpr rfl] at found
      cases found

/-- The lexeme with which a text starts, and what it leaves. -/
def Starts (c : Char) (text : List Char) (position : Position)
    (kind : Token.Kind) (found : Located) : Prop :=
  ∃ more rest, text = more ++ rest ∧ Longest (c :: more) rest ∧
    Denotes (c :: more) kind ∧ found = locate (position.after more) rest

section Read

variable {stop start position : Position} {c : Char} {text : List Char}
  {kind : Token.Kind} {found : Located}

theorem starts_word (letter : c.isAlpha = true)
    (read : token stop c start (locate position text) = .ok (kind, found)) :
    Starts c text position kind found := by
  obtain ⟨more, rest, rfl, inMore, ends⟩ := Text.exists_parts isWordChar text
  have isWord : Word (c :: more) :=
    .mk letter fun d member => isWordChar_iff.mp (inMore d member)
  have longest := (longest_word_iff isWord).mpr ends
  rw [token_word stop start position isWord longest] at read
  cases read
  exact ⟨more, rest, rfl, longest, denotes_word isWord, rfl⟩

theorem starts_integer {more rest : List Char} (numeral : Numeral (c :: more))
    (longest : Longest (c :: more) rest)
    (read : token stop c start (locate position (more ++ rest)) =
      .ok (kind, found)) :
    Starts c (more ++ rest) position kind found := by
  rw [token_integer stop start position numeral longest, integer,
    ← value_eq] at read
  split at read
  · next small =>
    cases read
    exact ⟨more, rest, rfl, longest, .integer numeral small, rfl⟩
  · cases read

theorem starts_number (isDigit : c.isDigit = true)
    (read : token stop c start (locate position text) = .ok (kind, found)) :
    Starts c text position kind found := by
  obtain ⟨digits, rest, rfl, inDigits, ends⟩ :=
    Text.exists_parts Char.isDigit text
  have numeral : Numeral (c :: digits) :=
    ⟨by simp, List.forall_mem_cons.mpr ⟨isDigit, inDigits⟩⟩
  by_cases hasPlaces : ∃ d, ['.', d] <+: rest ∧ d.isDigit = true
  · obtain ⟨d, ⟨tail, rfl⟩, isPlace⟩ := hasPlaces
    obtain ⟨places, rest, placesEq, inPlaces, ends⟩ :=
      Text.exists_parts Char.isDigit (d :: tail)
    have placesNumeral : Numeral places := by
      refine ⟨?_, inPlaces⟩
      rintro rfl
      rw [List.nil_append] at placesEq
      rw [ends d (by rw [← placesEq]; rfl)] at isPlace
      cases isPlace
    have longest := (longest_decimal_iff numeral placesNumeral).mpr ends
    have shape :
        digits ++ (['.', d] ++ tail) = digits ++ '.' :: places ++ rest := by
      simpa using placesEq
    rw [shape] at read ⊢
    rw [token_decimal stop start position numeral placesNumeral longest,
      decimal, ← value_eq] at read
    cases read
    exact ⟨_, rest, rfl, longest, .decimal numeral placesNumeral, rfl⟩
  · have noPlaces : ∀ d, ['.', d] <+: rest → d.isDigit = false := by
      intro d follows
      by_contra isPlace
      exact hasPlaces ⟨d, follows, by simpa using isPlace⟩
    exact starts_integer numeral ((longest_integer_iff numeral).mpr ⟨ends,
      noPlaces⟩) read

theorem starts_string
    (read : token stop '"' start (locate position text) = .ok (kind, found)) :
    Starts '"' text position kind found := by
  rw [token, if_neg (by decide), if_neg (by decide), if_pos rfl] at read
  obtain ⟨⟨value, after⟩, readBody, resultEq⟩ := exists_of_map_eq_ok read
  obtain ⟨body, rest, rfl, quoted⟩ := quoted_of_stringBody readBody
  rw [stringBody_quoted start stop position quoted] at readBody
  cases readBody
  cases resultEq
  exact ⟨body ++ ['"'], rest, by simp, longest_string quoted rest,
    .string quoted, rfl⟩

theorem starts_symbol (noLetter : c.isAlpha = false)
    (noDigit : c.isDigit = false) (noQuote : c ≠ '"')
    (read : token stop c start (locate position text) = .ok (kind, found)) :
    Starts c text position kind found := by
  rw [token, if_neg (by simp [noLetter]), if_neg (by simp [noDigit]),
    if_neg noQuote, symbol] at read
  split at read
  · next sign second =>
    cases read
    cases text with
    | nil => cases second
    | cons d rest =>
        have spelled : sign.spelling.toList = [c, d] :=
          Symbol.ofChars?_eq_some_iff.mp second
        refine ⟨[d], rest, rfl, ?_, spelled ▸ .symbol sign, rfl⟩
        rw [← spelled, longest_symbol_iff]
        intro e _
        -- No symbol has three characters.
        cases found : Symbol.ofChars? (sign.spelling.toList ++ [e]) with
        | none => rfl
        | some other =>
            have length := (spelling_length other).2
            rw [Symbol.ofChars?_eq_some_iff.mp found, spelled] at length
            exact absurd length (by simp)
  · next sign noSecond single =>
    cases read
    have spelled := Symbol.ofChars?_eq_some_iff.mp single
    refine ⟨[], text, rfl, ?_, spelled ▸ .symbol sign, rfl⟩
    rw [← spelled, longest_symbol_iff, spelled]
    intro d isHead
    obtain ⟨rest, rfl⟩ := List.head?_eq_some_iff.mp isHead
    exact noSecond
  · cases read

/-- What is read as a token is a longest lexeme that stands for it. -/
theorem starts_of_token
    (read : token stop c start (locate position text) = .ok (kind, found)) :
    Starts c text position kind found := by
  by_cases letter : c.isAlpha = true
  · exact starts_word letter read
  by_cases isDigit : c.isDigit = true
  · exact starts_number isDigit read
  by_cases isQuote : c = '"'
  · subst isQuote
    exact starts_string read
  · exact starts_symbol (by simpa using letter) (by simpa
      using isDigit) isQuote read

end Read

theorem spelling_eq_of_slash {sign : Symbol} {others : List Char}
    (spelled : sign.spelling.toList = '/' :: others) : others = [] := by
  have checked : sign.spelling.toList.head? = some '/' →
      sign.spelling.toList = ['/'] := by
    cases sign <;> decide
  have alone := checked (by rw [spelled]; rfl)
  rw [spelled] at alone
  exact (List.cons.inj alone).2

/-- Where a lexeme stands that does not open a comment, there is no gap. -/
theorem Lexeme.bare {c : Char} {more rest : List Char}
    (isLexeme : Lexeme (c :: more))
    (noComment : ¬ (c :: more = ['/'] ∧ rest.head? = some '*')) :
    Bare (c :: more ++ rest) := by
  have noBlank : isBlank c = false := by
    by_contra blank
    rw [Bool.not_eq_false, isBlank_iff] at blank
    obtain ⟨noLetter, noDigit, noQuote⟩ :
      c.isAlpha = false ∧ c.isDigit = false ∧ c ≠ '"' := by
      rcases (by simpa using blank) with rfl | rfl | rfl | rfl <;> decide
    obtain ⟨sign, spelled⟩ := isLexeme.symbol_of_head noLetter noDigit noQuote
    rw [← isBlank_iff, (spelling_head spelled).2.2.2] at blank
    cases blank
  refine ⟨by simpa using noBlank, ?_⟩
  intro opens
  obtain ⟨rfl, follows⟩ := List.cons_prefix_cons.mp opens
  obtain ⟨sign, spelled⟩ :=
    isLexeme.symbol_of_head (by decide) (by decide) (by decide)
  obtain rfl := spelling_eq_of_slash spelled
  obtain ⟨tail, rfl⟩ := follows
  exact noComment ⟨rfl, rfl⟩

theorem tokens_of_end {stop : Position} {text : Located}
    (skipped : skip none text = .ok []) :
    tokens stop text = .ok [⟨.endOfInput, stop⟩] := by
  rw [tokens]
  split <;> simp_all

theorem tokens_of_token {stop start : Position} {c : Char}
    {text rest after : Located} {kind : Token.Kind}
    (skipped : skip none text = .ok ((c, start) :: rest))
    (read : token stop c start rest = .ok (kind, after)) :
    tokens stop text = (tokens stop after).map fun others =>
      ⟨kind, start⟩ :: others := by
  rw [tokens]
  split
  · next failed => cases skipped.symm.trans failed
  · next ended => cases skipped.symm.trans ended
  · next skippedTo =>
    cases skipped.symm.trans skippedTo
    split
    · next failed => cases read.symm.trans failed
    · next readTo =>
      cases read.symm.trans readTo
      rfl

/-- A text that can be cut is read as it is cut. -/
theorem tokens_of_cut {before text : List Char} {found : List Token}
    (cut : Cut before text found) :
    tokens (.behind (before ++ text)) (locate (.behind before) text) =
      .ok found := by
  induction cut with
  | @finish before gap isGap =>
      refine tokens_of_end ?_
      rw [← gap.append_nil, skip_gap isGap]
      rfl
  | @token before gap lexeme rest kind tokens isGap longest noComment denotes _
      induction =>
      obtain ⟨c, more, rfl⟩ :=
        List.exists_cons_of_ne_nil longest.isLexeme.ne_nil
      have skipped :
          skip none (locate (.behind before) (gap ++ (c :: more) ++ rest)) =
          .ok (locate (.behind (before ++ gap)) (c :: more ++ rest)) := by
        rw [List.append_assoc, skip_gap isGap, Position.after_behind,
          skip_of_bare (longest.isLexeme.bare noComment)]
      have stopEq : before ++ (gap ++ (c :: more) ++ rest) =
          before ++ gap ++ (c :: more) ++ rest := by simp
      rw [tokens_of_token skipped (token_of_longest _ _ _ longest denotes),
        ← Position.after_cons, Position.after_behind, stopEq, induction]
      rfl

/-- What was read from a text is a cut of it. -/
theorem cut_of_tokens {before text : List Char} {found : List Token}
    (read : tokens (.behind (before ++ text)) (locate (.behind before) text) =
      .ok found) :
    Cut before text found := by
  generalize stopEq : Position.behind (before ++ text) = stop at read
  generalize locatedEq : locate (.behind before) text = located at read
  fun_induction tokens stop located generalizing before text found with
  | case1 => cases read
  | case2 _ skipped =>
      subst locatedEq
      obtain ⟨gap, rest, rfl, isGap, -, restEq⟩ := gap_of_skip skipped
      cases rest with
      | nil =>
          cases read
          rw [gap.append_nil] at stopEq ⊢
          exact stopEq ▸ .finish isGap
      | cons => cases restEq
  | case3 => cases read
  | case4 _ c start rest skipped kind after readToken induction =>
      subst locatedEq
      obtain ⟨gap, behind, rfl, isGap, bare, behindEq⟩ := gap_of_skip skipped
      obtain ⟨others, rfl, rfl, rfl⟩ := locate_eq_cons behindEq.symm
      obtain ⟨more, rest, rfl, longest, denotes, rfl⟩ :=
        starts_of_token readToken
      obtain ⟨tail, readTail, rfl⟩ := exists_of_map_eq_ok read
      have noComment : ¬ (c :: more = ['/'] ∧ rest.head? = some '*') := by
        rintro ⟨lexemeEq, isStar⟩
        obtain ⟨behind, rfl⟩ := List.head?_eq_some_iff.mp isStar
        refine bare.noComment ?_
        rw [← List.cons_append, lexemeEq]
        exact List.prefix_append ['/', '*'] behind
      have cutTail : Cut (before ++ gap ++ (c :: more)) rest tail := by
        refine induction ?_ ?_ readTail
        · rw [← stopEq]
          simp
        · rw [← Position.after_cons, Position.after_behind,
            Position.after_behind]
      have cut := Cut.token isGap longest noComment denotes cutTail
      rw [List.append_assoc] at cut
      rw [Position.after_behind]
      exact cut

theorem cut_of_scan {source : String} {found : List Token}
    (read : scan source = .ok found) : Cut [] source.toList found := by
  have located :
      tokens (.behind ([] ++ source.toList))
        (locate (.behind []) source.toList) = .ok found := by
    rw [← Position.after_behind]
    exact read
  exact cut_of_tokens located

end Lexical

/-- A source text has tokens exactly if it can be cut into gaps and longest
lexemes that stand for tokens, and it has the tokens of that cut.  A pass over
the text that counts lines and columns on the way ends with the same tokens or
at the same fault. -/
theorem scan_eq_ok_iff_cut (source : String) (found : List Token) :
    (scan source = .ok found ↔ Lexical.Cut [] source.toList found) ∧
      Pass.scan source = (scan source).mapError some := by
  refine ⟨?_, Pass.scan_eq source⟩
  have shape : scan source = Scan.tokens (.behind ([] ++ source.toList))
      (Scan.locate (.behind []) source.toList) := by
    rw [← Position.after_behind]
    rfl
  rw [shape]
  exact ⟨Lexical.cut_of_tokens, Lexical.tokens_of_cut⟩

end PL0
