import PL0.Token.Scan

/-!
# Scanning with counters

The characters of a text need not carry their positions.  It is enough to go
through the text by an index, to count lines and columns with every character
that is passed over, and to look at the counters where a token begins and where
a fault is noticed.  Every loop runs on fuel here, and nothing knows where the
text ends but a look at the index.
-/

namespace PL0

/-- A text with the index of the next character and the counters for its
position. -/
structure Caret where
  text : List Char
  index : Nat
  line : Nat
  column : Nat

namespace Caret

/-- In front of a text. -/
def start (text : List Char) : Caret := ⟨text, 0, 1, 1⟩

/-- The next character, if there is one. -/
def peek? (caret : Caret) : Option Char := caret.text[caret.index]?

/-- The character after the next one, if there is one. -/
def second? (caret : Caret) : Option Char := caret.text[caret.index + 1]?

/-- What the counters say. -/
def position (caret : Caret) : Position := ⟨caret.line, caret.column⟩

/-- The caret behind the next character, which is `c`. -/
def past (caret : Caret) (c : Char) : Caret :=
  if c = '\n' then
    { caret with index := caret.index + 1, line := caret.line + 1, column := 1 }
  else
    { caret with index := caret.index + 1, column := caret.column + 1 }

end Caret

/-- A pass over a text that ends at a fault or, without one, where the fuel runs
out or a character is missing. -/
abbrev Pass := EStateM (Option ScanError) Caret

namespace Pass

open Scan

/-- Pass over the next character, if there is one. -/
def advance : Pass (Option Char) := do
  let caret ← get
  match caret.peek? with
  | none => return none
  | some c =>
    set (caret.past c)
    return some c

/-- Stop at a fault. -/
def fail {α : Type} (fault : ScanFault) (position : Position) : Pass α :=
  throw (some ⟨fault, position⟩)

/-- Pass over the rest of a comment that begins at `start`. -/
def comment (start : Position) : Nat → Pass Unit
  | 0 => throw none
  | fuel + 1 => do
    let caret ← get
    if caret.peek? = none then
      fail .unterminatedComment start
    else if caret.peek? = some '*' ∧ caret.second? = some '/' then
      let _ ← advance
      let _ ← advance
    else
      let _ ← advance
      comment start fuel

/-- Pass over blanks and comments. -/
def gap : Nat → Pass Unit
  | 0 => throw none
  | fuel + 1 => do
    let caret ← get
    if caret.peek?.any isBlank then
      let _ ← advance
      gap fuel
    else if caret.peek? = some '/' ∧ caret.second? = some '*' then
      let _ ← advance
      let _ ← advance
      comment caret.position fuel
      gap fuel

/-- The characters of a kind that come next. -/
def run (kind : Char → Bool) : Nat → Pass (List Char)
  | 0 => throw none
  | fuel + 1 => do
    match (← get).peek? with
    | none => return []
    | some c =>
      if kind c then
        let _ ← advance
        return c :: (← run kind fuel)
      else
        return []

/-- The value of a string whose opening quote stands at `start`. -/
def stringBody (start : Position) : Nat → Pass (List Char)
  | 0 => throw none
  | fuel + 1 => do
    match (← get).peek? with
    | none => fail .unterminatedString start
    | some c =>
      let _ ← advance
      if c = '"' then
        return []
      else if c = '\\' then
        match ← advance with
        | none => fail .endInString (← get).position
        | some escaped =>
          match unescape escaped with
          | none => fail (.unknownEscape escaped) (← get).position
          | some plain => return plain :: (← stringBody start fuel)
      else
        return c :: (← stringBody start fuel)

/-- The number that begins with the digits `whole` at `start`. -/
def fraction (fuel : Nat) (start : Position) (whole : List Char) :
    Pass Token.Kind := do
  let caret ← get
  if caret.peek? = some '.' ∧ caret.second?.any Char.isDigit then
    let _ ← advance
    return decimal whole (← run Char.isDigit fuel)
  else
    match integer start whole with
    | .ok kind => return kind
    | .error error => throw (some error)

/-- The number whose first digit is `c` at `start`. -/
def number (fuel : Nat) (c : Char) (start : Position) : Pass Token.Kind := do
  let more ← run Char.isDigit fuel
  fraction fuel start (c :: more)

/-- The word whose first letter is `c`. -/
def word (fuel : Nat) (c : Char) : Pass Token.Kind := do
  let name := String.ofList (c :: (← run isWordChar fuel))
  return (Keyword.ofSpelling? name).elim (.identifier name) .keyword

/-- The symbol that starts with `c` at `start`. -/
def symbol (c : Char) (start : Position) : Pass Token.Kind := do
  match (← get).peek?.bind fun d => Symbol.ofChars? [c, d],
    Symbol.ofChars? [c] with
  | some sign, _ =>
    let _ ← advance
    return .symbol sign
  | none, some sign => return .symbol sign
  | none, none => fail (.unexpectedCharacter c) start

/-- The kind of the token that starts with `c` at `start`. -/
def kind (fuel : Nat) (c : Char) (start : Position) : Pass Token.Kind := do
  if c.isAlpha then
    word fuel c
  else if c.isDigit then
    number fuel c start
  else if c = '"' then
    return .string (String.ofList (← stringBody start fuel))
  else
    symbol c start

/-- The next token. -/
def token (fuel : Nat) : Pass Token := do
  let start := (← get).position
  match ← advance with
  | none => throw none
  | some c => return ⟨← kind fuel c start, start⟩

/-- The tokens from here to the end. -/
def tokens : Nat → Pass (List Token)
  | 0 => throw none
  | fuel + 1 => do
    gap (fuel + 1)
    let caret ← get
    if caret.peek? = none then
      return [⟨.endOfInput, caret.position⟩]
    else
      let first ← token (fuel + 1)
      return first :: (← tokens fuel)

/-- The tokens of a source text. -/
def scan (source : String) : Except (Option ScanError) (List Token) :=
  let text := source.toList
  match tokens (text.length + 1) (.start text) with
  | .ok found _ => .ok found
  | .error error _ => .error error

end Pass

/-- A caret stands in front of the given characters, with the given positions,
in a text that ends at `stop`. -/
structure Caret.Faces (caret : Caret) (stop : Position) (text : Scan.Located) :
    Prop where
  located : Scan.locate caret.position (caret.text.drop caret.index) = text
  ends : caret.position.after (caret.text.drop caret.index) = stop

namespace Caret.Faces

open Scan

variable {caret : Caret} {stop position : Position} {c : Char} {text : Located}

theorem peek? (faces : caret.Faces stop text) :
    caret.peek? = text.head?.map Prod.fst := by
  rw [Caret.peek?, ← List.head?_drop, ← faces.located]
  cases caret.text.drop caret.index <;> rfl

theorem second? (faces : caret.Faces stop text) :
    caret.second? = text.tail.head?.map Prod.fst := by
  rw [Caret.second?, ← List.head?_drop, ← List.tail_drop, ← faces.located]
  rcases caret.text.drop caret.index with _ | ⟨_, _ | _⟩ <;> rfl

theorem position_eq (faces : caret.Faces stop text) :
    caret.position = here stop text := by
  rw [← faces.located, ← faces.ends]
  cases caret.text.drop caret.index <;> rfl

/-- Behind its next character a caret faces the others. -/
theorem past (faces : caret.Faces stop ((c, position) :: text)) :
    (caret.past c).Faces stop text := by
  have dropEq : (caret.past c).text.drop (caret.past c).index =
      (caret.text.drop caret.index).tail := by
    rw [List.tail_drop, Caret.past]
    split <;> rfl
  have counted : (caret.past c).position = caret.position.next c := by
    rw [Caret.past, Position.next]
    split <;> rfl
  obtain ⟨located, ends⟩ := faces
  cases left : caret.text.drop caret.index with
  | nil =>
    rw [left] at located
    cases located
  | cons d others =>
    rw [left] at located ends dropEq
    cases located
    constructor
    · rw [dropEq, counted]
      rfl
    · rw [dropEq, counted]
      exact ends

end Caret.Faces

theorem Caret.start_faces (text : List Char) :
    (Caret.start text).Faces (Position.first.after text)
      (Scan.locate Position.first text) :=
  ⟨rfl, rfl⟩

namespace Scan

theorem length_locate (position : Position) (text : List Char) :
    (locate position text).length = text.length := by
  induction text generalizing position with
  | nil => rfl
  | cons c text induction =>
      exact congrArg (· + 1) (induction (position.next c))

theorem skip_inComment {start position : Position} {c : Char} {text : Located}
    (goesOn : ¬ (c = '*' ∧ text.head?.map Prod.fst = some '/')) :
    skip (some start) ((c, position) :: text) = skip (some start) text := by
  rw [skip]
  rintro _ _ _ headEq rfl
  cases headEq
  exact goesOn ⟨rfl, rfl⟩

theorem skip_outside {position : Position} {c : Char} {text : Located}
    (noComment : ¬ (c = '/' ∧ text.head?.map Prod.fst = some '*')) :
    skip none ((c, position) :: text) =
      if isBlank c then skip none text else .ok ((c, position) :: text) := by
  rw [skip]
  rintro _ _ rfl rfl
  exact noComment ⟨rfl, rfl⟩

theorem fraction_of_places {start point : Position} {whole : List Char}
    {text : Located} (places : (text.head?.map Prod.fst).any Char.isDigit) :
    fraction start whole (('.', point) :: text) =
      .ok (decimal whole ((text.takeWhile isDigitAt).map Prod.fst),
        text.dropWhile isDigitAt) := by
  have isPlace : ¬ (text.takeWhile isDigitAt).isEmpty := by
    cases text with
    | nil => cases places
    | cons first text =>
      obtain ⟨c, position⟩ := first
      have isDigit : isDigitAt (c, position) = true := places
      simp [isDigit]
  rw [fraction, if_neg isPlace]

theorem fraction_of_whole {start : Position} {whole : List Char}
    {text : Located} (noPlaces : ¬ (text.head?.map Prod.fst = some '.' ∧
      (text.tail.head?.map Prod.fst).any Char.isDigit)) :
    fraction start whole text = (integer start whole).map fun kind =>
      (kind, text) := by
  unfold fraction
  split
  · next point tail =>
    have noPlace : (tail.takeWhile isDigitAt).isEmpty := by
      cases tail with
      | nil => rfl
      | cons first tail =>
        obtain ⟨c, position⟩ := first
        have noDigit : ¬ isDigitAt (c, position) = true := fun isDigit =>
          noPlaces ⟨rfl, isDigit⟩
        simp [noDigit]
    rw [if_pos noPlace]
  · rfl

end Scan

namespace Pass

open Scan

variable {α β : Type} {caret : Caret} {start stop position : Position}
  {c : Char} {text : Located} {fuel : Nat}

theorem bind_of_ok {first : Pass α} {next : α → Pass β} {value : α}
    {rest : Caret} (ran : first caret = .ok value rest) :
    (first >>= next) caret = next value rest := by
  simp only [bind, EStateM.bind, ran]

theorem bind_of_error {first : Pass α} {next : α → Pass β}
    {error : Option ScanError} {rest : Caret}
    (ran : first caret = .error error rest) :
    (first >>= next) caret = .error error rest := by
  simp only [bind, EStateM.bind, ran]

theorem get_bind (next : Caret → Pass β) :
    ((get : Pass Caret) >>= next) caret = next caret caret :=
  rfl

theorem advance_apply (faces : caret.Faces stop ((c, position) :: text)) :
    advance caret = .ok (some c) (caret.past c) := by
  have seen : caret.peek? = some c := faces.peek?
  rw [advance, get_bind, seen]
  rfl

theorem advance_apply_nil (faces : caret.Faces stop []) :
    advance caret = .ok none caret := by
  have seen : caret.peek? = none := faces.peek?
  rw [advance, get_bind, seen]
  rfl

/-- A pass ends as the located characters say: at the fault, or with the value
and in front of the characters that are left. -/
inductive Agrees (stop : Position) :
    Except ScanError (α × Located) →
      EStateM.Result (Option ScanError) Caret α → Prop
  | ok {value : α} {text : Located} {rest : Caret}
      (faces : rest.Faces stop text) :
      Agrees stop (.ok (value, text)) (.ok value rest)
  | error {error : ScanError} {rest : Caret} :
      Agrees stop (.error error) (.error (some error) rest)

theorem Agrees.exists_ok {value : α} {outcome : EStateM.Result _ _ α}
    (agrees : Agrees stop (.ok (value, text)) outcome) :
    ∃ rest, outcome = .ok value rest ∧ rest.Faces stop text := by
  cases agrees with
  | ok faces => exact ⟨_, rfl, faces⟩

theorem Agrees.exists_error {error : ScanError} {outcome : EStateM.Result _ _ α}
    (agrees : Agrees stop (.error error) outcome) :
    ∃ rest, outcome = .error (some error) rest := by
  cases agrees
  exact ⟨_, rfl⟩

theorem Agrees.map {result : Except ScanError (α × Located)} {pass : Pass α}
    (agrees : Agrees stop result (pass caret)) (f : α → β) :
    Agrees stop (result.map fun found => (f found.1, found.2))
      ((pass >>= fun value => pure (f value)) caret) := by
  cases result with
  | ok found =>
    obtain ⟨rest, ran, faces⟩ := agrees.exists_ok
    rw [bind_of_ok ran]
    exact .ok faces
  | error fault =>
    obtain ⟨rest, ran⟩ := agrees.exists_error
    rw [bind_of_error ran]
    exact .error

/-- A comment is passed over up to its end, where skipping goes on, or else it
has no end. -/
theorem comment_apply (faces : caret.Faces stop text)
    (enough : text.length < fuel) :
    (∃ rest after, comment start fuel caret = .ok () rest ∧
      rest.Faces stop after ∧
      after.length < text.length ∧ skip (some start) text = skip none after) ∨
    ∃ rest, comment start fuel caret =
        .error (some ⟨.unterminatedComment, start⟩) rest ∧
      skip (some start) text = .error ⟨.unterminatedComment, start⟩ := by
  induction fuel generalizing caret text with
  | zero => exact absurd enough (Nat.not_lt_zero _)
  | succ fuel induction =>
    rw [comment, get_bind, faces.peek?, faces.second?]
    cases text with
    | nil => exact .inr ⟨caret, rfl, rfl⟩
    | cons first text =>
      obtain ⟨c, position⟩ := first
      simp only [List.length_cons] at enough ⊢
      by_cases closes : c = '*' ∧ text.head?.map Prod.fst = some '/'
      · obtain ⟨rfl, isSlash⟩ := closes
        obtain ⟨⟨_, slash⟩, isHead, rfl⟩ := Option.map_eq_some_iff.mp isSlash
        obtain ⟨after, rfl⟩ := List.head?_eq_some_iff.mp isHead
        refine .inl ⟨_, after, ?_, faces.past.past, ?_, rfl⟩
        · exact (bind_of_ok (advance_apply faces)).trans
            (bind_of_ok (advance_apply faces.past))
        · simp only [List.length_cons]
          omega
      · rw [if_neg (by simp), if_neg (by simpa using closes),
          bind_of_ok (advance_apply faces), skip_inComment closes]
        rcases induction faces.past (by omega) with
          ⟨rest, after, ran, restFaces, shorter, same⟩ | failed
        · exact .inl ⟨rest, after, ran, restFaces, by omega, same⟩
        · exact .inr failed

theorem gap_agrees (faces : caret.Faces stop text)
    (enough : text.length < fuel) :
    Agrees stop ((skip none text).map fun rest => ((), rest))
      (gap fuel caret) := by
  induction fuel generalizing caret text with
  | zero => exact absurd enough (Nat.not_lt_zero _)
  | succ fuel induction =>
    cases text with
    | nil =>
      have seen : caret.peek? = none := faces.peek?
      rw [gap, get_bind, seen]
      exact .ok faces
    | cons first text =>
      obtain ⟨c, position⟩ := first
      simp only [List.length_cons] at enough
      have seen : caret.peek? = some c := faces.peek?
      have seenSecond : caret.second? = text.head?.map Prod.fst := faces.second?
      have started : caret.position = position := faces.position_eq
      rw [gap, get_bind, seen, seenSecond, started, Option.any_some]
      by_cases opens : c = '/' ∧ text.head?.map Prod.fst = some '*'
      · obtain ⟨rfl, isStar⟩ := opens
        obtain ⟨⟨_, star⟩, isHead, rfl⟩ := Option.map_eq_some_iff.mp isStar
        obtain ⟨behind, rfl⟩ := List.head?_eq_some_iff.mp isHead
        simp only [List.length_cons] at enough
        rw [if_neg (by decide), if_pos ⟨rfl, rfl⟩,
          bind_of_ok (advance_apply faces),
          bind_of_ok (advance_apply faces.past)]
        have opened : skip none (('/', position) :: ('*', star) :: behind) =
            skip (some position) behind := rfl
        rw [opened]
        have enoughBehind : behind.length < fuel := by omega
        rcases comment_apply faces.past.past enoughBehind with
          ⟨rest, after, ran, restFaces, shorter, same⟩ | ⟨rest, ran, same⟩
        · rw [bind_of_ok ran, same]
          exact induction restFaces (by omega)
        · rw [bind_of_error ran, same]
          exact .error
      · by_cases blank : isBlank c
        · rw [skip_outside opens, if_pos blank, if_pos blank,
            bind_of_ok (advance_apply faces)]
          exact induction faces.past (by omega)
        · rw [skip_outside opens, if_neg blank, if_neg blank,
            if_neg (by simpa using opens)]
          exact .ok faces

theorem isDigitAt_eq (located : Char × Position) :
    isDigitAt located = located.1.isDigit :=
  rfl

theorem isWordCharAt_eq (located : Char × Position) :
    isWordCharAt located = isWordChar located.1 :=
  rfl

/-- The characters of a kind are read up to the first other one. -/
theorem run_apply {kind : Char → Bool} {kindAt : Char × Position → Bool}
    (sameKind : ∀ located, kindAt located = kind located.1)
    (faces : caret.Faces stop text) (enough : text.length < fuel) :
    ∃ rest, run kind fuel caret =
      .ok ((text.takeWhile kindAt).map Prod.fst) rest ∧
      rest.Faces stop (text.dropWhile kindAt) := by
  induction fuel generalizing caret text with
  | zero => exact absurd enough (Nat.not_lt_zero _)
  | succ fuel induction =>
    cases text with
    | nil =>
      have seen : caret.peek? = none := faces.peek?
      rw [run, get_bind, seen]
      exact ⟨caret, rfl, faces⟩
    | cons first text =>
      obtain ⟨c, position⟩ := first
      simp only [List.length_cons] at enough
      have seen : caret.peek? = some c := faces.peek?
      rw [run, get_bind, seen]
      by_cases fits : kind c = true
      · have fitsAt : kindAt (c, position) = true := (sameKind _).trans fits
        rw [List.takeWhile_cons_of_pos fitsAt,
          List.dropWhile_cons_of_pos fitsAt]
        simp only [if_pos fits]
        obtain ⟨rest, ran, restFaces⟩ := induction faces.past (by omega)
        rw [bind_of_ok (advance_apply faces), bind_of_ok ran]
        exact ⟨rest, rfl, restFaces⟩
      · have failsAt : ¬ kindAt (c, position) = true := by rwa [sameKind]
        rw [List.takeWhile_cons_of_neg failsAt,
          List.dropWhile_cons_of_neg failsAt]
        simp only [if_neg fits]
        exact ⟨caret, rfl, faces⟩

theorem stringBody_agrees (faces : caret.Faces stop text)
    (enough : text.length < fuel) :
    Agrees stop (Scan.stringBody start stop text)
      (stringBody start fuel caret) := by
  induction fuel generalizing caret text with
  | zero => exact absurd enough (Nat.not_lt_zero _)
  | succ fuel induction =>
    cases text with
    | nil =>
      have seen : caret.peek? = none := faces.peek?
      rw [stringBody, get_bind, seen]
      exact .error
    | cons first text =>
      obtain ⟨c, position⟩ := first
      simp only [List.length_cons] at enough
      have seen : caret.peek? = some c := faces.peek?
      rw [stringBody, get_bind, seen]
      dsimp only
      rw [bind_of_ok (advance_apply faces)]
      unfold Scan.stringBody
      by_cases closes : c = '"'
      · rw [if_pos closes, if_pos closes]
        exact .ok faces.past
      rw [if_neg closes, if_neg closes]
      by_cases escapes : c = '\\'
      · rw [if_pos escapes, if_pos escapes]
        cases text with
        | nil =>
          rw [bind_of_ok (advance_apply_nil faces.past)]
          dsimp only
          rw [get_bind, faces.past.position_eq]
          exact .error
        | cons first text =>
          obtain ⟨escaped, _⟩ := first
          rw [bind_of_ok (advance_apply faces.past)]
          simp only [List.length_cons] at enough ⊢
          cases meant : unescape escaped with
          | none =>
            dsimp only
            rw [get_bind, faces.past.past.position_eq]
            exact .error
          | some plain => exact (induction faces.past.past (by omega)).map _
      · rw [if_neg escapes, if_neg escapes]
        exact (induction faces.past (by omega)).map _

theorem fraction_agrees {whole : List Char} (faces : caret.Faces stop text)
    (enough : text.length < fuel) :
    Agrees stop (Scan.fraction start whole text)
      (fraction fuel start whole caret) := by
  rw [fraction, get_bind, faces.peek?, faces.second?]
  by_cases places : text.head?.map Prod.fst = some '.' ∧
      (text.tail.head?.map Prod.fst).any Char.isDigit
  · rw [if_pos places]
    obtain ⟨isPoint, areDigits⟩ := places
    obtain ⟨⟨_, point⟩, isHead, rfl⟩ := Option.map_eq_some_iff.mp isPoint
    obtain ⟨tail, rfl⟩ := List.head?_eq_some_iff.mp isHead
    rw [List.tail_cons] at areDigits
    obtain ⟨rest, ran, restFaces⟩ :=
      run_apply isDigitAt_eq faces.past (Nat.lt_of_succ_lt enough)
    rw [fraction_of_places areDigits, bind_of_ok (advance_apply faces),
      bind_of_ok ran]
    exact .ok restFaces
  · rw [if_neg places, fraction_of_whole places]
    cases integer start whole with
    | ok kind => exact .ok faces
    | error fault => exact .error

theorem number_agrees (faces : caret.Faces stop text)
    (enough : text.length < fuel) :
    Agrees stop (Scan.number c start text) (number fuel c start caret) := by
  obtain ⟨rest, ran, restFaces⟩ := run_apply isDigitAt_eq faces enough
  rw [number, bind_of_ok ran]
  exact fraction_agrees restFaces
    (Nat.lt_of_le_of_lt (length_dropWhile_le isDigitAt text) enough)

theorem word_agrees (faces : caret.Faces stop text)
    (enough : text.length < fuel) :
    Agrees stop (.ok (Scan.word c text)) (word fuel c caret) := by
  obtain ⟨rest, ran, restFaces⟩ := run_apply isWordCharAt_eq faces enough
  rw [word, bind_of_ok ran]
  exact .ok restFaces

theorem symbol_agrees (faces : caret.Faces stop text) :
    Agrees stop (Scan.symbol c start text) (symbol c start caret) := by
  have joinedEq : (text.head?.bind fun d => Symbol.ofChars? [c, d.1]) =
      (text.head?.map Prod.fst).bind fun d => Symbol.ofChars? [c, d] := by
    rw [Option.bind_map]
    rfl
  rw [symbol, get_bind, faces.peek?, Scan.symbol, joinedEq]
  cases joined : (text.head?.map Prod.fst).bind fun d =>
    Symbol.ofChars? [c, d] with
  | none =>
    cases Symbol.ofChars? [c] with
    | none => exact .error
    | some sign => exact .ok faces
  | some sign =>
    cases text with
    | nil => cases joined
    | cons first text =>
      obtain ⟨d, position⟩ := first
      dsimp only
      rw [bind_of_ok (advance_apply faces)]
      exact .ok faces.past

theorem kind_agrees (faces : caret.Faces stop text)
    (enough : text.length < fuel) :
    Agrees stop (Scan.token stop c start text) (kind fuel c start caret) := by
  rw [kind, Scan.token]
  by_cases letter : c.isAlpha = true
  · rw [if_pos letter, if_pos letter]
    exact word_agrees faces enough
  by_cases digit : c.isDigit = true
  · rw [if_neg letter, if_neg letter, if_pos digit, if_pos digit]
    exact number_agrees faces enough
  rw [if_neg letter, if_neg letter, if_neg digit, if_neg digit]
  by_cases quote : c = '"'
  · rw [if_pos quote, if_pos quote]
    exact (stringBody_agrees faces enough).map (Token.Kind.string <|
      String.ofList ·)
  · rw [if_neg quote, if_neg quote]
    exact symbol_agrees faces

theorem token_agrees (faces : caret.Faces stop ((c, start) :: text))
    (enough : text.length < fuel) :
    Agrees stop ((Scan.token stop c start text).map fun (kind, rest) =>
      ((⟨kind, start⟩ : Token), rest)) (token fuel caret) := by
  have started : caret.position = start := faces.position_eq
  rw [token, get_bind, started, bind_of_ok (advance_apply faces)]
  exact (kind_agrees faces.past enough).map (Token.mk · start)

/-- The tokens are the same to the end of the text or to the first fault. -/
theorem tokens_agrees (faces : caret.Faces stop text)
    (enough : text.length < fuel) :
    Agrees stop ((Scan.tokens stop text).map fun found => (found, []))
      (tokens fuel caret) := by
  induction fuel generalizing caret text with
  | zero => exact absurd enough (Nat.not_lt_zero _)
  | succ fuel induction =>
    have passed := gap_agrees faces enough
    rw [tokens, Scan.tokens]
    split
    · next skipped =>
      rw [skipped] at passed
      obtain ⟨rest, ran⟩ := passed.exists_error
      rw [bind_of_error ran]
      exact .error
    · next skipped =>
      rw [skipped] at passed
      obtain ⟨rest, ran, restFaces⟩ := passed.exists_ok
      have atEnd : rest.peek? = none := restFaces.peek?
      rw [bind_of_ok ran, get_bind, if_pos atEnd, restFaces.position_eq]
      exact .ok restFaces
    · next c start behind skipped =>
      rw [skipped] at passed
      obtain ⟨rest, ran, restFaces⟩ := passed.exists_ok
      have notAtEnd : ¬ rest.peek? = none := by
        rw [restFaces.peek?]
        exact Option.some_ne_none c
      have shorter : behind.length < text.length := length_le_of_skip skipped
      have readNext := token_agrees restFaces (Nat.lt_trans shorter enough)
      rw [bind_of_ok ran, get_bind, if_neg notAtEnd]
      split
      · next read =>
        rw [read] at readNext
        obtain ⟨last, failed⟩ := readNext.exists_error
        rw [bind_of_error failed]
        exact .error
      · next kind after read =>
        rw [read] at readNext
        obtain ⟨last, readTo, lastFaces⟩ := readNext.exists_ok
        have afterShorter := length_le_of_token read
        have others := induction lastFaces (by omega)
        rw [bind_of_ok readTo]
        generalize Scan.tokens stop after = found at others ⊢
        cases found <;> exact others.map (_ :: ·)

/-- Counting lines and columns on the way gives the tokens of a source text or
the same fault, and the fuel never runs out. -/
theorem scan_eq (source : String) :
    scan source = (PL0.scan source).mapError some := by
  have enough : (locate Position.first source.toList).length <
      source.toList.length + 1 := by
    rw [length_locate]
    exact Nat.lt_succ_self _
  have agrees : Agrees _ ((PL0.scan source).map fun found => (found, [])) _ :=
    tokens_agrees (Caret.start_faces source.toList) enough
  rw [scan]
  cases read : PL0.scan source with
  | ok found =>
    rw [read] at agrees
    obtain ⟨rest, ran, -⟩ := agrees.exists_ok
    rw [ran]
    rfl
  | error fault =>
    rw [read] at agrees
    obtain ⟨rest, ran⟩ := agrees.exists_error
    rw [ran]
    rfl

end Pass

end PL0
