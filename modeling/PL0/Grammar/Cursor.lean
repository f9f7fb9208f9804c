import PL0.Grammar.Expectation
import PL0.Tree.Basic

/-!
# Reading tokens

A cursor stands before the tokens that are still to be read and knows the next
free node number.  A reader moves the cursor on and returns what it has read,
or it stops at the token that does not fit and says what it expected there.
-/

namespace PL0

/-- The tokens still to be read, without the token for the end of the input. -/
structure Cursor where
  tokens : List Token
  /-- The position of the end of the input. -/
  stop : Position
  nextId : NodeId

namespace Cursor

/-- The cursor before a sequence of tokens.  The input ends at the first token
for its end; if there is none, it ends where its last token stands. -/
def ofTokens (tokens : List Token) : Cursor where
  tokens := tokens.takeWhile fun token => token.kind ≠ .endOfInput
  stop :=
    match tokens.find? (fun token => token.kind = .endOfInput),
      tokens.getLast? with
    | some token, _ => token.position
    | none, some token => token.position
    | none, none => ⟨0, 0⟩
  nextId := 0

/-- The kind of the next token. -/
def next? (cursor : Cursor) : Option Token.Kind :=
  cursor.tokens.head?.map Token.kind

/-- The kind of the token after the next one. -/
def second? (cursor : Cursor) : Option Token.Kind :=
  cursor.tokens.tail.head?.map Token.kind

/-- The position of the next token, or of the end of the input. -/
def position (cursor : Cursor) : Position :=
  cursor.tokens.head?.elim cursor.stop Token.position

/-- The cursor after the next token. -/
def advance (cursor : Cursor) : Cursor :=
  { cursor with tokens := cursor.tokens.tail }

/-- The error of a reader that stopped here. -/
def unexpected (cursor : Cursor) (expected : Expectation) : SyntaxError :=
  ⟨cursor.next?, expected, cursor.position⟩

end Cursor

/-- A reader of tokens. -/
abbrev Reader := EStateM Expectation Cursor

namespace Reader

/-- The kind of the next token, none at the end of the input. -/
def next? : Reader (Option Token.Kind) := do
  return (← get).next?

/-- The kind of the token after the next one. -/
def second? : Reader (Option Token.Kind) := do
  return (← get).second?

/-- The position of the next token. -/
def position : Reader Position := do
  return (← get).position

/-- How many tokens are left. -/
def remaining : Reader Nat := do
  return (← get).tokens.length

/-- Pass over the next token. -/
def advance : Reader Unit :=
  modify Cursor.advance

/-- Pass over the next token if it is of the given kind, and tell whether it
is. -/
def accept (kind : Token.Kind) : Reader Bool := do
  if (← next?) = some kind then
    advance
    return true
  else
    return false

/-- Pass over a token that must be of the given kind. -/
def expect (kind : Token.Kind) (expected : Expectation) : Reader Unit := do
  unless ← accept kind do
    throw expected

/-- An identifier and its position. -/
def identifier (expected : Expectation) : Reader (String × Position) := do
  match ← next? with
  | some (.identifier name) =>
    let position ← position
    advance
    return (name, position)
  | _ => throw expected

/-- Number a node that starts at `position`. -/
def newNode (position : Position) : Reader Node :=
  modifyGet fun cursor =>
    (⟨cursor.nextId, position⟩, { cursor with nextId := cursor.nextId + 1 })

/-- Try a reader.  Where it fails, the cursor stands as before, with no number
used. -/
def speculate {α : Type} (reader : Reader α) : Reader (Option α) :=
  fun cursor =>
    match reader cursor with
    | .ok value rest => .ok (some value) rest
    | .error _ _ => .ok none cursor

/-- Go on with a chain of operands: while `join?` knows the next token as an
operator, read another operand and join it to what is there.  At most `limit`
operators are read, which is no restriction where `limit` tokens are left. -/
def chainFrom {α : Type} (operand : Reader α)
    (join? : Token.Kind → Option (α → α → Reader α)) : Nat → α → Reader α
  | 0, left => pure left
  | limit + 1, left => do
    match (← next?).bind join? with
    | none => pure left
    | some join =>
      advance
      let right ← operand
      let joined ← join left right
      chainFrom operand join? limit joined

/-- A chain of operands, joined from the left. -/
def chain {α : Type} (limit : Nat) (operand : Reader α)
    (join? : Token.Kind → Option (α → α → Reader α)) : Reader α := do
  let first ← operand
  chainFrom operand join? limit first

/-- Items between commas, at least one and at most `limit + 1`. -/
def commaList {α : Type} (item : Reader α) : Nat → Reader (List α)
  | 0 => do
    return [← item]
  | limit + 1 => do
    let first ← item
    if ← accept (.symbol .comma) then
      return first :: (← commaList item limit)
    else
      return [first]

end Reader

end PL0
