import PL0.Token.Scan

/-!
# The token table

Tokens are listed one to a line under a heading: the name of the kind, the
value as text, and the line of the token.
-/

namespace PL0.Token

/-- A text filled up with spaces to `width` characters; a longer text is kept
whole. -/
def fill (width : Nat) (text : String) : String :=
  text ++ String.ofList (List.replicate (width - text.length) ' ')

/-- A line of the table. -/
def tableRow (name value line : String) : String :=
  fill 12 name ++ " " ++ fill 20 value ++ " " ++ line ++ "\n"

/-- The table of a sequence of tokens. -/
def table (tokens : List Token) : String :=
  tableRow "Type" "Value" "Line" ++
    String.join (tokens.map fun token =>
      tableRow token.kind.tableName token.kind.lexeme
        (toString token.position.line))

end PL0.Token
