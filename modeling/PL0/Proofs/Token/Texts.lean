import PL0.Proofs.Code.Lines
import PL0.Report

/-!
# The texts of tokens

What a table or a diagnostic shows of a scanned token stands on one line,
unless the token is a string with line feeds in it: a string is shown as it
is.  So the table of tokens has a row for each token, and each row is a line
exactly if no string holds a line feed.
-/

namespace PL0

/-- The line feeds of a string. -/
def Token.Kind.lineFeeds : Token.Kind → Nat
  | .string text => Text.lineFeeds text
  | _ => 0

theorem Binary64.isLine_text {value : Binary64}
    (nonNegative : value.IsNonNegative) : IsLine value.text := by
  have legible : (Operand.float value).IsLegible fun _ => True := nonNegative
  have isLine := Operand.isLine_text legible
  rwa [Operand.text] at isLine

theorem Keyword.isLine_spelling (word : Keyword) : IsLine word.spelling := by
  cases word <;> decide

theorem Symbol.isLine_spelling (sign : Symbol) : IsLine sign.spelling := by
  cases sign <;> decide

namespace Token.Kind

/-- Only a string brings line feeds into the text of a token. -/
theorem lineFeeds_lexeme {kind : Token.Kind} (isScanned : kind.IsScanned) :
    Text.lineFeeds kind.lexeme = kind.lineFeeds := by
  cases kind with
  | string text => rfl
  | integer value =>
      exact Text.lineFeeds_eq_zero_iff.mpr (isLine_toString_int value.toInt)
  | float value =>
      exact Text.lineFeeds_eq_zero_iff.mpr (Binary64.isLine_text isScanned)
  | identifier name =>
      exact Text.lineFeeds_eq_zero_iff.mpr isScanned.isField.isLine
  | keyword word => exact Text.lineFeeds_eq_zero_iff.mpr word.isLine_spelling
  | symbol sign => exact Text.lineFeeds_eq_zero_iff.mpr sign.isLine_spelling
  | endOfInput => rfl

/-- A description adds words and quotes to the text of a token. -/
theorem exists_description_eq (kind : Token.Kind) :
    ∃ front back, IsLine front ∧ IsLine back ∧
    kind.description = front ++ kind.lexeme ++ back := by
  cases kind with
  | integer value =>
      exact ⟨"integer literal ", "", by decide, by decide,
        String.append_empty.symm⟩
  | float value =>
      exact ⟨"float literal ", "", by decide, by decide,
        String.append_empty.symm⟩
  | string text => exact ⟨"string literal \"", "\"", by decide, by decide, rfl⟩
  | identifier name => exact ⟨"identifier '", "'", by decide, by decide, rfl⟩
  | keyword word => exact ⟨"'", "'", by decide, by decide, rfl⟩
  | symbol sign => exact ⟨"'", "'", by decide, by decide, rfl⟩
  | endOfInput =>
      exact ⟨"end of input", "", by decide, by decide,
        (String.append_empty.trans String.append_empty).symm⟩

theorem lineFeeds_description {kind : Token.Kind} (isScanned : kind.IsScanned) :
    Text.lineFeeds kind.description = kind.lineFeeds := by
  obtain ⟨front, back, frontIsLine, backIsLine, descriptionEq⟩ :=
    kind.exists_description_eq
  rw [descriptionEq, Text.lineFeeds_enclosed frontIsLine backIsLine,
    lineFeeds_lexeme isScanned]

end Token.Kind

namespace Text

/-- Blanks in a row. -/
def blanks (count : Nat) : String :=
  String.ofList (List.replicate count ' ')

theorem isLine_blanks (count : Nat) : IsLine (blanks count) := by
  rw [IsLine, blanks, String.toList_ofList, List.mem_replicate]
  rintro ⟨-, isBlank⟩
  exact absurd isBlank (by decide)

end Text

namespace Token

/-- A text is a row for a token: the name of its kind, its value as text and
the number of its line, with blanks between them. -/
def IsRow (token : Token) (row : String) : Prop :=
  ∃ afterName afterValue, 0 < afterName ∧ 0 < afterValue ∧
    row = token.kind.tableName ++ Text.blanks afterName ++ token.kind.lexeme ++
      (Text.blanks afterValue ++ toString token.position.line)

/-- The row of a token in a table. -/
def row (token : Token) : String :=
  token.kind.tableName ++ Text.blanks (12 - token.kind.tableName.length + 1) ++
    token.kind.lexeme ++
      (Text.blanks (20 - token.kind.lexeme.length + 1) ++
        toString token.position.line)

theorem isRow_row (token : Token) : token.IsRow token.row :=
  ⟨_, _, Nat.succ_pos _, Nat.succ_pos _, rfl⟩

theorem tableRow_eq_row (token : Token) :
    tableRow token.kind.tableName token.kind.lexeme
      (toString token.position.line) = token.row ++ "\n" := by
  apply String.toList_injective
  simp [tableRow, row, fill, Text.blanks, List.replicate_succ']

theorem isLine_tableName (kind : Token.Kind) : IsLine kind.tableName := by
  cases kind with
  | keyword word => cases word <;> decide
  | symbol sign => cases sign <;> decide
  | _ =>
      rw [Kind.tableName]
      decide

theorem lineFeeds_row {token : Token} (isScanned : token.kind.IsScanned) :
    Text.lineFeeds token.row = token.kind.lineFeeds := by
  have front := (isLine_tableName token.kind).append
    (Text.isLine_blanks (12 - token.kind.tableName.length + 1))
  have back := (Text.isLine_blanks (20 - token.kind.lexeme.length + 1)).append
    (isLine_toString_nat token.position.line)
  rw [row, Text.lineFeeds_enclosed front back, Kind.lineFeeds_lexeme isScanned]

/-- The heading of a table. -/
def heading : String :=
  "Type         Value                Line"

/-- A table is its heading and its rows, all ended by line feeds. -/
theorem table_eq (tokens : List Token) :
    table tokens =
      String.join ((heading :: tokens.map row).map (· ++ "\n")) := by
  have headingEq : tableRow "Type" "Value" "Line" = heading ++ "\n" := by decide
  rw [table, headingEq, List.map_cons, String.join_cons, List.map_map]
  congr 3
  exact funext tableRow_eq_row

theorem lines_table (tokens : List Token) :
    Text.lines (table tokens) =
      heading :: ((tokens.map row).flatMap Text.lines ++ [""]) := by
  have headingIsLine : IsLine heading := by decide
  rw [table_eq, Text.lines_join, List.flatMap_cons,
    Text.lines_of_isLine headingIsLine]
  rfl

end Token

theorem render_tokens_eq_ok {source : String} {tokens : List Token}
    (scanned : scan source = .ok tokens) :
    Report.tokens.render source = .ok (Token.table tokens) := by
  rw [Report.render, tokensOf, scanned]
  rfl

/-- The table of the tokens of a text has a heading and a row for each token,
which shows the kind of the token, its value and its line.  There is one line
for each, and one more for each line feed in a string; so the rows are the
lines of the table exactly if no string holds a line feed. -/
theorem render_tokens_lines {source : String} {tokens : List Token}
    (scanned : scan source = .ok tokens) :
    ∃ text rows, Report.tokens.render source = .ok text ∧
      List.Forall₂ Token.IsRow tokens rows ∧
      Text.lines text = Token.heading :: (rows.flatMap Text.lines ++ [""]) ∧
      Text.lineFeeds text =
        tokens.length + 1 + (tokens.map fun token => token.kind.lineFeeds).sum ∧
      (Text.lines text = Token.heading :: (rows ++ [""]) ↔
        ∀ token ∈ tokens, token.kind.lineFeeds = 0) := by
  have counts : (tokens.map Token.row).map Text.lineFeeds =
      tokens.map fun token => token.kind.lineFeeds :=
    Text.map_lineFeeds_map fun token member =>
      Token.lineFeeds_row (scan_isScanned scanned token member)
  have linesEq := Token.lines_table tokens
  refine ⟨_, tokens.map Token.row, render_tokens_eq_ok scanned, ?_,
    linesEq, ?_, ?_⟩
  · rw [List.forall₂_map_right_iff, List.forall₂_same]
    exact fun token _ => token.isRow_row
  · have counted := Text.length_lines (Token.table tokens)
    rw [linesEq, List.length_cons, List.length_append,
      Text.length_flatMap_lines, counts, List.length_map,
      List.length_singleton] at counted
    omega
  · rw [linesEq, List.cons_inj_right, List.append_cancel_right_eq,
      Text.flatMap_lines_eq_self_iff, List.forall_mem_map]
    refine forall₂_congr fun token member => ?_
    rw [← Text.lineFeeds_eq_zero_iff,
      Token.lineFeeds_row (scan_isScanned scanned token member)]

/-- A text with two strings, one of them with a line feed. -/
def brokenString : String :=
  "print(\"a\\nb\", \"c\")"

theorem render_tokens_lines_brokenString :
    ∃ tokens text, scan brokenString = .ok tokens ∧ tokens.length = 7 ∧
      Report.tokens.render brokenString = .ok text ∧
        Text.lineFeeds text = 9 := by
  obtain ⟨tokens, scanned, lengthEq, sumEq⟩ :
    ∃ tokens, scan brokenString = .ok tokens ∧
      tokens.length = 7 ∧
        (tokens.map fun token => token.kind.lineFeeds).sum = 1 :=
    ⟨[⟨.keyword .printWord, ⟨1, 1⟩⟩, ⟨.symbol .openParen, ⟨1, 6⟩⟩,
      ⟨.string "a\nb", ⟨1, 7⟩⟩, ⟨.symbol .comma, ⟨1, 13⟩⟩,
      ⟨.string "c", ⟨1, 15⟩⟩, ⟨.symbol .closeParen, ⟨1, 18⟩⟩,
      ⟨.endOfInput, ⟨1, 19⟩⟩], by decide +kernel, by decide +kernel,
        by decide +kernel⟩
  obtain ⟨text, -, rendered, -, -, counted, -⟩ := render_tokens_lines scanned
  rw [lengthEq, sumEq] at counted
  exact ⟨tokens, text, scanned, lengthEq, rendered, counted⟩

/-- The table of two tokens, a string and the end, has four lines: the
heading, two for the string and one for the end. -/
theorem render_tokens_brokenRow :
    ∃ tokens text, scan "\"a\\nb\"" = .ok tokens ∧ tokens.length = 2 ∧
      Report.tokens.render "\"a\\nb\"" = .ok text ∧
      Text.lines text = [Token.heading, "STRING       a",
        "b                  1", "EOF                               1", ""] := by
  have scanned : scan "\"a\\nb\"" =
      .ok [⟨.string "a\nb", ⟨1, 1⟩⟩, ⟨.endOfInput, ⟨1, 7⟩⟩] := by
    decide +kernel
  exact ⟨_, _, scanned, rfl, render_tokens_eq_ok scanned, by decide +kernel⟩

end PL0
