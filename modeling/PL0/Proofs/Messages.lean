import PL0.Proofs.Grammar.Contents
import PL0.Proofs.Reading.ErrorOrder
import PL0.Proofs.Token.Faults
import PL0.Proofs.Token.Texts
import PL0.Proofs.Typing.FaultNames

/-!
# The lines of messages

A source text that cannot be compiled has a message for each of its faults,
and the messages stand under one another.  Names, numbers and symbols in a
message have no line feeds.  There are two ways for a line feed of the source
text to get into a message: a string where none is expected is shown as it is,
and so is a character that cannot be escaped.  If neither happens then each
message is a line.
-/

namespace PL0

/-- The line feeds that a fault shows. -/
def ScanFault.lineFeeds : ScanFault → Nat
  | .unknownEscape c => if c = '\n' then 1 else 0
  | _ => 0

/-- The line feeds of the token that was found. -/
def SyntaxError.lineFeeds (error : SyntaxError) : Nat :=
  error.found.elim 0 Token.Kind.lineFeeds

/-- The line feeds of the source text that each message shows. -/
def CompileError.lineFeeds : CompileError → List Nat
  | .scan error => [error.fault.lineFeeds]
  | .syntactic errors => errors.map SyntaxError.lineFeeds
  | .semantic errors => errors.map fun _ => 0
  | .internal _ => [0]

theorem isLine_singleton {c : Char} (noLineFeed : c ≠ '\n') :
    IsLine (String.singleton c) := by
  simpa [IsLine] using noLineFeed.symm

theorem ScanFault.lineFeeds_detail {fault : ScanFault}
    (isFound : fault.IsFound) :
    Text.lineFeeds fault.detail = fault.lineFeeds := by
  cases fault with
  | unknownEscape c =>
      have wordsIsLine : IsLine "Unknown escape sequence: \\" := by decide
      have shown : Text.lineFeeds (unknownEscape c).detail =
          Text.lineFeeds (String.singleton c) :=
        Text.lineFeeds_append_of_isLine wordsIsLine _
      rw [shown, lineFeeds]
      split
      · next isLineFeed =>
        subst isLineFeed
        decide
      · next noLineFeed =>
          exact Text.lineFeeds_eq_zero_iff.mpr (isLine_singleton noLineFeed)
  | unexpectedCharacter c =>
      have noBlank : Scan.isBlank c = false := isFound
      have noLineFeed : c ≠ '\n' := by
        rintro rfl
        exact absurd noBlank (by decide)
      have isLine : IsLine (unexpectedCharacter c).detail :=
        (IsLine.append (by decide) (isLine_singleton noLineFeed)).append
          (by decide)
      exact Text.lineFeeds_eq_zero_iff.mpr isLine
  | integerTooLarge digits =>
      have digitsAreLine : IsLine digits := by
        intro member
        exact absurd (isFound _ member) (by decide)
      have isLine : IsLine (integerTooLarge digits).detail :=
        IsLine.append (by decide) digitsAreLine
      exact Text.lineFeeds_eq_zero_iff.mpr isLine
  | unterminatedComment =>
      exact Text.lineFeeds_eq_zero_iff.mpr
        (by decide : IsLine unterminatedComment.detail)
  | unterminatedString =>
      exact Text.lineFeeds_eq_zero_iff.mpr
        (by decide : IsLine unterminatedString.detail)
  | endInString =>
      exact Text.lineFeeds_eq_zero_iff.mpr
        (by decide : IsLine endInString.detail)

theorem ScanError.lineFeeds_message {error : ScanError}
    (isFound : error.fault.IsFound) :
    Text.lineFeeds error.message = error.fault.lineFeeds := by
  have frontIsLine :
      IsLine ("Lexer error at line " ++ toString error.position.line ++
      ", column " ++ toString error.position.column ++ ": ") :=
    (((IsLine.append (by decide) (isLine_toString_nat _)).append
      (by decide)).append (isLine_toString_nat _)).append (by decide)
  calc Text.lineFeeds error.message
      = Text.lineFeeds error.fault.detail :=
        Text.lineFeeds_append_of_isLine frontIsLine _
    _ = error.fault.lineFeeds := ScanFault.lineFeeds_detail isFound

theorem Expectation.isLine_text (expected : Expectation) :
    IsLine expected.text := by
  cases expected <;> decide

theorem SyntaxError.lineFeeds_message {error : SyntaxError}
    (isScanned : ∀ kind ∈ error.found, kind.IsScanned) :
    Text.lineFeeds error.message = error.lineFeeds := by
  have frontIsLine :
      IsLine ("line " ++ toString error.position.line ++ ": unexpected ") :=
    (IsLine.append (by decide) (isLine_toString_nat _)).append (by decide)
  have backIsLine : IsLine (", expected " ++ error.expected.text) :=
    IsLine.append (by decide) error.expected.isLine_text
  rw [message, String.append_assoc,
    Text.lineFeeds_enclosed frontIsLine backIsLine, lineFeeds]
  cases found : error.found with
  | none => decide
  | some kind => exact Token.Kind.lineFeeds_description (isScanned kind found)

/-- What a syntax error found is one of the tokens. -/
theorem readProgram_found_isScanned {source : String} {tokens : List Token}
    (scanned : scan source = .ok tokens) {error : SyntaxError}
    (member : error ∈ (readProgram tokens).errors) :
    ∀ kind ∈ error.found, kind.IsScanned := by
  intro kind found
  have marked :=
    (readProgram_marks_sublist tokens).subset (List.mem_map_of_mem member)
  rcases List.mem_append.mp marked with inTokens | atEnd
  · obtain ⟨token, isToken, markEq⟩ := List.mem_map.mp inTokens
    have kindEq : some token.kind = error.found := congrArg Prod.fst markEq
    rw [Option.mem_def.mp found, Option.some.injEq] at kindEq
    rw [← kindEq]
    exact scan_isScanned scanned token
      ((List.takeWhile_sublist _).subset isToken)
  · have none : error.found = none :=
      congrArg Prod.fst (List.mem_singleton.mp atEnd)
    rw [none] at found
    cases found

theorem IsName.isLine {name : String} (isName : IsName name) : IsLine name :=
  isName.isField.isLine

theorem NameKind.isLine_text (kind : NameKind) : IsLine kind.text := by
  cases kind <;> decide

theorem Misuse.isLine_text (usage : Misuse) : IsLine usage.text := by
  cases usage <;> decide

theorem ArithOp.isLine_text (op : ArithOp) : IsLine op.text := by
  cases op <;> decide

theorem RelOp.isLine_text (op : RelOp) : IsLine op.text := by
  cases op <;> decide

theorem ValueType.isLine_text (type : ValueType) : IsLine type.text := by
  cases type with
  | scalar base => cases base <;> decide
  | array base => cases base <;> decide

theorem TypeContext.isLine_text {context : TypeContext}
    (areNames : ∀ name ∈ context.names, IsName name) : IsLine context.text := by
  cases context with
  | assignment => decide
  | returnValue => decide
  | arithmetic op =>
      exact (IsLine.append (by decide) op.isLine_text).append (by decide)
  | comparison op =>
      exact (IsLine.append (by decide) op.isLine_text).append (by decide)
  | sizeOf array =>
      have isName : IsName array := areNames array (by simp [names])
      exact (IsLine.append (by decide) isName.isLine).append (by decide)
  | indexOf array =>
      have isName : IsName array := areNames array (by simp [names])
      exact (IsLine.append (by decide) isName.isLine).append (by decide)
  | argument number callee =>
      have isName : IsName callee := areNames callee (by simp [names])
      exact (((IsLine.append (by decide) (isLine_toString_nat number)).append
        (by decide)).append isName.isLine).append (by decide)

/-- A fault that speaks of names stands on one line. -/
theorem SemanticFault.isLine_text {fault : SemanticFault}
    (areNames : ∀ name ∈ fault.names, IsName name) : IsLine fault.text := by
  cases fault with
  | duplicate kind name previous =>
      have isName : IsName name := areNames name (by simp [names])
      exact (((((IsLine.append (by decide) kind.isLine_text).append
        (by decide)).append
        isName.isLine).append (by decide)).append
          (isLine_toString_nat previous.line)).append
          (by decide)
  | undefined kind name =>
      have isName : IsName name := areNames name (by simp [names])
      exact (((IsLine.append (by decide) kind.isLine_text).append
        (by decide)).append isName.isLine).append (by decide)
  | arity callee expected got =>
      have isName : IsName callee := areNames callee (by simp [names])
      exact ((((IsLine.append (by decide) isName.isLine).append
        (by decide)).append
        (isLine_toString_nat expected)).append (by decide)).append
          (isLine_toString_nat got)
  | typeMismatch context expected found =>
      have contextIsLine : IsLine context.text :=
        TypeContext.isLine_text areNames
      exact ((((IsLine.append (by decide) contextIsLine).append
        (by decide)).append
        expected.isLine_text).append (by decide)).append found.isLine_text
  | breakOutsideLoop => decide
  | misuse name usage =>
      have isName : IsName name := areNames name (by simp [names])
      exact ((IsLine.append (by decide) isName.isLine).append
        (by decide)).append usage.isLine_text
  | missingMain => decide

theorem SemanticError.isLine_message {error : SemanticError}
    (areNames : ∀ name ∈ error.fault.names, IsName name) :
    IsLine error.message :=
  ((IsLine.append (by decide) (isLine_toString_nat _)).append
    (by decide)).append (SemanticFault.isLine_text areNames)

theorem InternalError.isLine_message (error : InternalError) :
    IsLine error.message := by
  cases error with
  | breakOutsideLoop position =>
      exact (IsLine.append (by decide)
        (isLine_toString_nat position.line)).append (by decide)
  | missingType node =>
      exact ((IsLine.append (by decide)
        (isLine_toString_nat node.position.line)).append
        (by decide)).append (isLine_toString_nat node.id)

/-- The line feeds in the messages are those of the source text that they
show. -/
theorem CompileError.map_lineFeeds_messages {source : String}
    {error : CompileError} (failed : compile source = .error error) :
    error.messages.map Text.lineFeeds = error.lineFeeds ∧
      error.messages ≠ [] := by
  rcases compile_eq_error_cases failed with ⟨fault, scanFailed, rfl⟩ |
    ⟨tokens, scanned, someErrors, rfl⟩ | ⟨tree, isTree, someErrors, rfl⟩ |
      ⟨fault, rfl⟩
  · have counted := ScanError.lineFeeds_message (scan_error_isFound scanFailed)
    refine ⟨?_, by simp [messages]⟩
    rw [messages, CompileError.lineFeeds, List.map_singleton, counted]
  · refine ⟨Text.map_lineFeeds_map ?_, by simpa [messages] using someErrors⟩
    intro error member
    exact SyntaxError.lineFeeds_message
      (readProgram_found_isScanned scanned member)
  · refine ⟨Text.map_lineFeeds_map ?_, by simpa [messages] using someErrors⟩
    intro error member
    have areNames :=
      analyse_errors_named (treeOf_areScanned isTree) error member
    exact Text.lineFeeds_eq_zero_iff.mpr (SemanticError.isLine_message areNames)
  · have counted := Text.lineFeeds_eq_zero_iff.mpr fault.isLine_message
    refine ⟨?_, by simp [messages]⟩
    rw [messages, CompileError.lineFeeds, List.map_singleton, counted]

/-- A source text that cannot be compiled has a message for each fault.  Each
message shows the line feeds of a string or an escape that is at fault, and
there is one line for each message and for each of these line feeds.  So the
messages are the lines exactly if no such line feed is shown. -/
theorem compile_error_lines {source : String} {error : CompileError}
    (failed : compile source = .error error) :
    error.messages.map Text.lineFeeds = error.lineFeeds ∧
      Text.lineFeeds error.message + 1 = error.count + error.lineFeeds.sum ∧
      (Text.lines error.message = error.messages ↔
        ∀ shown ∈ error.lineFeeds, shown = 0) := by
  obtain ⟨lineFeedsEq, nonempty⟩ := CompileError.map_lineFeeds_messages failed
  have linesEq : Text.lines error.message = error.messages.flatMap Text.lines :=
    Text.lines_intercalate nonempty
  refine ⟨lineFeedsEq, ?_, ?_⟩
  · rw [← Text.length_lines, linesEq, Text.length_flatMap_lines, lineFeedsEq,
      CompileError.count]
  · rw [linesEq, Text.flatMap_lines_eq_self_iff, ← lineFeedsEq,
      List.forall_mem_map]
    simp only [Text.lineFeeds_eq_zero_iff]

/-- A string with a line feed where a statement is expected, and two
assignments without values. -/
def misplacedString : String :=
  "fun main() begin \"a\\nb\"; x := ; skip; y := end"

theorem compile_error_lines_misplacedString :
    ∃ error, compile misplacedString = .error error ∧ error.count = 3 ∧
      error.lineFeeds = [1, 0, 0] ∧
      error.messages.map Text.lineFeeds = [1, 0, 0] ∧
      Text.lineFeeds error.message = 3 := by
  obtain ⟨error, failed, countEq, shownEq⟩ :
    ∃ error, compile misplacedString = .error error ∧
      error.count = 3 ∧ error.lineFeeds = [1, 0, 0] :=
    ⟨.syntactic
      [⟨some (.string "a\nb"), .statement, ⟨1, 18⟩⟩,
        ⟨some (.symbol .semicolon), .expression, ⟨1, 31⟩⟩,
        ⟨some (.keyword .endWord), .expression, ⟨1, 44⟩⟩],
      by decide +kernel, by decide +kernel, by decide +kernel⟩
  obtain ⟨messagesEq, counted, -⟩ := compile_error_lines failed
  rw [countEq, shownEq] at counted
  exact ⟨error, failed, countEq, shownEq, messagesEq.trans shownEq,
    by simpa using counted⟩

/-- The only message for a string where a statement is expected stands on two
lines. -/
theorem compile_error_brokenLine :
    ∃ error, compile "fun main() begin \"a\\nb\" end" = .error error ∧
      error.count = 1 ∧ Text.lines error.message =
        ["line 1: unexpected string literal \"a",
          "b\", expected statement"] := by
  refine ⟨.syntactic [⟨some (.string "a\nb"), .statement, ⟨1, 18⟩⟩], ?_,
    rfl, ?_⟩
  · decide +kernel
  · decide +kernel

end PL0
