import PL0.Proofs.Code.Unambiguity

/-!
# The lines of a listing

The listing of compiled code has a line for each instruction and no other
lines.  The strings of a program may hold line feeds, but their escapes do
not, and neither do names, numbers and labels.  No text of an instruction
starts with a blank, so the margin of a line can be taken off again.
-/

namespace PL0

namespace Text

/-- A line without the margin, if it has one. -/
def outdent (line : String) : String :=
  if margin <+: line.toList then String.ofList (line.toList.drop margin.length)
    else line

theorem not_margin_isPrefix {text : String}
    (notBlank : text.toList.head? ≠ some ' ') : ¬ margin <+: text.toList := by
  rintro ⟨rest, textEq⟩
  rw [← textEq] at notBlank
  exact notBlank rfl

end Text

namespace Instr

variable {allowed : String → Prop} {instr : Instr}

/-- The line of an instruction, without the line feed behind it. -/
def row (instr : Instr) : String :=
  String.ofList instr.lineBody

theorem line_eq_row (instr : Instr) : instr.line = instr.row ++ "\n" := by
  apply String.toList_injective
  rw [toList_line, row, String.toList_append, String.toList_ofList]
  rfl

theorem isLine_row (legible : instr.IsLegible allowed) : IsLine instr.row := by
  rw [IsLine, row, String.toList_ofList]
  exact newline_notMem_lineBody legible

theorem isFlushLeft_eq_false_iff : instr.isFlushLeft = false ↔
    (∀ point, instr ≠ .label point) ∧
      (∀ function params, instr ≠ .enter function params) ∧
      ∀ function, instr ≠ .leave function := by
  cases instr <;> simp [isFlushLeft]

/-- What is left of a line without its margin is the text of the instruction. -/
theorem outdent_row (legible : instr.IsLegible allowed) :
    Text.outdent instr.row = instr.text ∧
      (Text.margin <+: instr.row.toList ↔ instr.isFlushLeft = false) := by
  have noMargin := Text.not_margin_isPrefix (isLine_text legible).2
  cases flush : instr.isFlushLeft with
  | true =>
      have rowEq : instr.row = instr.text := by simp [row, lineBody, flush]
      rw [rowEq, Text.outdent, if_neg noMargin]
      simpa using noMargin
  | false =>
      have rowEq : instr.row.toList = Text.margin ++ instr.text.toList := by
        simp [row, lineBody, flush]
      have hasMargin : Text.margin <+: instr.row.toList := ⟨_, rowEq.symm⟩
      refine ⟨?_, by simpa using hasMargin⟩
      rw [Text.outdent, if_pos hasMargin, rowEq, List.drop_left,
        String.ofList_toList]

/-- The lines of a listing are those of its instructions. -/
theorem lines_listing {code : List Instr}
    (legible : ∀ instr ∈ code, instr.IsLegible allowed) :
    Text.lines (listing code) = code.map row ++ [""] := by
  have joined :
      listing code = String.join ((code.map row).map (· ++ "\n")) := by
    rw [listing, List.map_map]
    congr 2
    exact funext line_eq_row
  have areLines : ∀ text ∈ code.map row, IsLine text :=
    List.forall_mem_map.mpr fun instr member =>
      isLine_row (legible instr member)
  rw [joined, Text.lines_join, Text.flatMap_lines_eq_self_iff.mpr areLines]

/-- What prints different texts is listed differently. -/
theorem print_line_injective {text other : String}
    (same : (print text).line = (print other).line) : text = other := by
  have sameList := congrArg String.toList same
  simp only [line, Instr.text, isFlushLeft, String.toList_append,
    List.append_assoc] at sameList
  have ended := List.append_cancel_left (List.append_cancel_left sameList)
  exact Text.quoted_injective
    (String.toList_injective (List.append_cancel_right ended))

end Instr

/-- The listing of compiled code has one line for each instruction, each of
them ended by a line feed.  Without the margin, which all but labels and the
borders of functions have, the lines are the texts of the instructions.  What
prints different texts has different lines. -/
theorem compile_listing_lines {source : String} {code : List Instr}
    (compiled : compile source = .ok code) :
    ∃ rows, Text.lines (Instr.listing code) = rows ++ [""] ∧
      rows.map Text.outdent = code.map Instr.text ∧
      List.Forall₂ (fun instr row => Text.margin <+: row.toList ↔
        (∀ point, instr ≠ .label point) ∧
          (∀ function params, instr ≠ .enter function params) ∧
          ∀ function, instr ≠ .leave function) code rows ∧
      ∀ text other, text ≠ other →
        (Instr.print text).line ≠ (Instr.print other).line := by
  have legible : ∀ instr ∈ code, instr.IsLegible fun _ => True :=
    compile_isLegible compiled fun _ _ => trivial
  refine ⟨code.map Instr.row, Instr.lines_listing legible, ?_, ?_, ?_⟩
  · rw [List.map_map]
    exact List.map_congr_left fun instr member =>
      (Instr.outdent_row (legible instr member)).1
  · rw [List.forall₂_map_right_iff, List.forall₂_same]
    intro instr member
    rw [(Instr.outdent_row (legible instr member)).2,
      Instr.isFlushLeft_eq_false_iff]
  · intro text other different same
    exact different (Instr.print_line_injective same)

/-- A program that prints a quote, a backslash and two line feeds, one of them
escaped. -/
def printsAcrossLines : String :=
  "fun main() i: int; begin while i < 2 do print(\"a\\\"\\\\\\n\n    b\") end"

/-- The lines of its listing. -/
def printsAcrossLinesRows : List String :=
  ["FUNC main()", "WHILE0_START:", "    LTI i, 2 -> R0",
    "    IF R0 GOTO WHILE0_BODY", "    GOTO WHILE0_EXIT", "WHILE0_BODY:",
    "    PRINT \"a\\\"\\\\\\n\\n    b\"",
    "    GOTO WHILE0_START", "WHILE0_EXIT:", "ENDFUNC main"]

theorem compile_listing_lines_printsAcrossLines :
    ∃ code, compile printsAcrossLines = .ok code ∧
      Text.lines (Instr.listing code) = printsAcrossLinesRows ++ [""] ∧
      printsAcrossLinesRows.map Text.outdent = code.map Instr.text := by
  obtain ⟨code, compiled, linesEq⟩ :
    ∃ code, compile printsAcrossLines = .ok code ∧
      Text.lines (Instr.listing code) = printsAcrossLinesRows ++ [""] :=
    ⟨[.enter "main" [],
      .label (.loop 0 .startPart),
      .compare .lt .int (.var "i") (.int 2) ⟨0⟩,
      .jumpIf ⟨0⟩ (.loop 0 .bodyPart),
      .jump (.loop 0 .exitPart),
      .label (.loop 0 .bodyPart),
      .print "a\"\\\n\n    b",
      .jump (.loop 0 .startPart),
      .label (.loop 0 .exitPart),
      .leave "main"], by decide +kernel, by decide +kernel⟩
  obtain ⟨rows, rowsEq, textsEq, -, -⟩ := compile_listing_lines compiled
  obtain rfl : printsAcrossLinesRows = rows :=
    List.append_cancel_right (linesEq.symm.trans rowsEq)
  exact ⟨code, compiled, linesEq, textsEq⟩

end PL0
