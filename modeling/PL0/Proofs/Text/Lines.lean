import Mathlib.Algebra.GroupWithZero.Nat
import PL0.Proofs.Text.Parts

/-!
# The lines of a text

A text is cut into lines at its line feeds, so it has one line more than it
has line feeds.  Texts that are put under one another keep their lines.  They
are the lines of the whole exactly if none of them holds a line feed.
-/

namespace PL0

/-- A text that stands on one line. -/
def IsLine (text : String) : Prop :=
  '\n' ∉ text.toList

instance (text : String) : Decidable (IsLine text) :=
  inferInstanceAs (Decidable ('\n' ∉ text.toList))

theorem IsLine.append {front back : String} (isLine : IsLine front)
    (backIsLine : IsLine back) : IsLine (front ++ back) := by
  rw [IsLine, String.toList_append, List.mem_append]
  exact not_or.mpr ⟨isLine, backIsLine⟩

theorem isLine_toString_nat (n : Nat) : IsLine (toString n) := by
  rw [IsLine, Text.toList_toString_nat]
  intro member
  exact absurd (Text.isDigit_of_mem_toDigits member) (by decide)

theorem isLine_toString_int (n : Int) : IsLine (toString n) := by
  intro member
  rcases Text.mem_toString_int member with isDigit | isMinus
  · exact absurd isDigit (by decide)
  · exact absurd isMinus (by decide)

namespace Text

/-- The lines of a text, without the line feeds behind them. -/
def lines (text : String) : List String :=
  (text.toList.splitOn '\n').map String.ofList

/-- The number of line feeds in a text. -/
def lineFeeds (text : String) : Nat :=
  text.toList.count '\n'

theorem lineFeeds_append (front back : String) :
    lineFeeds (front ++ back) = lineFeeds front + lineFeeds back := by
  rw [lineFeeds, String.toList_append, List.count_append]
  rfl

theorem lineFeeds_eq_zero_iff {text : String} :
    lineFeeds text = 0 ↔ IsLine text :=
  List.count_eq_zero

theorem lineFeeds_append_of_isLine {front : String} (isLine : IsLine front)
    (text : String) : lineFeeds (front ++ text) = lineFeeds text := by
  rw [lineFeeds_append, lineFeeds_eq_zero_iff.mpr isLine, Nat.zero_add]

/-- What stands around a text on its line adds no line feeds. -/
theorem lineFeeds_enclosed {front back : String} (isLine : IsLine front)
    (backIsLine : IsLine back) (text : String) :
    lineFeeds (front ++ text ++ back) = lineFeeds text := by
  rw [lineFeeds_append, lineFeeds_append_of_isLine isLine,
    lineFeeds_eq_zero_iff.mpr backIsLine, Nat.add_zero]

theorem map_lineFeeds_map {α : Type} {items : List α} {text : α → String}
    {count : α → Nat}
    (counted : ∀ item ∈ items, lineFeeds (text item) = count item) :
    (items.map text).map lineFeeds = items.map count := by
  rw [List.map_map]
  exact List.map_congr_left counted

theorem length_lines (text : String) :
    (lines text).length = lineFeeds text + 1 := by
  rw [lines, lineFeeds, List.length_map]
  induction text.toList with
  | nil => rfl
  | cons c text induction =>
      rw [List.splitOn_cons_eq_if_modifyHead, List.count_cons]
      split
      · rw [List.length_cons, induction]
      · rw [List.length_modifyHead, induction]

theorem lines_of_isLine {text : String} (isLine : IsLine text) :
    lines text = [text] := by
  rw [lines, List.splitOn_eq_singleton isLine, List.map_singleton,
    String.ofList_toList]

/-- A line feed ends the last line of what stands before it. -/
theorem lines_append_lineFeed (front back : String) :
    lines (front ++ "\n" ++ back) = lines front ++ lines back := by
  have parts : (front ++ "\n" ++ back).toList = front.toList ++ '\n' ::
      back.toList := by simp
  rw [lines, parts, List.splitOn_append_cons_self, List.map_append]
  rfl

/-- The lines of texts that are all ended by line feeds.  The last line feed
is followed by nothing. -/
theorem lines_join (texts : List String) :
    lines (String.join (texts.map (· ++ "\n"))) =
      texts.flatMap lines ++ [""] := by
  induction texts with
  | nil => rfl
  | cons first others induction =>
      rw [List.map_cons, String.join_cons, lines_append_lineFeed, induction,
        List.flatMap_cons, List.append_assoc]

/-- The lines of texts with line feeds between them. -/
theorem lines_intercalate {texts : List String} (nonempty : texts ≠ []) :
    lines ("\n".intercalate texts) = texts.flatMap lines := by
  induction texts with
  | nil => exact absurd rfl nonempty
  | cons first others induction =>
      cases others with
      | nil => simp
      | cons second others =>
          rw [String.intercalate_cons_cons, lines_append_lineFeed,
            induction (by simp)]
          exact List.flatMap_cons.symm

theorem length_flatMap_lines (texts : List String) :
    (texts.flatMap lines).length =
      texts.length + (texts.map lineFeeds).sum := by
  induction texts with
  | nil => rfl
  | cons first others induction =>
      rw [List.flatMap_cons, List.length_append, length_lines, induction,
        List.length_cons, List.map_cons, List.sum_cons]
      omega

/-- Texts under one another are the lines of the whole if and only if each is
a line. -/
theorem flatMap_lines_eq_self_iff {texts : List String} :
    texts.flatMap lines = texts ↔ ∀ text ∈ texts, IsLine text := by
  constructor
  · intro same text member
    have counted := length_flatMap_lines texts
    rw [same] at counted
    have none : (texts.map lineFeeds).sum = 0 := by omega
    exact lineFeeds_eq_zero_iff.mp
      (List.sum_eq_zero_iff_forall_eq_nat.mp none _
        (List.mem_map_of_mem member))
  · intro areLines
    induction texts with
    | nil => rfl
    | cons first others induction =>
        rw [List.forall_mem_cons] at areLines
        rw [List.flatMap_cons, lines_of_isLine areLines.1, induction areLines.2]
        rfl

end Text

end PL0
