import PL0.Proofs.Grammar.Brevity
import PL0.Proofs.Grammar.Contents
import PL0.Proofs.Grammar.Programs
import PL0.Proofs.Reading.DistinctNumbers

/-!
# Reading what is written

Reading a representable program from what is written of it gives the program
back, numbered afresh from the leaves up.  No program that is not
representable is ever read without an error.
-/

namespace PL0

open Grammar

@[simp]
theorem endOfInput_mem_parenthesize {word : Word} :
    .endOfInput ∈ parenthesize word ↔ .endOfInput ∈ word := by
  simp [parenthesize]

@[simp]
theorem endOfInput_mem_enclose {needed level : Nat} {word : Word} :
    .endOfInput ∈ enclose needed level word ↔ .endOfInput ∈ word := by
  unfold enclose
  split <;> simp

@[simp]
theorem endOfInput_ne_typeWord (base : BaseType) :
    .endOfInput ≠ typeWord base := by
  cases base <;> simp [typeWord]

theorem endOfInput_notMem_intercalate {sign : Symbol} {words : List Word}
    (each : ∀ word ∈ words, .endOfInput ∉ word) :
    .endOfInput ∉ [.symbol sign].intercalate words := by
  induction words with
  | nil => simp
  | cons first others ih =>
      rw [List.forall_mem_cons] at each
      cases others with
      | nil => simpa using each.1
      | cons second others => simp [List.intercalate_cons_cons, each.1,
          ih each.2]

mutual

theorem Place.endOfInput_notMem : ∀ place : Place, .endOfInput ∉ place.spelling
  | .var .. => by simp [Place.spelling]
  | .element _ _ index => by simp [Place.spelling, index.endOfInput_notMem]

theorem Expr.endOfInput_notMem : ∀ e : Expr, .endOfInput ∉ e.spelling
  | .int .. => by simp [Expr.spelling]
  | .float .. => by simp [Expr.spelling]
  | .valueOf _ place => by simp [Expr.spelling, place.endOfInput_notMem]
  | .binary _ _ left right => by
      simp [Expr.spelling, left.endOfInput_notMem, right.endOfInput_notMem]
  | .signed _ _ operand => by simp [Expr.spelling, operand.endOfInput_notMem]
  | .call _ _ args => by
      simp [Expr.spelling,
        endOfInput_notMem_intercalate (Expr.endOfInput_notMem_all args)]
  | .cast _ _ operand => by simp [Expr.spelling, operand.endOfInput_notMem]

theorem Expr.endOfInput_notMem_all : ∀ args : List Expr,
    ∀ word ∈ Expr.spellings args, .endOfInput ∉ word
  | [] => by simp [Expr.spellings]
  | first :: others => by
      rw [Expr.spellings, List.forall_mem_cons]
      exact ⟨first.endOfInput_notMem, Expr.endOfInput_notMem_all others⟩

end

theorem Condition.endOfInput_notMem (test : Condition) :
    .endOfInput ∉ test.spelling := by
  induction test with
  | rel => simp [Condition.spelling, Expr.endOfInput_notMem]
  | logic _ _ _ _ leftIH rightIH => simp [Condition.spelling, leftIH, rightIH]
  | not _ _ ih => simp [Condition.spelling, ih]

mutual

theorem Stmt.endOfInput_notMem :
    ∀ statement : Stmt, .endOfInput ∉ statement.spelling
  | .assign _ target value => by
      simp [Stmt.spelling, target.endOfInput_notMem, value.endOfInput_notMem]
  | .ifThen _ test thenBranch => by
      simp [Stmt.spelling, test.endOfInput_notMem, thenBranch.endOfInput_notMem]
  | .ifElse _ test thenBranch elseBranch => by
      simp [Stmt.spelling, test.endOfInput_notMem, thenBranch.endOfInput_notMem,
        elseBranch.endOfInput_notMem]
  | .whileDo _ test body => by
      simp [Stmt.spelling, test.endOfInput_notMem, body.endOfInput_notMem]
  | .block _ statements => by
      simp [Stmt.spelling,
        endOfInput_notMem_intercalate (Stmt.endOfInput_notMem_all statements)]
  | .breakLoop _ => by simp [Stmt.spelling]
  | .skip _ => by simp [Stmt.spelling]
  | .returnValue _ value => by simp [Stmt.spelling, value.endOfInput_notMem]
  | .read _ target => by simp [Stmt.spelling, target.endOfInput_notMem]
  | .write _ value => by simp [Stmt.spelling, value.endOfInput_notMem]
  | .print .. => by simp [Stmt.spelling]
  | .call _ _ args => by
      simp [Stmt.spelling,
        endOfInput_notMem_intercalate (Expr.endOfInput_notMem_all args)]

theorem Stmt.endOfInput_notMem_all : ∀ statements : List Stmt,
    ∀ word ∈ Stmt.spellings statements, .endOfInput ∉ word
  | [] => by simp [Stmt.spellings]
  | first :: others => by
      rw [Stmt.spellings, List.forall_mem_cons]
      exact ⟨first.endOfInput_notMem, Stmt.endOfInput_notMem_all others⟩

end

theorem ArraySize.endOfInput_notMem (size : ArraySize) :
    .endOfInput ∉ size.spelling := by
  cases size with
  | fixed => simp [ArraySize.spelling]
  | dynamic count =>
      rw [ArraySize.spelling]
      split <;> simp [count.endOfInput_notMem]

theorem declarations_endOfInput_notMem (declared : List Declaration) :
    ∀ word ∈ declared.map Declaration.spelling, .endOfInput ∉ word := by
  rw [List.forall_mem_map]
  rintro ⟨name, ⟨base, size?⟩, position⟩ _
  cases size? <;> simp [Declaration.spelling, DeclaredType.spelling,
    ArraySize.endOfInput_notMem]

theorem Program.endOfInput_notMem (program : Program) :
    .endOfInput ∉ program.spelling := by
  cases program with
  | functions all =>
      simp [Program.spelling, Function.spelling,
        endOfInput_notMem_intercalate (declarations_endOfInput_notMem _),
        endOfInput_notMem_intercalate (Stmt.endOfInput_notMem_all _)]
  | statement body => exact body.endOfInput_notMem

theorem separated_items {α : Type} {separator : Token.Kind} {item : Category α}
    {word : Word} {values : List α}
    (derived : Separated separator item word values) :
    values ≠ [] ∧ ∀ value ∈ values, ∃ part, item part value := by
  induction derived with
  | single derived => simpa using ⟨_, derived⟩
  | cons head tail ih => exact ⟨List.cons_ne_nil _ _,
      List.forall_mem_cons.mpr ⟨⟨_, head⟩, ih.2⟩⟩

theorem listed_items {α : Type} {separator : Token.Kind} {item : Category α}
    {word : Word} {values : List α}
    (derived : Listed separator item word values) :
    ∀ value ∈ values, ∃ part, item part value := by
  cases derived with
  | none => simp
  | some separated => exact (separated_items separated).2

theorem locals_items {word : Word} {declared : List Declaration}
    (derived : Locals word declared) :
    ∀ declaration ∈ declared, ∃ part, Declared part declaration := by
  cases derived with
  | none => simp
  | some separated ended => exact (separated_items separated).2

mutual

theorem Stmt.representable_of_derived : ∀ (statement : Stmt) (word : Word),
    Statement word statement.erase → statement.Representable
  | .ifThen _ _ thenBranch, _, derived => by
      rw [Stmt.erase] at derived
      rw [Stmt.Representable]
      cases derived with
      | ifThen tested taken => exact thenBranch.representable_of_derived _ taken
  | .ifElse _ _ thenBranch elseBranch, _, derived => by
      rw [Stmt.erase] at derived
      rw [Stmt.Representable]
      cases derived with
      | ifElse tested taken closed otherwise =>
          rw [Stmt.endsOpen_erase] at closed
          exact ⟨closed, thenBranch.representable_of_derived _ taken,
            elseBranch.representable_of_derived _ otherwise⟩
  | .whileDo _ _ body, _, derived => by
      rw [Stmt.erase] at derived
      rw [Stmt.Representable]
      cases derived with
      | whileDo tested repeated =>
          exact body.representable_of_derived _ repeated
  | .block _ statements, _, derived => by
      rw [Stmt.erase] at derived
      rw [Stmt.Representable]
      cases derived with
      | block separated ended =>
          obtain ⟨nonempty, each⟩ := separated_items separated
          rw [List.forall_mem_map] at each
          exact ⟨fun none => nonempty (by rw [none, List.map_nil]),
            Stmt.allRepresentable_of_derived statements each⟩
  | .assign .., _, _ | .breakLoop _, _, _ | .skip _, _, _
  | .returnValue .., _, _
  | .read .., _, _ | .write .., _, _ | .print .., _, _ | .call .., _, _ => by
      simp [Stmt.Representable]

theorem Stmt.allRepresentable_of_derived : ∀ statements : List Stmt,
    (∀ statement ∈ statements, ∃ word, Statement word statement.erase) →
      Stmt.AllRepresentable statements
  | [], _ => by simp [Stmt.AllRepresentable]
  | first :: others, each => by
      obtain ⟨⟨word, derived⟩, eachOther⟩ := List.forall_mem_cons.mp each
      rw [Stmt.AllRepresentable]
      exact ⟨first.representable_of_derived word derived,
        Stmt.allRepresentable_of_derived others eachOther⟩

end

theorem Declaration.representable_of_derived {word : Word}
    {declaration : Declaration} (derived : Declared word declaration.erase) :
    declaration.Representable := by
  obtain ⟨name, ⟨base, size?⟩, position⟩ := declaration
  rw [Declaration.erase, DeclaredType.erase] at derived
  rintro size ⟨⟩
  cases derived with
  | mk _ typed =>
      cases typed with
      | array _ sized =>
          cases size with
          | dynamic count => trivial
          | fixed count =>
              cases sized with
              | @fixed value nonneg =>
                  rw [ArraySize.Representable, ← zero_le_toInt64_iff]
                  simpa using nonneg

theorem Function.representable_of_derived {word : Word} {function : Function}
    (derived : Definition word function.erase) : function.Representable := by
  obtain ⟨name, params, locals, body, position⟩ := function
  rw [Function.erase] at derived
  cases derived with
  | mk _ parameters declared statements =>
      cases statements with
      | mk separated ended =>
          obtain ⟨nonempty, each⟩ := separated_items separated
          have ofParams := listed_items parameters
          have ofLocals := locals_items declared
          rw [List.forall_mem_map] at each ofParams ofLocals
          refine ⟨?_, fun none => nonempty (by rw [none]; rfl), ?_⟩
          · rw [List.forall_mem_append]
            constructor
            · intro declaration member
              obtain ⟨part, derived⟩ := ofParams declaration member
              exact Declaration.representable_of_derived derived
            · intro declaration member
              obtain ⟨part, derived⟩ := ofLocals declaration member
              exact Declaration.representable_of_derived derived
          · intro statement member
            obtain ⟨part, derived⟩ := each statement member
            exact statement.representable_of_derived part derived

/-- A program with a word is representable. -/
theorem Program.representable_of_derived {word : Word} {program : Program}
    (derived : Derives word program.erase) : program.Representable := by
  cases program with
  | statement body =>
      rw [Program.erase] at derived
      cases derived with
      | statement single ended => exact body.representable_of_derived _ single
  | functions all =>
      rw [Program.erase] at derived
      cases derived with
      | functions each nonempty =>
          refine ⟨fun none => nonempty (by rw [none, List.map_nil]), ?_⟩
          intro function member
          obtain ⟨part, _, derived⟩ :=
            exists_definition each (List.mem_map_of_mem member)
          exact Function.representable_of_derived derived

/-- Reading undoes writing on the representable programs, and no other
programs are read without an error.  What is written of a program is as short
as anything that is read as the same program. -/
theorem readProgram_spelling :
    (∀ program : Program, program.Representable →
      .endOfInput ∉ program.spelling ∧
        (∀ tokens : List Token, inputKinds tokens = program.spelling →
          (readProgram tokens).errors = [] ∧
            (readProgram tokens).program.erase = program.erase ∧
            (readProgram tokens).program.ids =
              List.range (readProgram tokens).program.occurrences.length) ∧
        ∀ tokens : List Token, (readProgram tokens).errors = [] →
          (readProgram tokens).program.erase = program.erase →
            program.spelling.length ≤ (inputKinds tokens).length) ∧
      ∀ tokens : List Token, (readProgram tokens).errors = [] →
        (readProgram tokens).program.Representable := by
  refine ⟨?_, ?_⟩
  · intro program representable
    refine ⟨program.endOfInput_notMem, ?_, ?_⟩
    · intro tokens written
      have derived := Program.derived representable
      rw [← written] at derived
      obtain ⟨noErrors, treeEq⟩ := readProgram_of_derives derived
      exact ⟨noErrors, treeEq, readProgram_ids_eq_range noErrors⟩
    · intro tokens noErrors treeEq
      have derived := derives_of_errors_eq_nil noErrors
      rw [treeEq] at derived
      rw [← program.spelling_erase]
      exact derives_brief derived
  · intro tokens noErrors
    exact Program.representable_of_derived (derives_of_errors_eq_nil noErrors)

/-- A function whose size, condition, branch and operands all have to be set
apart:
`fun f(a: int[(3)]) begin if not (x < 1 or x > 2) then begin if x == 3 then
skip end else x := -(x - (1 - 2)) * 3 end`. -/
def setApart : Program :=
  let x : Expr := .valueOf default (.var default "x")
  let int : Int64 → Expr := .int default
  let compare (op : RelOp) (value : Int64) : Condition :=
    .rel default op x (int value)
  let test : Condition :=
    .not default (.logic default .or (compare .lt 1) (compare .gt 2))
  let inner : Stmt := .ifThen default (compare .eq 3) (.skip default)
  let difference : Expr :=
    .binary default .sub x (.binary default .sub (int 1) (int 2))
  let value : Expr :=
    .binary default .mul (.signed default .neg difference) (int 3)
  .functions [⟨"f", [⟨"a", ⟨.int, some (.dynamic (int 3))⟩, default⟩], [],
    [.ifElse default test (.block default [inner])
      (.assign default (.var default "x") value)],
    default⟩]

theorem setApart_representable : setApart.Representable := by
  refine ⟨List.cons_ne_nil _ _, ?_⟩
  simp only [List.forall_mem_singleton]
  refine ⟨?_, List.cons_ne_nil _ _, ?_⟩
  · simp [Declaration.Representable, ArraySize.Representable]
  · simp [Stmt.Representable, Stmt.AllRepresentable, Stmt.EndsOpen]

theorem readProgram_spelling_setApart :
    setApart.spelling =
        [.keyword .funWord, .identifier "f", .symbol .openParen,
          .identifier "a", .symbol .colon, .keyword .intWord,
          .symbol .openBracket, .symbol .openParen, .integer 3,
          .symbol .closeParen, .symbol .closeBracket, .symbol .closeParen,
          .keyword .beginWord,
          .keyword .ifWord, .keyword .notWord, .symbol .openParen,
          .identifier "x",
          .symbol .less, .integer 1, .keyword .orWord, .identifier "x",
          .symbol .greater,
          .integer 2, .symbol .closeParen, .keyword .thenWord,
          .keyword .beginWord,
          .keyword .ifWord, .identifier "x", .symbol .equal, .integer 3,
          .keyword .thenWord,
          .keyword .skipWord, .keyword .endWord, .keyword .elseWord,
          .identifier "x",
          .symbol .assign, .symbol .minus, .symbol .openParen, .identifier "x",
          .symbol .minus,
          .symbol .openParen, .integer 1, .symbol .minus, .integer 2,
          .symbol .closeParen,
          .symbol .closeParen, .symbol .times, .integer 3, .keyword .endWord] ∧
      (readProgram (setApart.spelling.map (⟨·, ⟨1, 1⟩⟩))).errors = [] ∧
      (readProgram (setApart.spelling.map (⟨·, ⟨1, 1⟩⟩))).program.erase =
        setApart.erase := by
  refine ⟨by decide +kernel, ?_⟩
  have written : inputKinds (setApart.spelling.map (⟨·, ⟨1, 1⟩⟩)) =
      setApart.spelling := by
    decide +kernel
  obtain ⟨noErrors, treeEq, _⟩ :=
    (readProgram_spelling.1 setApart setApart_representable).2.1 _ written
  exact ⟨noErrors, treeEq⟩

end PL0
