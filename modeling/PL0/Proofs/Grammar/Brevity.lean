import PL0.Proofs.Grammar.Spelling

/-!
# Nothing shorter is written

No word of a tree is shorter than what is written of the tree, so none of the
parentheses can be left out.  The derivations of expressions and statements
are nested in chains and lists, so the induction is on the length of the word.
-/

namespace PL0

open Grammar

theorem Expr.level_erase (e : Expr) : e.erase.level = e.level := by
  cases e <;> simp [Expr.erase, Expr.level]

theorem Condition.level_erase (test : Condition) :
    test.erase.level = test.level := by
  cases test <;> simp [Condition.erase, Condition.level]

mutual

theorem Place.spelling_erase :
    ∀ place : Place, place.erase.spelling = place.spelling
  | .var .. => by simp [Place.erase, Place.spelling]
  | .element _ _ index => by
      simp [Place.erase, Place.spelling, index.spelling_erase]

theorem Expr.spelling_erase : ∀ e : Expr, e.erase.spelling = e.spelling
  | .int .. => by simp [Expr.erase, Expr.spelling]
  | .float .. => by simp [Expr.erase, Expr.spelling]
  | .valueOf _ place => by
      simp [Expr.erase, Expr.spelling, place.spelling_erase]
  | .binary _ _ left right => by
      simp [Expr.erase, Expr.spelling, Expr.level_erase, left.spelling_erase,
        right.spelling_erase]
  | .signed _ _ operand => by
      simp [Expr.erase, Expr.spelling, Expr.level_erase, operand.spelling_erase]
  | .call _ _ args => by simp [Expr.erase, Expr.spelling,
      Expr.spellings_erase args]
  | .cast _ _ operand => by
      simp [Expr.erase, Expr.spelling, operand.spelling_erase]

theorem Expr.spellings_erase : ∀ args : List Expr,
    Expr.spellings (args.map Expr.erase) = Expr.spellings args
  | [] => rfl
  | first :: others => by
      simp [Expr.spellings, first.spelling_erase, Expr.spellings_erase others]

end

theorem Condition.spelling_erase (test : Condition) :
    test.erase.spelling = test.spelling := by
  induction test with
  | rel => simp [Condition.erase, Condition.spelling, Expr.spelling_erase]
  | logic _ _ _ _ leftIH rightIH =>
      simp [Condition.erase, Condition.spelling, Condition.level_erase, leftIH,
        rightIH]
  | not _ _ ih => simp [Condition.erase, Condition.spelling,
      Condition.level_erase, ih]

mutual

theorem Stmt.spelling_erase :
    ∀ statement : Stmt, statement.erase.spelling = statement.spelling
  | .assign _ target value => by
      simp [Stmt.erase, Stmt.spelling, target.spelling_erase,
        value.spelling_erase]
  | .ifThen _ test thenBranch => by
      simp [Stmt.erase, Stmt.spelling, test.spelling_erase,
        thenBranch.spelling_erase]
  | .ifElse _ test thenBranch elseBranch => by
      simp [Stmt.erase, Stmt.spelling, test.spelling_erase,
        thenBranch.spelling_erase, elseBranch.spelling_erase]
  | .whileDo _ test body => by
      simp [Stmt.erase, Stmt.spelling, test.spelling_erase, body.spelling_erase]
  | .block _ statements => by
      simp [Stmt.erase, Stmt.spelling, Stmt.spellings_erase statements]
  | .breakLoop _ => by simp [Stmt.erase, Stmt.spelling]
  | .skip _ => by simp [Stmt.erase, Stmt.spelling]
  | .returnValue _ value => by
      simp [Stmt.erase, Stmt.spelling, value.spelling_erase]
  | .read _ target => by simp [Stmt.erase, Stmt.spelling, target.spelling_erase]
  | .write _ value => by simp [Stmt.erase, Stmt.spelling, value.spelling_erase]
  | .print .. => by simp [Stmt.erase, Stmt.spelling]
  | .call _ _ args => by simp [Stmt.erase, Stmt.spelling,
      Expr.spellings_erase args]

theorem Stmt.spellings_erase : ∀ statements : List Stmt,
    Stmt.spellings (statements.map Stmt.erase) = Stmt.spellings statements
  | [] => rfl
  | first :: others => by
      simp [Stmt.spellings, first.spelling_erase, Stmt.spellings_erase others]

end

theorem Expr.isCount_erase (e : Expr) : e.erase.IsCount ↔ e.IsCount := by
  cases e <;> simp [Expr.erase, Expr.IsCount]

theorem ArraySize.spelling_erase (size : ArraySize) :
    size.erase.spelling = size.spelling := by
  cases size <;>
    simp [ArraySize.erase, ArraySize.spelling, Expr.isCount_erase,
      Expr.spelling_erase]

theorem Declaration.spelling_erase (declaration : Declaration) :
    declaration.erase.spelling = declaration.spelling := by
  obtain ⟨name, ⟨base, size?⟩, position⟩ := declaration
  cases size? <;>
    simp [Declaration.erase, Declaration.spelling, DeclaredType.erase,
      DeclaredType.spelling, ArraySize.spelling_erase]

theorem Function.spelling_erase (function : Function) :
    function.erase.spelling = function.spelling := by
  simp [Function.erase, Function.spelling, Function.comp_def,
    Declaration.spelling_erase, Stmt.spellings_erase]

theorem Program.spelling_erase (program : Program) :
    program.erase.spelling = program.spelling := by
  cases program with
  | functions all =>
      simp [Program.erase, Program.spelling, List.flatMap_map,
        Function.spelling_erase]
  | statement body => simp [Program.erase, Program.spelling,
      Stmt.spelling_erase]

theorem length_parenthesize (word : Word) :
    (parenthesize word).length = word.length + 2 := by
  simp [parenthesize]

theorem length_enclose_le (needed level : Nat) (word : Word) :
    (enclose needed level word).length ≤ word.length + 2 := by
  unfold enclose
  split
  · exact Nat.le_of_eq (length_parenthesize word)
  · omega

theorem length_enclose_mono {needed more : Nat} (isMore : needed ≤ more)
    (level : Nat) (word : Word) :
    (enclose needed level word).length ≤ (enclose more level word).length := by
  by_cases enough : needed ≤ level
  · rw [enclose_of_le enough]
    unfold enclose
    split
    · rw [length_parenthesize]
      omega
    · omega
  · have tooLow := Nat.not_le.mp enough
    have same : enclose needed level word = enclose more level word := by
      rw [enclose_of_lt tooLow,
        enclose_of_lt (Nat.lt_of_lt_of_le tooLow isMore)]
    exact Nat.le_of_eq (congrArg List.length same)

/-- The words of a category up to a length are not shorter than what is
written of their values. -/
def Brief {α : Type} (bound : Nat) (category : Category α)
    (spelling : α → Word) : Prop :=
  ∀ word value, category word value → word.length < bound →
    (spelling value).length ≤ word.length

theorem Brief.apply {α : Type} {category : Category α} {spelling : α → Word}
    (brief : ∀ bound, Brief bound category spelling) {word : Word} {value : α}
    (derived : category word value) : (spelling value).length ≤ word.length :=
  brief (word.length + 1) word value derived (Nat.lt_succ_self _)

section Lists

variable {α : Type} {bound : Nat} {category : Category α} {spelling : α → Word}

/-- Operands of a chain are put in parentheses below the level of its
operators, and the right ones also at that level. -/
theorem Brief.chain {needed : Nat} {level : α → Nat}
    {join? : Token.Kind → Option (α → α → α)}
    (brief : Brief bound category fun value =>
      enclose (needed + 1) (level value) (spelling value))
    (joins : ∀ sign join, join? sign = some join → ∀ left right,
      level (join left right) = needed ∧
        spelling (join left right) =
          enclose needed (level left) (spelling left) ++
          sign :: enclose (needed + 1) (level right) (spelling right)) :
    Brief bound (Chain category join?) fun value =>
      enclose needed (level value) (spelling value) := by
  intro word value chained
  induction chained with
  | single derived =>
      intro isShort
      exact Nat.le_trans (length_enclose_mono (Nat.le_succ needed) _ _)
        (brief _ _ derived isShort)
  | @joined first second left right sign join before isJoin after ih =>
      intro isShort
      rw [List.length_append, List.length_cons] at isShort
      obtain ⟨levelEq, spellingEq⟩ := joins sign join isJoin left right
      have leftBrief := ih (by omega)
      have rightBrief := brief second right after (by omega)
      beta_reduce at leftBrief rightBrief ⊢
      rw [enclose_of_le (Nat.le_of_eq levelEq.symm), spellingEq]
      simp only [List.length_append, List.length_cons]
      omega

theorem Brief.separated (brief : Brief bound category spelling)
    (separator : Token.Kind) :
    Brief bound (Separated separator category) fun values =>
      [separator].intercalate (values.map spelling) := by
  intro word values derived
  induction derived with
  | single derived =>
      intro isShort
      beta_reduce
      rw [List.map_singleton, List.intercalate_singleton]
      exact brief _ _ derived isShort
  | @cons first others value values head tail ih =>
      intro isShort
      rw [List.length_append, List.length_cons] at isShort
      have headBrief := brief first value head (by omega)
      have tailBrief := ih (by omega)
      obtain ⟨second, rest, rfl⟩ : ∃ second rest, values = second :: rest := by
        cases tail <;> exact ⟨_, _, rfl⟩
      beta_reduce at tailBrief ⊢
      rw [List.map_cons, List.map_cons, List.intercalate_cons_cons,
        ← List.map_cons]
      simp only [List.length_append, List.length_cons, List.length_nil]
      omega

theorem Brief.listed (brief : Brief bound category spelling)
    (separator : Token.Kind) :
    Brief bound (Listed separator category) fun values =>
      [separator].intercalate (values.map spelling) := by
  intro word values derived isShort
  cases derived with
  | none => simp
  | some separated =>
      exact brief.separated separator word values separated isShort

end Lists

theorem sumJoin?_spelling (sign : Token.Kind) (join : Expr → Expr → Expr)
    (isJoin : sumJoin? sign = some join) (left right : Expr) :
    (join left right).level = 1 ∧
      (join left right).spelling = enclose 1 left.level left.spelling ++
        sign :: enclose 2 right.level right.spelling := by
  unfold sumJoin? at isJoin
  split at isJoin <;> cases isJoin <;> exact ⟨rfl, by rw [Expr.spelling]; rfl⟩

theorem productJoin?_spelling (sign : Token.Kind) (join : Expr → Expr → Expr)
    (isJoin : productJoin? sign = some join) (left right : Expr) :
    (join left right).level = 2 ∧
      (join left right).spelling = enclose 2 left.level left.spelling ++
        sign :: enclose 3 right.level right.spelling := by
  unfold productJoin? at isJoin
  split at isJoin <;> cases isJoin <;> exact ⟨rfl, by rw [Expr.spelling]; rfl⟩

theorem Brief.expression {bound : Nat}
    (brief : Brief bound Factor fun e => enclose 3 e.level e.spelling) :
    Brief bound Expression Expr.spelling := by
  intro word e derived isShort
  have enclosed :=
    (brief.chain productJoin?_spelling).chain sumJoin?_spelling word e derived
    isShort
  beta_reduce at enclosed
  rwa [enclose_of_le e.one_le_level] at enclosed

theorem Brief.location {bound : Nat}
    (brief : Brief bound Expression Expr.spelling) :
    Brief (bound + 1) (Location Expression) Place.spelling := by
  intro word place derived isShort
  cases derived with
  | var name => simp [Place.spelling]
  | @element name word value indexed =>
      simp only [List.length_cons, List.length_append] at isShort
      have indexBrief := brief word value indexed (by omega)
      simp only [Place.spelling, List.length_cons, List.length_append]
      omega

theorem factor_brief (bound : Nat) :
    Brief bound Factor fun e => enclose 3 e.level e.spelling := by
  induction bound with
  | zero =>
      intro word e derived isShort
      exact absurd isShort (Nat.not_lt_zero _)
  | succ bound ih =>
      intro word e derived isShort
      cases derived with
      | int value => simp [enclose, Expr.level, Expr.spelling]
      | float value => simp [enclose, Expr.level, Expr.spelling]
      | location located =>
          simpa [enclose, Expr.level, Expr.spelling] using
            ih.expression.location _ _ located isShort
      | @call callee word values passed =>
          simp only [List.length_cons, List.length_append] at isShort
          have args := ih.expression.listed _ word values passed (by omega)
          simpa [enclose, Expr.level, Expr.spelling, Expr.spellings_eq,
            parenthesize] using args
      | @castParen target word value operand =>
          simp only [List.length_cons, List.length_append] at isShort
          have inner := ih.expression word value operand (by omega)
          simpa [enclose, Expr.level, Expr.spelling, parenthesize] using inner
      | @castBracket target word value operand =>
          simp only [List.length_cons, List.length_append] at isShort
          have inner := ih.expression word value operand (by omega)
          simpa [enclose, Expr.level, Expr.spelling, parenthesize] using inner
      | @negated word value operand =>
          rw [List.length_cons] at isShort
          have inner := ih word value operand (by omega)
          simpa [enclose, Expr.level, Expr.spelling] using inner
      | @positive word value operand =>
          rw [List.length_cons] at isShort
          have inner := ih word value operand (by omega)
          simpa [enclose, Expr.level, Expr.spelling] using inner
      | @paren word value inner =>
          simp only [List.length_cons, List.length_append] at isShort
          have inside := ih.expression word e inner (by omega)
          have enclosed := length_enclose_le 3 e.level e.spelling
          simp only [List.length_cons, List.length_append, List.length_nil]
          omega

theorem expression_brief (bound : Nat) : Brief bound Expression Expr.spelling :=
  (factor_brief bound).expression

theorem location_brief (bound : Nat) :
    Brief bound (Location Expression) Place.spelling := by
  intro word place derived isShort
  exact (expression_brief bound).location word place derived
    (Nat.lt_succ_of_lt isShort)

theorem andJoin?_spelling (sign : Token.Kind)
    (join : Condition → Condition → Condition)
    (isJoin : andJoin? sign = some join) (left right : Condition) :
    (join left right).level = 2 ∧
      (join left right).spelling = enclose 2 left.level left.spelling ++
        sign :: enclose 3 right.level right.spelling := by
  unfold andJoin? at isJoin
  split at isJoin <;> cases isJoin
  exact ⟨rfl, rfl⟩

theorem orJoin?_spelling (sign : Token.Kind)
    (join : Condition → Condition → Condition)
    (isJoin : orJoin? sign = some join) (left right : Condition) :
    (join left right).level = 1 ∧
      (join left right).spelling = enclose 1 left.level left.spelling ++
        sign :: enclose 2 right.level right.spelling := by
  unfold orJoin? at isJoin
  split at isJoin <;> cases isJoin
  exact ⟨rfl, rfl⟩

theorem Brief.disjunction {bound : Nat}
    (brief : Brief bound Literal fun test =>
      enclose 3 test.level test.spelling) :
    Brief bound Disjunction Condition.spelling := by
  intro word test derived isShort
  have enclosed :=
    (brief.chain andJoin?_spelling).chain orJoin?_spelling word test derived
    isShort
  beta_reduce at enclosed
  rwa [enclose_of_le test.one_le_level] at enclosed

theorem literal_brief (bound : Nat) :
    Brief bound Literal fun test => enclose 3 test.level test.spelling := by
  induction bound with
  | zero =>
      intro word test derived isShort
      exact absurd isShort (Nat.not_lt_zero _)
  | succ bound ih =>
      intro word test derived isShort
      cases derived with
      | rel op before written after =>
          have leftBrief := Brief.apply expression_brief before
          have rightBrief := Brief.apply expression_brief after
          simp only [Condition.level, enclose_of_le (Nat.le_refl 3),
            Condition.spelling, List.length_append, List.length_cons]
          omega
      | @not word value operand =>
          rw [List.length_cons] at isShort
          have inner := ih word value operand (by omega)
          simpa [enclose, Condition.level, Condition.spelling] using inner
      | @paren word value inner =>
          simp only [List.length_cons, List.length_append] at isShort
          have inside := ih.disjunction word test inner (by omega)
          have enclosed := length_enclose_le 3 test.level test.spelling
          simp only [List.length_cons, List.length_append, List.length_nil]
          omega

theorem disjunction_brief (bound : Nat) :
    Brief bound Disjunction Condition.spelling :=
  (literal_brief bound).disjunction

theorem arguments_brief {word : Word} {args : List Expr}
    (passed : Listed (.symbol .comma) Expression word args) :
    ([.symbol .comma].intercalate (Expr.spellings args)).length ≤
      word.length := by
  rw [Expr.spellings_eq]
  exact Brief.apply (fun bound => (expression_brief bound).listed _) passed

theorem statement_brief (bound : Nat) :
    Brief bound Statement Stmt.spelling := by
  induction bound with
  | zero =>
      intro word statement derived isShort
      exact absurd isShort (Nat.not_lt_zero _)
  | succ bound ih =>
      intro word statement derived isShort
      cases derived with
      | assign located assigned =>
          have target := Brief.apply location_brief located
          have value := Brief.apply expression_brief assigned
          simp only [Stmt.spelling, List.length_append, List.length_cons]
          omega
      | call callee passed =>
          simpa [Stmt.spelling, parenthesize] using arguments_brief passed
      | @ifThen first second test thenBranch tested taken =>
          simp only [List.length_cons, List.length_append] at isShort
          have condition := Brief.apply disjunction_brief tested
          have branch := ih second thenBranch taken (by omega)
          simp only [Stmt.spelling, List.length_append, List.length_cons]
          omega
      | @ifElse first second third test thenBranch elseBranch tested taken
          closed otherwise =>
          simp only [List.length_cons, List.length_append] at isShort
          have condition := Brief.apply disjunction_brief tested
          have branch := ih second thenBranch taken (by omega)
          have other := ih third elseBranch otherwise (by omega)
          simp only [Stmt.spelling, List.length_append, List.length_cons]
          omega
      | @whileDo first second test body tested repeated =>
          simp only [List.length_cons, List.length_append] at isShort
          have condition := Brief.apply disjunction_brief tested
          have inner := ih second body repeated (by omega)
          simp only [Stmt.spelling, List.length_append, List.length_cons]
          omega
      | @block word tail statements separated ended =>
          simp only [List.length_cons, List.length_append] at isShort
          have inside := ih.separated _ word statements separated (by omega)
          beta_reduce at inside
          simp only [Stmt.spelling, Stmt.spellings_eq, List.length_append,
            List.length_cons]
          omega
      | breakLoop => simp [Stmt.spelling]
      | skip => simp [Stmt.spelling]
      | returnValue returned =>
          simpa [Stmt.spelling] using Brief.apply expression_brief returned
      | read located =>
          simpa [Stmt.spelling, parenthesize]
            using Brief.apply location_brief located
      | write written =>
          simpa [Stmt.spelling, parenthesize]
            using Brief.apply expression_brief written
      | print text => simp [Stmt.spelling, parenthesize]

/-- A value of another level than the operators of a chain is a single
operand. -/
theorem chain_single {α : Type} {operand : Category α} (level : α → Nat)
    {join? : Token.Kind → Option (α → α → α)} {word : Word} {value : α}
    (derived : Chain operand join? word value)
    (levels : ∀ sign join, join? sign = some join → ∀ left right,
      level (join left right) ≠ level value) : operand word value := by
  cases derived with
  | single derived => exact derived
  | joined _ isJoin _ => exact absurd rfl (levels _ _ isJoin _ _)

/-- A number that is not on its own has parentheses around it. -/
theorem expression_of_int {word : Word} {node : Node} {value : Int64}
    (derived : Expression word (.int node value))
    (others : word ≠ [.integer value]) :
    3 ≤ word.length := by
  have isTerm :=
    chain_single Expr.level derived fun sign join isJoin left right => by
    rw [(sumJoin?_spelling sign join isJoin left right).1]
    simp [Expr.level]
  have isFactor :=
    chain_single Expr.level isTerm fun sign join isJoin left right => by
    rw [(productJoin?_spelling sign join isJoin left right).1]
    simp [Expr.level]
  cases isFactor with
  | int => exact absurd rfl others
  | @paren word _ inner =>
      have inside := Brief.apply expression_brief inner
      simp only [Expr.spelling, List.length_singleton] at inside
      simp only [List.length_cons, List.length_append, List.length_nil]
      omega

theorem size_brief {word : Word} {size : ArraySize} (sized : Size word size) :
    size.spelling.length ≤ word.length := by
  cases sized with
  | fixed nonneg => simp [ArraySize.spelling]
  | @dynamic word value counted notFixed =>
      rw [ArraySize.spelling]
      split
      · next isCount =>
          cases value with
          | int node number =>
              have := expression_of_int counted (notFixed number isCount)
              simpa [parenthesize, Expr.spelling] using this
          | _ => exact absurd isCount id
      · exact Brief.apply expression_brief counted

theorem declared_brief (bound : Nat) :
    Brief bound Declared Declaration.spelling := by
  intro word declaration derived _
  cases derived with
  | mk name typed =>
      cases typed with
      | scalar base => simp [Declaration.spelling, DeclaredType.spelling]
      | array base sized =>
          simpa [Declaration.spelling, DeclaredType.spelling]
            using size_brief sized

theorem locals_brief {word : Word} {declared : List Declaration}
    (derived : Locals word declared) :
    ([.symbol .semicolon].intercalate
      (declared.map Declaration.spelling)).length ≤
      word.length := by
  cases derived with
  | none => simp
  | some separated ended =>
      rw [List.length_append]
      exact Nat.le_add_right_of_le
        (Brief.apply (fun bound => (declared_brief bound).separated _)
          separated)

theorem definition_brief {word : Word} {definition : Function}
    (derived : Definition word definition) :
    definition.spelling.length ≤ word.length := by
  cases derived with
  | mk name parameters locals statements =>
      cases statements with
      | mk separated ended =>
          have params :=
            Brief.apply (fun bound => (declared_brief bound).listed _)
              parameters
          have declared := locals_brief locals
          have body :=
            Brief.apply (fun bound => (statement_brief bound).separated _)
              separated
          simp only [Function.spelling, Stmt.spellings_eq, List.length_append,
            List.length_cons]
          omega

/-- A program has no shorter word than the one that is written. -/
theorem derives_brief {word : Word} {program : Program}
    (derived : Derives word program) :
    program.spelling.length ≤ word.length := by
  cases derived with
  | @functions words all each nonempty =>
      rw [Program.spelling]
      clear nonempty
      induction each with
      | nil => simp
      | cons derived _ ih =>
          rw [List.flatMap_cons, List.flatten_cons, List.length_append,
            List.length_append]
          exact Nat.add_le_add (definition_brief derived) ih
  | statement single ended =>
      rw [List.length_append]
      exact Nat.le_add_right_of_le (Brief.apply statement_brief single)

end PL0
