import PL0.Proofs.Compile
import PL0.Proofs.Grammar.Programs
import PL0.Proofs.Tree.Leaves

/-!
# What a tree takes from its tokens

The leaves of a tree are those of the tokens it is derived from, in the same
order.  The derivations of expressions and statements are nested in chains and
lists, so the induction is on the length of the word.
-/

namespace PL0

namespace Grammar

/-- Whether a token can be a leaf of a tree. -/
def isLeaf : Token.Kind → Bool
  | .identifier _ => true
  | .float _ => true
  | _ => false

/-- The leaves of a word. -/
def leavesOf (word : Word) : List Token.Kind :=
  word.filter isLeaf

@[simp]
theorem leavesOf_nil : leavesOf [] = [] :=
  rfl

@[simp]
theorem leavesOf_append (first second : Word) :
    leavesOf (first ++ second) = leavesOf first ++ leavesOf second :=
  List.filter_append first second

@[simp]
theorem leavesOf_identifier (name : String) (others : Word) :
    leavesOf (.identifier name :: others) = .identifier name ::
      leavesOf others :=
  rfl

@[simp]
theorem leavesOf_float (value : Binary64) (others : Word) :
    leavesOf (.float value :: others) = .float value :: leavesOf others :=
  rfl

theorem leavesOf_cons {kind : Token.Kind} (noLeaf : isLeaf kind = false)
    (others : Word) : leavesOf (kind :: others) = leavesOf others := by
  simp [leavesOf, noLeaf]

@[simp]
theorem leavesOf_integer (value : Int64) (others : Word) :
    leavesOf (.integer value :: others) = leavesOf others :=
  leavesOf_cons rfl others

@[simp]
theorem leavesOf_string (text : String) (others : Word) :
    leavesOf (.string text :: others) = leavesOf others :=
  leavesOf_cons rfl others

@[simp]
theorem leavesOf_keyword (keyword : Keyword) (others : Word) :
    leavesOf (.keyword keyword :: others) = leavesOf others :=
  leavesOf_cons rfl others

@[simp]
theorem leavesOf_symbol (sign : Symbol) (others : Word) :
    leavesOf (.symbol sign :: others) = leavesOf others :=
  leavesOf_cons rfl others

@[simp]
theorem leavesOf_typeWord (base : BaseType) (others : Word) :
    leavesOf (typeWord base :: others) = leavesOf others := by
  cases base <;> simp [typeWord]

theorem leavesOf_optional {sign : Symbol} {word : Word}
    (optional : Optional (.symbol sign) word) : leavesOf word = [] := by
  cases optional <;> simp

/-- The words of a category up to a length hold the leaves of what they stand
for. -/
def KeepsLeaves {α : Type} (bound : Nat) (category : Category α)
    (leaves : α → List Token.Kind) : Prop :=
  ∀ word value, category word value → word.length < bound →
    leaves value = leavesOf word

section Lists

variable {α : Type} {bound : Nat} {category : Category α} {leaves : α →
  List Token.Kind}

theorem KeepsLeaves.chain {join? : Token.Kind → Option (α → α → α)}
    (keeps : KeepsLeaves bound category leaves)
    (joins : ∀ sign join, join? sign = some join → isLeaf sign = false ∧
      ∀ left right, leaves (join left right) =
        leaves left ++ leaves right) :
    KeepsLeaves bound (Chain category join?) leaves := by
  intro word value chained
  induction chained with
  | single derived => exact keeps _ _ derived
  | @joined first second left right sign join before isJoin after ih =>
      intro isShort
      rw [List.length_append, List.length_cons] at isShort
      obtain ⟨signNoLeaf, joined⟩ := joins sign join isJoin
      rw [joined, ih (by omega), keeps second right after (by omega),
        leavesOf_append, leavesOf_cons signNoLeaf]

theorem KeepsLeaves.separated (keeps : KeepsLeaves bound category leaves)
    {separator : Token.Kind} (noLeaf : isLeaf separator = false) :
    KeepsLeaves bound (Separated separator category) (List.flatMap leaves) := by
  intro word values derived
  induction derived with
  | single derived =>
      intro isShort
      rw [List.flatMap_singleton]
      exact keeps _ _ derived isShort
  | @cons first others value values head tail ih =>
      intro isShort
      rw [List.length_append, List.length_cons] at isShort
      rw [List.flatMap_cons, keeps first value head (by omega), ih (by omega),
        leavesOf_append, leavesOf_cons noLeaf]

theorem KeepsLeaves.listed (keeps : KeepsLeaves bound category leaves)
    {separator : Token.Kind} (noLeaf : isLeaf separator = false) :
    KeepsLeaves bound (Listed separator category) (List.flatMap leaves) := by
  intro word values derived isShort
  cases derived with
  | none => rfl
  | some separated => exact keeps.separated noLeaf word values separated isShort

end Lists

theorem KeepsLeaves.location {bound : Nat} {index : Category Expr}
    (keeps : KeepsLeaves bound index Expr.leaves) :
    KeepsLeaves (bound + 1) (Location index) Place.leaves := by
  intro word place derived isShort
  cases derived with
  | var name => simp [Place.leaves]
  | @element name word value indexed =>
      simp only [List.length_cons, List.length_append] at isShort
      simp [Place.leaves, keeps word value indexed (by omega)]

theorem sumJoin?_leaves (sign : Token.Kind) (join : Expr → Expr → Expr)
    (isJoin : sumJoin? sign = some join) :
    isLeaf sign = false ∧ ∀ left right, (join left right).leaves =
      left.leaves ++ right.leaves := by
  unfold sumJoin? at isJoin
  split at isJoin <;> cases isJoin <;> simp [isLeaf, Expr.leaves]

theorem productJoin?_leaves (sign : Token.Kind) (join : Expr → Expr → Expr)
    (isJoin : productJoin? sign = some join) :
    isLeaf sign = false ∧ ∀ left right, (join left right).leaves =
      left.leaves ++ right.leaves := by
  unfold productJoin? at isJoin
  split at isJoin <;> cases isJoin <;> simp [isLeaf, Expr.leaves]

theorem KeepsLeaves.expression {bound : Nat}
    (keeps : KeepsLeaves bound Factor Expr.leaves) :
    KeepsLeaves bound Expression Expr.leaves :=
  (keeps.chain productJoin?_leaves).chain sumJoin?_leaves

theorem factor_keepsLeaves (bound : Nat) :
    KeepsLeaves bound Factor Expr.leaves := by
  induction bound with
  | zero =>
      intro word value derived isShort
      exact absurd isShort (Nat.not_lt_zero _)
  | succ bound ih =>
      intro word value derived isShort
      cases derived with
      | int value => simp [Expr.leaves]
      | float value => simp [Expr.leaves]
      | location located => simpa [Expr.leaves]
          using ih.expression.location _ _ located isShort
      | @call callee word values passed =>
          simp only [List.length_cons, List.length_append] at isShort
          have args := ih.expression.listed rfl word values passed (by omega)
          simpa [Expr.leaves, Expr.allLeaves_eq] using args
      | @castParen target word value operand =>
          simp only [List.length_cons, List.length_append] at isShort
          simp [Expr.leaves, ih.expression word value operand (by omega)]
      | @castBracket target word value operand =>
          simp only [List.length_cons, List.length_append] at isShort
          simp [Expr.leaves, ih.expression word value operand (by omega)]
      | @negated word value operand =>
          rw [List.length_cons] at isShort
          simp [Expr.leaves, ih word value operand (by omega)]
      | @positive word value operand =>
          rw [List.length_cons] at isShort
          simp [Expr.leaves, ih word value operand (by omega)]
      | @paren word value inner =>
          simp only [List.length_cons, List.length_append] at isShort
          simp [ih.expression word value inner (by omega)]

theorem expression_keepsLeaves (bound : Nat) :
    KeepsLeaves bound Expression Expr.leaves :=
  (factor_keepsLeaves bound).expression

theorem KeepsLeaves.apply {α : Type} {category : Category α}
    {leaves : α → List Token.Kind}
    (keeps : ∀ bound, KeepsLeaves bound category leaves) {word : Word}
    {value : α}
    (derived : category word value) : leaves value = leavesOf word :=
  keeps (word.length + 1) word value derived (Nat.lt_succ_self _)

theorem andJoin?_leaves (sign : Token.Kind)
    (join : Condition → Condition → Condition)
    (isJoin : andJoin? sign = some join) :
    isLeaf sign = false ∧ ∀ left right, (join left right).leaves =
      left.leaves ++ right.leaves := by
  unfold andJoin? at isJoin
  split at isJoin <;> cases isJoin
  simp [isLeaf, Condition.leaves]

theorem orJoin?_leaves (sign : Token.Kind)
    (join : Condition → Condition → Condition)
    (isJoin : orJoin? sign = some join) :
    isLeaf sign = false ∧ ∀ left right, (join left right).leaves =
      left.leaves ++ right.leaves := by
  unfold orJoin? at isJoin
  split at isJoin <;> cases isJoin
  simp [isLeaf, Condition.leaves]

theorem KeepsLeaves.disjunction {bound : Nat}
    (keeps : KeepsLeaves bound Literal Condition.leaves) :
    KeepsLeaves bound Disjunction Condition.leaves :=
  (keeps.chain andJoin?_leaves).chain orJoin?_leaves

theorem literal_keepsLeaves (bound : Nat) :
    KeepsLeaves bound Literal Condition.leaves := by
  induction bound with
  | zero =>
      intro word value derived isShort
      exact absurd isShort (Nat.not_lt_zero _)
  | succ bound ih =>
      intro word value derived isShort
      cases derived with
      | rel op before written after =>
          simp [Condition.leaves,
            KeepsLeaves.apply expression_keepsLeaves before,
            KeepsLeaves.apply expression_keepsLeaves after]
      | @not word value operand =>
          rw [List.length_cons] at isShort
          simp [Condition.leaves, ih word value operand (by omega)]
      | @paren word value inner =>
          simp only [List.length_cons, List.length_append] at isShort
          simp [ih.disjunction word value inner (by omega)]

theorem disjunction_keepsLeaves (bound : Nat) :
    KeepsLeaves bound Disjunction Condition.leaves :=
  (literal_keepsLeaves bound).disjunction

theorem location_keepsLeaves (bound : Nat) :
    KeepsLeaves bound (Location Expression) Place.leaves := by
  intro word place derived isShort
  exact (expression_keepsLeaves bound).location word place derived
    (Nat.lt_succ_of_lt isShort)

theorem arguments_keepsLeaves (bound : Nat) :
    KeepsLeaves bound (Listed (.symbol .comma) Expression)
      (List.flatMap Expr.leaves) :=
  (expression_keepsLeaves bound).listed rfl

theorem statement_keepsLeaves (bound : Nat) :
    KeepsLeaves bound Statement Stmt.leaves := by
  induction bound with
  | zero =>
      intro word value derived isShort
      exact absurd isShort (Nat.not_lt_zero _)
  | succ bound ih =>
      intro word value derived isShort
      cases derived with
      | assign located assigned =>
          simp [Stmt.leaves, KeepsLeaves.apply location_keepsLeaves located,
            KeepsLeaves.apply expression_keepsLeaves assigned]
      | call callee passed =>
          simp [Stmt.leaves, Expr.allLeaves_eq,
            ← KeepsLeaves.apply arguments_keepsLeaves passed]
      | @ifThen first second test thenBranch tested taken =>
          simp only [List.length_cons, List.length_append] at isShort
          simp [Stmt.leaves, KeepsLeaves.apply disjunction_keepsLeaves tested,
            ih second thenBranch taken (by omega)]
      | @ifElse first second third test thenBranch elseBranch tested taken
          closed otherwise =>
          simp only [List.length_cons, List.length_append] at isShort
          simp [Stmt.leaves, KeepsLeaves.apply disjunction_keepsLeaves tested,
            ih second thenBranch taken (by omega),
            ih third elseBranch otherwise (by omega)]
      | @whileDo first second test body tested repeated =>
          simp only [List.length_cons, List.length_append] at isShort
          simp [Stmt.leaves, KeepsLeaves.apply disjunction_keepsLeaves tested,
            ih second body repeated (by omega)]
      | @block word tail statements separated ended =>
          simp only [List.length_cons, List.length_append] at isShort
          have inside := ih.separated rfl word statements separated (by omega)
          simp [Stmt.leaves, Stmt.allLeaves_eq, ← inside,
            leavesOf_optional ended]
      | breakLoop => simp [Stmt.leaves]
      | skip => simp [Stmt.leaves]
      | returnValue returned =>
          simp [Stmt.leaves, KeepsLeaves.apply expression_keepsLeaves returned]
      | read located => simp [Stmt.leaves,
          KeepsLeaves.apply location_keepsLeaves located]
      | write written =>
          simp [Stmt.leaves, KeepsLeaves.apply expression_keepsLeaves written]
      | print text => simp [Stmt.leaves]

theorem declared_leaves {word : Word} {declaration : Declaration}
    (derived : Declared word declaration) :
    declaration.leaves = leavesOf word := by
  cases derived with
  | mk name typed =>
      cases typed with
      | scalar base => simp [Declaration.leaves, Declaration.sizeLeaves]
      | array base sized =>
          cases sized with
          | fixed nonneg => simp [Declaration.leaves, Declaration.sizeLeaves]
          | dynamic counted notFixed =>
              simp [Declaration.leaves, Declaration.sizeLeaves,
                KeepsLeaves.apply expression_keepsLeaves counted]

theorem declared_keepsLeaves (bound : Nat) :
    KeepsLeaves bound Declared Declaration.leaves :=
  fun _ _ derived _ => declared_leaves derived

theorem locals_leaves {word : Word} {declared : List Declaration}
    (derived : Locals word declared) :
    declared.flatMap Declaration.leaves = leavesOf word := by
  cases derived with
  | none => rfl
  | some separated ended =>
      have inside :=
        KeepsLeaves.apply (fun bound =>
          (declared_keepsLeaves bound).separated rfl)
        separated
      simp [inside, leavesOf_optional ended]

theorem definition_leaves {word : Word} {definition : Function}
    (derived : Definition word definition) :
    definition.leaves = leavesOf word := by
  cases derived with
  | mk name parameters locals statements =>
      cases statements with
      | mk separated ended =>
          have params := KeepsLeaves.apply
            (fun bound => (declared_keepsLeaves bound).listed rfl) parameters
          have body := KeepsLeaves.apply
            (fun bound => (statement_keepsLeaves bound).separated rfl) separated
          simp [Function.leaves, Function.declarations, Stmt.allLeaves_eq,
            ← params, ← locals_leaves locals, ← body, leavesOf_optional ended]

/-- The leaves of a program are those of its tokens, in order. -/
theorem derives_leaves {word : Word} {program : Program}
    (derived : Derives word program) : program.leaves = leavesOf word := by
  cases derived with
  | @functions words all each nonempty =>
      rw [Program.leaves]
      clear nonempty
      induction each with
      | nil => rfl
      | cons derived _ ih =>
          rw [List.flatMap_cons, List.flatten_cons, leavesOf_append,
            definition_leaves derived, ih]
  | statement single ended =>
      have body := KeepsLeaves.apply statement_keepsLeaves single
      simp [Program.leaves, body, leavesOf_optional ended]

theorem exists_definition {words : List Word} {all : List Function}
    (each : List.Forall₂ Definition words all) {definition : Function}
    (member : definition ∈ all) :
    ∃ word ∈ words, Definition word definition := by
  induction each with
  | nil => cases member
  | @cons word first words others derived _ ih =>
      rcases List.mem_cons.mp member with rfl | inOthers
      · exact ⟨word, List.mem_cons_self, derived⟩
      · obtain ⟨found, isFound, foundDerived⟩ := ih inOthers
        exact ⟨found, List.mem_cons_of_mem _ isFound, foundDerived⟩

end Grammar

/-- The leaves of the tree of a source text were scanned. -/
theorem treeOf_areScanned {source : String} {tree : Program}
    (isTree : treeOf source = .ok tree) : AreScanned tree.leaves := by
  obtain ⟨tokens, scanned, noErrors, rfl⟩ := treeOf_eq_ok_iff.mp isTree
  have derived := derives_of_errors_eq_nil noErrors
  intro kind member
  rw [← Program.leaves_erase, Grammar.derives_leaves derived] at member
  obtain ⟨token, isToken, rfl⟩ :=
    List.mem_map.mp (List.mem_of_mem_filter member)
  exact scan_isScanned scanned token ((List.takeWhile_sublist _).subset isToken)

end PL0
