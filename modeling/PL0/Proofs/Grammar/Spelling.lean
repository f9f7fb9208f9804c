import Mathlib.Algebra.Group.Nat.Defs
import PL0.Proofs.Grammar.Rules
import PL0.Proofs.Tree.Erasure

/-!
# How trees are written

Every tree is written as a sequence of tokens with parentheses only where the
grammar would otherwise group it differently.  A tree is representable if what
is written has it as its tree: its lists of statements and of functions are
not empty, its fixed sizes are integers of the language, and no `else` would
be taken by another `if`.
-/

namespace PL0

open Grammar

/-- A word in parentheses. -/
def parenthesize (word : Word) : Word :=
  .symbol .openParen :: (word ++ [.symbol .closeParen])

/-- A word of some level, in parentheses where only higher levels can stand. -/
def enclose (needed level : Nat) (word : Word) : Word :=
  if level < needed then parenthesize word else word

theorem enclose_of_le {needed level : Nat} (enough : needed ≤ level)
    (word : Word) : enclose needed level word = word :=
  if_neg (Nat.not_lt.mpr enough)

theorem enclose_of_lt {needed level : Nat} (tooLow : level < needed)
    (word : Word) : enclose needed level word = parenthesize word :=
  if_pos tooLow

/-- The sign of an operator. -/
def ArithOp.sign : ArithOp → Symbol
  | .add => .plus
  | .sub => .minus
  | .mul => .times
  | .div => .divide

/-- Products bind tighter than sums. -/
def ArithOp.level : ArithOp → Nat
  | .add => 1
  | .sub => 1
  | .mul => 2
  | .div => 2

/-- The sign before an operand. -/
def SignOp.sign : SignOp → Symbol
  | .neg => .minus
  | .plus => .plus

/-- The sign of a comparison. -/
def RelOp.sign : RelOp → Symbol
  | .lt => .less
  | .le => .lessEqual
  | .gt => .greater
  | .ge => .greaterEqual
  | .eq => .equal
  | .ne => .notEqual

/-- The word of a connective. -/
def LogicOp.keyword : LogicOp → Keyword
  | .and => .andWord
  | .or => .orWord

/-- Conjunctions bind tighter than disjunctions. -/
def LogicOp.level : LogicOp → Nat
  | .and => 2
  | .or => 1

/-- How tightly an expression holds together.  The highest level is that of
the factors. -/
def Expr.level : Expr → Nat
  | .binary _ op _ _ => op.level
  | _ => 3

/-- How tightly a condition holds together. -/
def Condition.level : Condition → Nat
  | .logic _ op _ _ => op.level
  | _ => 3

theorem Expr.one_le_level (e : Expr) : 1 ≤ e.level := by
  cases e with
  | binary _ op => cases op <;> simp [Expr.level, ArithOp.level]
  | _ => simp [Expr.level]

theorem Condition.one_le_level (test : Condition) : 1 ≤ test.level := by
  cases test with
  | logic _ op => cases op <;> simp [Condition.level, LogicOp.level]
  | _ => simp [Condition.level]

mutual

/-- How a place is written. -/
def Place.spelling : Place → Word
  | .var _ name => [.identifier name]
  | .element _ name index =>
    .identifier name :: .symbol .openBracket ::
      (index.spelling ++ [.symbol .closeBracket])

/-- How an expression is written.  Operators group from the left, so a right
operand of the same level is put in parentheses. -/
def Expr.spelling : Expr → Word
  | .int _ value => [.integer value]
  | .float _ value => [.float value]
  | .valueOf _ place => place.spelling
  | .binary _ op left right =>
    enclose op.level left.level left.spelling ++
      .symbol op.sign :: enclose (op.level + 1) right.level right.spelling
  | .signed _ op operand =>
      .symbol op.sign :: enclose 3 operand.level operand.spelling
  | .call _ callee args =>
    .identifier callee ::
      parenthesize ([.symbol .comma].intercalate (Expr.spellings args))
  | .cast _ target operand => typeWord target :: parenthesize operand.spelling

/-- How expressions are written, each on its own. -/
def Expr.spellings : List Expr → List Word
  | [] => []
  | first :: others => first.spelling :: Expr.spellings others

end

/-- How a condition is written. -/
def Condition.spelling : Condition → Word
  | .rel _ op left right => left.spelling ++ .symbol op.sign :: right.spelling
  | .logic _ op left right =>
    enclose op.level left.level left.spelling ++
      .keyword op.keyword :: enclose (op.level + 1) right.level right.spelling
  | .not _ operand =>
      .keyword .notWord :: enclose 3 operand.level operand.spelling

mutual

/-- How a statement is written. -/
def Stmt.spelling : Stmt → Word
  | .assign _ target value =>
      target.spelling ++ .symbol .assign :: value.spelling
  | .ifThen _ test thenBranch =>
    .keyword .ifWord ::
      (test.spelling ++ .keyword .thenWord :: thenBranch.spelling)
  | .ifElse _ test thenBranch elseBranch =>
    .keyword .ifWord :: (test.spelling ++ .keyword .thenWord ::
      (thenBranch.spelling ++ .keyword .elseWord :: elseBranch.spelling))
  | .whileDo _ test body =>
    .keyword .whileWord :: (test.spelling ++ .keyword .doWord :: body.spelling)
  | .block _ statements =>
    .keyword .beginWord ::
      ([.symbol .semicolon].intercalate (Stmt.spellings statements) ++
        [.keyword .endWord])
  | .breakLoop _ => [.keyword .breakWord]
  | .skip _ => [.keyword .skipWord]
  | .returnValue _ value => .keyword .returnWord :: value.spelling
  | .read _ target => .keyword .readWord :: parenthesize target.spelling
  | .write _ value => .keyword .writeWord :: parenthesize value.spelling
  | .print _ text => .keyword .printWord :: parenthesize [.string text]
  | .call _ callee args =>
    .identifier callee ::
      parenthesize ([.symbol .comma].intercalate (Expr.spellings args))

/-- How statements are written, each on its own. -/
def Stmt.spellings : List Stmt → List Word
  | [] => []
  | first :: others => first.spelling :: Stmt.spellings others

end

/-- An expression that as the size of an array would be taken for a fixed
size. -/
def Expr.IsCount : Expr → Prop
  | .int _ value => 0 ≤ value
  | _ => False

instance : DecidablePred Expr.IsCount := fun e =>
  match e with
  | .int _ value => inferInstanceAs (Decidable (0 ≤ value))
  | .float .. | .valueOf .. | .binary .. | .signed .. | .call .. | .cast .. =>
    inferInstanceAs (Decidable False)

/-- How the size of an array is written. -/
def ArraySize.spelling : ArraySize → Word
  | .fixed count => [.integer count.toInt64]
  | .dynamic count => if count.IsCount then parenthesize count.spelling
      else count.spelling

/-- How the type in a declaration is written. -/
def DeclaredType.spelling : DeclaredType → Word
  | ⟨base, none⟩ => [typeWord base]
  | ⟨base, some size⟩ =>
    typeWord base :: .symbol .openBracket ::
      (size.spelling ++ [.symbol .closeBracket])

/-- How a declaration is written. -/
def Declaration.spelling (declaration : Declaration) : Word :=
  .identifier declaration.name :: .symbol .colon :: declaration.type.spelling

/-- How a function is written. -/
def Function.spelling (function : Function) : Word :=
  .keyword .funWord :: .identifier function.name :: .symbol .openParen ::
    ([.symbol .comma].intercalate (function.params.map Declaration.spelling) ++
      .symbol .closeParen ::
        ([.symbol .semicolon].intercalate
          (function.locals.map Declaration.spelling) ++
          .keyword .beginWord ::
            ([.symbol .semicolon].intercalate (Stmt.spellings function.body) ++
              [.keyword .endWord])))

/-- How a program is written. -/
def Program.spelling : Program → Word
  | .functions all => all.flatMap Function.spelling
  | .statement body => body.spelling

theorem Expr.spellings_eq (args : List Expr) :
    Expr.spellings args = args.map Expr.spelling := by
  induction args with
  | nil => rfl
  | cons first others ih => rw [Expr.spellings, List.map_cons, ih]

theorem Stmt.spellings_eq (statements : List Stmt) :
    Stmt.spellings statements = statements.map Stmt.spelling := by
  induction statements with
  | nil => rfl
  | cons first others ih => rw [Stmt.spellings, List.map_cons, ih]

mutual

/-- No block in a statement is empty, and no `else` would be taken by another
`if`. -/
def Stmt.Representable : Stmt → Prop
  | .ifThen _ _ thenBranch => thenBranch.Representable
  | .ifElse _ _ thenBranch elseBranch =>
    ¬ thenBranch.EndsOpen ∧ thenBranch.Representable ∧ elseBranch.Representable
  | .whileDo _ _ body => body.Representable
  | .block _ statements => statements ≠ [] ∧ Stmt.AllRepresentable statements
  | _ => True

/-- Every one of some statements is representable. -/
def Stmt.AllRepresentable : List Stmt → Prop
  | [] => True
  | first :: others => first.Representable ∧ Stmt.AllRepresentable others

end

/-- A fixed size is an integer of the language. -/
def ArraySize.Representable : ArraySize → Prop
  | .fixed count => count.toNat < 2 ^ 63
  | .dynamic _ => True

/-- The size of an array is representable, if there is one. -/
def Declaration.Representable (declaration : Declaration) : Prop :=
  ∀ size ∈ declaration.type.size?, size.Representable

/-- The declarations and the body of a function are representable, and the
body is not empty. -/
structure Function.Representable (function : Function) : Prop where
  declarations : ∀ declaration ∈ function.params ++ function.locals,
    declaration.Representable
  nonempty : function.body ≠ []
  body : ∀ statement ∈ function.body, statement.Representable

/-- A program can be written. -/
def Program.Representable : Program → Prop
  | .functions all => all ≠ [] ∧ ∀ function ∈ all, function.Representable
  | .statement body => body.Representable

section Layers

variable {α : Type} {operand : Category α} {tight? loose? : Token.Kind →
  Option (α → α → α)} {word : Word} {value : α}

/-- A word stands for a value at each of three levels, in parentheses where it
has to. -/
structure Layered (operand : Category α)
    (tight? loose? : Token.Kind → Option (α → α → α)) (level : Nat)
    (word : Word) (value : α) : Prop where
  single : operand (enclose 3 level word) value
  tight : Chain operand tight? (enclose 2 level word) value
  loose : Chain (Chain operand tight?) loose? (enclose 1 level word) value

theorem Layered.ofOperand (derived : operand word value) :
    Layered operand tight? loose? 3 word value :=
  ⟨derived, .single derived, .single (.single derived)⟩

variable (paren : ∀ {word value},
  Chain (Chain operand tight?) loose? word value →
  operand (parenthesize word) value)

include paren

theorem Layered.ofTight (derived : Chain operand tight? word value) :
    Layered operand tight? loose? 2 word value :=
  ⟨paren (.single derived), derived, .single derived⟩

theorem Layered.ofLoose
    (derived : Chain (Chain operand tight?) loose? word value) :
    Layered operand tight? loose? 1 word value :=
  ⟨paren derived, .single (paren derived), derived⟩

end Layers

section Lists

variable {α : Type} {item : Category α} {spelling : α → Word} {erase : α → α}
  {values : List α} (separator : Token.Kind)

theorem separated_intercalate (nonempty : values ≠ [])
    (each : ∀ value ∈ values, item (spelling value) (erase value)) :
    Separated separator item ([separator].intercalate (values.map spelling))
      (values.map erase) := by
  induction values with
  | nil => exact absurd rfl nonempty
  | cons first others ih =>
      obtain ⟨head, tail⟩ := List.forall_mem_cons.mp each
      cases others with
      | nil =>
          rw [List.map_singleton, List.intercalate_singleton]
          exact .single head
      | cons second others =>
          rw [List.map_cons, List.map_cons, List.intercalate_cons_cons,
            List.append_assoc]
          exact .cons head (ih (List.cons_ne_nil _ _) tail)

theorem listed_intercalate
    (each : ∀ value ∈ values, item (spelling value) (erase value)) :
    Listed separator item ([separator].intercalate (values.map spelling))
      (values.map erase) := by
  by_cases nonempty : values = []
  · subst nonempty
    exact .none
  · exact .some (separated_intercalate separator nonempty each)

end Lists

/-- An expression is derived from what is written of it, at each level. -/
def Expr.Spelled (e : Expr) : Prop :=
  Layered Factor productJoin? sumJoin? e.level e.spelling e.erase

theorem Expr.Spelled.expression {e : Expr} (spelled : e.Spelled) :
    Expression e.spelling e.erase := by
  have loose := spelled.loose
  rwa [enclose_of_le e.one_le_level] at loose

theorem Expr.Spelled.binary {left right : Expr} (leftSpelled : left.Spelled)
    (rightSpelled : right.Spelled) (node : Node) (op : ArithOp) :
    (Expr.binary node op left right).Spelled := by
  rw [Expr.Spelled, Expr.spelling, Expr.erase]
  cases op with
  | add =>
      exact .ofLoose .paren (.joined leftSpelled.loose rfl rightSpelled.tight)
  | sub =>
      exact .ofLoose .paren (.joined leftSpelled.loose rfl rightSpelled.tight)
  | mul =>
      exact .ofTight .paren (.joined leftSpelled.tight rfl rightSpelled.single)
  | div =>
      exact .ofTight .paren (.joined leftSpelled.tight rfl rightSpelled.single)

theorem Expr.Spelled.signed {operand : Expr} (spelled : operand.Spelled)
    (node : Node) (op : SignOp) : (Expr.signed node op operand).Spelled := by
  rw [Expr.Spelled, Expr.spelling, Expr.erase]
  cases op with
  | neg => exact .ofOperand (.negated spelled.single)
  | plus => exact .ofOperand (.positive spelled.single)

theorem Expr.arguments_listed {args : List Expr}
    (each : ∀ arg ∈ args, arg.Spelled) :
    Listed (.symbol .comma) Expression
      ([.symbol .comma].intercalate (Expr.spellings args))
      (args.map Expr.erase) := by
  rw [Expr.spellings_eq]
  exact listed_intercalate _ fun arg member => (each arg member).expression

mutual

theorem Place.located :
    ∀ place : Place, Location Expression place.spelling place.erase
  | .var _ name => by
      rw [Place.spelling, Place.erase]
      exact .var name
  | .element _ name index => by
      rw [Place.spelling, Place.erase]
      exact .element name index.spelled.expression

theorem Expr.spelled : ∀ e : Expr, e.Spelled
  | .int _ value => by
      rw [Expr.Spelled, Expr.spelling, Expr.erase]
      exact .ofOperand (.int value)
  | .float _ value => by
      rw [Expr.Spelled, Expr.spelling, Expr.erase]
      exact .ofOperand (.float value)
  | .valueOf _ place => by
      rw [Expr.Spelled, Expr.spelling, Expr.erase]
      exact .ofOperand (.location place.located)
  | .binary node op left right => left.spelled.binary right.spelled node op
  | .signed node op operand => operand.spelled.signed node op
  | .call _ callee args => by
      rw [Expr.Spelled, Expr.spelling, Expr.erase]
      exact .ofOperand
        (.call callee (Expr.arguments_listed (Expr.all_spelled args)))
  | .cast _ target operand => by
      rw [Expr.Spelled, Expr.spelling, Expr.erase]
      exact .ofOperand (.castParen target operand.spelled.expression)

theorem Expr.all_spelled : ∀ args : List Expr, ∀ arg ∈ args, arg.Spelled
  | [] => by simp
  | first :: others =>
      List.forall_mem_cons.mpr ⟨first.spelled, Expr.all_spelled others⟩

end

theorem Condition.spelled (test : Condition) :
    Layered Literal andJoin? orJoin? test.level test.spelling test.erase := by
  induction test with
  | rel _ op left right =>
      have sign : op.sign ∈ relSigns op := by
        cases op <;> simp [RelOp.sign, relSigns]
      exact .ofOperand
        (.rel op left.spelled.expression sign right.spelled.expression)
  | logic _ op left right leftSpelled rightSpelled =>
      cases op with
      | and =>
          exact .ofTight .paren
            (.joined leftSpelled.tight rfl rightSpelled.single)
      | or =>
          exact .ofLoose .paren
            (.joined leftSpelled.loose rfl rightSpelled.tight)
  | not _ operand spelled => exact .ofOperand (.not spelled.single)

theorem Condition.disjunction (test : Condition) :
    Disjunction test.spelling test.erase := by
  have loose := test.spelled.loose
  rwa [enclose_of_le test.one_le_level] at loose

theorem Stmt.endsOpen_erase : ∀ statement : Stmt,
    statement.erase.EndsOpen ↔ statement.EndsOpen
  | .ifThen .. => by simp [Stmt.erase, Stmt.EndsOpen]
  | .ifElse _ _ _ elseBranch => by
      simpa [Stmt.erase, Stmt.EndsOpen] using elseBranch.endsOpen_erase
  | .whileDo _ _ body => by simpa [Stmt.erase, Stmt.EndsOpen]
      using body.endsOpen_erase
  | .assign .. | .block .. | .breakLoop _ | .skip _ | .returnValue .. | .read ..
  | .write .. | .print .. | .call .. => by simp [Stmt.erase, Stmt.EndsOpen]

mutual

theorem Stmt.derived : ∀ statement : Stmt, statement.Representable →
    Statement statement.spelling statement.erase
  | .assign _ target value, _ => by
      rw [Stmt.spelling, Stmt.erase]
      exact .assign target.located value.spelled.expression
  | .ifThen _ test thenBranch, representable => by
      rw [Stmt.Representable] at representable
      rw [Stmt.spelling, Stmt.erase]
      exact .ifThen test.disjunction (thenBranch.derived representable)
  | .ifElse _ test thenBranch elseBranch, representable => by
      rw [Stmt.Representable] at representable
      obtain ⟨closed, ofThen, ofElse⟩ := representable
      rw [← thenBranch.endsOpen_erase] at closed
      rw [Stmt.spelling, Stmt.erase]
      exact .ifElse test.disjunction (thenBranch.derived ofThen) closed
        (elseBranch.derived ofElse)
  | .whileDo _ test body, representable => by
      rw [Stmt.Representable] at representable
      rw [Stmt.spelling, Stmt.erase]
      exact .whileDo test.disjunction (body.derived representable)
  | .block _ statements, representable => by
      rw [Stmt.Representable] at representable
      obtain ⟨nonempty, each⟩ := representable
      rw [Stmt.spelling, Stmt.erase, Stmt.spellings_eq]
      have separated := separated_intercalate (.symbol .semicolon) nonempty
        (Stmt.all_derived statements each)
      have block := Statement.block separated .absent
      rwa [List.append_nil] at block
  | .breakLoop _, _ => by
      rw [Stmt.spelling, Stmt.erase]
      exact .breakLoop
  | .skip _, _ => by
      rw [Stmt.spelling, Stmt.erase]
      exact .skip
  | .returnValue _ value, _ => by
      rw [Stmt.spelling, Stmt.erase]
      exact .returnValue value.spelled.expression
  | .read _ target, _ => by
      rw [Stmt.spelling, Stmt.erase]
      exact .read target.located
  | .write _ value, _ => by
      rw [Stmt.spelling, Stmt.erase]
      exact .write value.spelled.expression
  | .print _ text, _ => by
      rw [Stmt.spelling, Stmt.erase]
      exact .print text
  | .call _ callee args, _ => by
      rw [Stmt.spelling, Stmt.erase]
      exact .call callee (Expr.arguments_listed (Expr.all_spelled args))

theorem Stmt.all_derived :
    ∀ statements : List Stmt, Stmt.AllRepresentable statements →
    ∀ statement ∈ statements, Statement statement.spelling statement.erase
  | [], _ => by simp
  | first :: others, representable => by
      rw [Stmt.AllRepresentable] at representable
      exact List.forall_mem_cons.mpr
        ⟨first.derived representable.1, Stmt.all_derived others representable.2⟩

end

theorem Expr.spelling_ne_integer {e : Expr} (notCount : ¬ e.IsCount)
    (number : Int64) (nonneg : 0 ≤ number) :
    e.spelling ≠ [.integer number] := by
  cases e with
  | int _ value =>
      rw [Expr.spelling]
      rintro ⟨⟩
      exact notCount nonneg
  | float => simp [Expr.spelling]
  | valueOf _ place => cases place <;> simp [Expr.spelling, Place.spelling]
  | binary => simp [Expr.spelling, List.append_eq_singleton_iff]
  | signed => simp [Expr.spelling]
  | call => simp [Expr.spelling]
  | cast _ target => cases target <;> simp [Expr.spelling, typeWord]

theorem zero_le_toInt64_iff {count : UInt64} :
    0 ≤ count.toInt64 ↔ count.toNat < 2 ^ 63 := by
  have toIntEq : count.toInt64.toInt = count.toBitVec.toInt := by
    rw [← Int64.toInt_toBitVec, UInt64.toBitVec_toInt64]
  rw [Int64.le_iff_toInt_le, Int64.toInt_zero, toIntEq,
    BitVec.toInt_eq_toNat_cond, UInt64.toNat_toBitVec]
  have := count.toNat_lt
  split <;> omega

theorem ArraySize.derived {size : ArraySize}
    (representable : size.Representable) : Size size.spelling size.erase := by
  cases size with
  | fixed count =>
      have fixed := Size.fixed (zero_le_toInt64_iff.mpr representable)
      rwa [UInt64.toUInt64_toInt64] at fixed
  | dynamic count =>
      rw [ArraySize.spelling]
      split
      · refine .dynamic (.single (.single (.paren count.spelled.expression))) ?_
        simp [parenthesize]
      · next notCount =>
          exact .dynamic count.spelled.expression
            (Expr.spelling_ne_integer notCount)

theorem Declaration.derived {declaration : Declaration}
    (representable : declaration.Representable) :
    Declared declaration.spelling declaration.erase := by
  obtain ⟨name, ⟨base, size?⟩, position⟩ := declaration
  cases size? with
  | none => exact .mk name (.scalar base)
  | some size =>
      exact .mk name (.array base (ArraySize.derived (representable size rfl)))

theorem locals_intercalate {declared : List Declaration}
    (each : ∀ declaration ∈ declared, declaration.Representable) :
    Locals ([.symbol .semicolon].intercalate
      (declared.map Declaration.spelling))
      (declared.map Declaration.erase) := by
  by_cases nonempty : declared = []
  · subst nonempty
    exact .none
  · have separated := separated_intercalate (.symbol .semicolon) nonempty
      fun declaration member => Declaration.derived (each declaration member)
    have locals := Locals.some separated .absent
    rwa [List.append_nil] at locals

theorem Function.derived {function : Function}
    (representable : function.Representable) :
    Definition function.spelling function.erase := by
  obtain ⟨ofParams, ofLocals⟩ :=
    List.forall_mem_append.mp representable.declarations
  have separated :=
    separated_intercalate (.symbol .semicolon) representable.nonempty
    fun statement member =>
      statement.derived (representable.body statement member)
  have statements := Statements.mk separated .absent
  rw [List.append_nil, ← Stmt.spellings_eq] at statements
  exact .mk function.name
    (listed_intercalate _ fun declaration member =>
      Declaration.derived (ofParams declaration member))
    (locals_intercalate ofLocals) statements

/-- What is written of a representable program has the program as its tree. -/
theorem Program.derived {program : Program}
    (representable : program.Representable) :
    Derives program.spelling program.erase := by
  cases program with
  | functions all =>
      obtain ⟨nonempty, each⟩ := representable
      have derived : List.Forall₂ Definition (all.map Function.spelling)
          (all.map Function.erase) := by
        rw [List.forall₂_map_left_iff, List.forall₂_map_right_iff,
          List.forall₂_same]
        exact fun function member => Function.derived (each function member)
      exact .functions derived (by simpa using nonempty)
  | statement body =>
      have derived := Derives.statement (body.derived representable) .absent
      rwa [List.append_nil] at derived

end PL0
