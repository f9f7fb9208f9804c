import Mathlib.Data.List.Forall2
import PL0.Token.Basic
import PL0.Tree.Basic

/-!
# The grammar

Which token sequences are programs, and of which trees.  The trees have no
numbers and positions.  Sums, products, conjunctions and disjunctions group
from the left; a comparison stands between two expressions and is no operand
of another one; an `else` belongs to the nearest `if` that has none.
-/

namespace PL0

/-- The last part of a statement is an `if` without `else`, which a following
`else` would belong to. -/
def Stmt.EndsOpen : Stmt → Prop
  | .ifThen .. => True
  | .ifElse _ _ _ elseBranch => elseBranch.EndsOpen
  | .whileDo _ _ body => body.EndsOpen
  | _ => False

namespace Grammar

/-- A sequence of tokens, wherever they stand. -/
abbrev Word := List Token.Kind

/-- The words of a category of the grammar, with what they stand for. -/
abbrev Category (α : Type) := Word → α → Prop

/-- Operands with operators between them, joined from the left. -/
inductive Chain {α : Type} (operand : Category α)
    (join? : Token.Kind → Option (α → α → α)) : Category α where
  | single {word : Word} {value : α} (single : operand word value) :
      Chain operand join? word value
  | joined {first second : Word} {left right : α} {sign : Token.Kind}
      {join : α → α → α}
      (before : Chain operand join? first left) (joins : join? sign = some join)
      (after : operand second right) :
      Chain operand join? (first ++ sign :: second) (join left right)

/-- Items with the same token between any two of them, at least one item. -/
inductive Separated {α : Type} (separator : Token.Kind) (item : Category α) :
    Category (List α) where
  | single {word : Word} {value : α} (single : item word value) :
      Separated separator item word [value]
  | cons {first others : Word} {value : α} {values : List α}
      (head : item first value)
      (tail : Separated separator item others values) :
      Separated separator item (first ++ separator :: others) (value :: values)

/-- Items with the same token between any two of them, or none at all. -/
inductive Listed {α : Type} (separator : Token.Kind) (item : Category α) :
    Category (List α) where
  | none : Listed separator item [] []
  | some {word : Word} {values : List α}
      (separated : Separated separator item word values) :
      Listed separator item word values

/-- Nothing, or a single token. -/
inductive Optional (kind : Token.Kind) : Word → Prop where
  | absent : Optional kind []
  | present : Optional kind [kind]

/-- A variable or an element of an array, by what an index can be. -/
inductive Location (index : Category Expr) : Category Place where
  | var (name : String) : Location index [.identifier name] (.var default name)
  | element (name : String) {word : Word} {value : Expr}
      (indexed : index word value) :
      Location index
        (.identifier name :: .symbol .openBracket ::
          (word ++ [.symbol .closeBracket]))
        (.element default name value)

/-- The operators of a sum. -/
def sumJoin? : Token.Kind → Option (Expr → Expr → Expr)
  | .symbol .plus => some (.binary default .add)
  | .symbol .minus => some (.binary default .sub)
  | _ => none

/-- The operators of a product. -/
def productJoin? : Token.Kind → Option (Expr → Expr → Expr)
  | .symbol .times => some (.binary default .mul)
  | .symbol .divide => some (.binary default .div)
  | _ => none

/-- How the base types are written. -/
def typeWord : BaseType → Token.Kind
  | .int => .keyword .intWord
  | .float => .keyword .floatWord

/-- A factor of a product.  A chain of chains of factors is an expression. -/
inductive Factor : Category Expr where
  | int (value : Int64) : Factor [.integer value] (.int default value)
  | float (value : Binary64) : Factor [.float value] (.float default value)
  | location {word : Word} {place : Place}
      (located :
        Location (Chain (Chain Factor productJoin?) sumJoin?) word place) :
      Factor word (.valueOf default place)
  | call (callee : String) {word : Word} {values : List Expr}
      (passed : Listed (.symbol .comma)
        (Chain (Chain Factor productJoin?) sumJoin?)
        word values) :
      Factor (.identifier callee :: .symbol .openParen ::
        (word ++ [.symbol .closeParen])) (.call default callee values)
  | castParen (target : BaseType) {word : Word} {value : Expr}
      (operand : Chain (Chain Factor productJoin?) sumJoin? word value) :
      Factor (typeWord target :: .symbol .openParen ::
        (word ++ [.symbol .closeParen])) (.cast default target value)
  | castBracket (target : BaseType) {word : Word} {value : Expr}
      (operand : Chain (Chain Factor productJoin?) sumJoin? word value) :
      Factor (typeWord target :: .symbol .openBracket ::
        (word ++ [.symbol .closeBracket])) (.cast default target value)
  | negated {word : Word} {value : Expr} (operand : Factor word value) :
      Factor (.symbol .minus :: word) (.signed default .neg value)
  | positive {word : Word} {value : Expr} (operand : Factor word value) :
      Factor (.symbol .plus :: word) (.signed default .plus value)
  | paren {word : Word} {value : Expr}
      (inner : Chain (Chain Factor productJoin?) sumJoin? word value) :
      Factor (.symbol .openParen :: (word ++ [.symbol .closeParen])) value

/-- A product of factors. -/
abbrev Term : Category Expr := Chain Factor productJoin?

/-- A sum of products. -/
abbrev Expression : Category Expr := Chain Term sumJoin?

/-- How the comparisons are written. -/
def relSigns : RelOp → List Symbol
  | .lt => [.less]
  | .le => [.lessEqual]
  | .gt => [.greater]
  | .ge => [.greaterEqual]
  | .eq => [.equal]
  | .ne => [.notEqual, .lessGreater]

/-- The operator of a conjunction. -/
def andJoin? : Token.Kind → Option (Condition → Condition → Condition)
  | .keyword .andWord => some (.logic default .and)
  | _ => none

/-- The operator of a disjunction. -/
def orJoin? : Token.Kind → Option (Condition → Condition → Condition)
  | .keyword .orWord => some (.logic default .or)
  | _ => none

/-- A part of a conjunction. -/
inductive Literal : Category Condition where
  | rel (op : RelOp) {sign : Symbol} {first second : Word} {left right : Expr}
      (before : Expression first left) (written : sign ∈ relSigns op)
      (after : Expression second right) :
      Literal (first ++ .symbol sign :: second) (.rel default op left right)
  | not {word : Word} {value : Condition} (operand : Literal word value) :
      Literal (.keyword .notWord :: word) (.not default value)
  | paren {word : Word} {value : Condition}
      (inner : Chain (Chain Literal andJoin?) orJoin? word value) :
      Literal (.symbol .openParen :: (word ++ [.symbol .closeParen])) value

/-- A conjunction. -/
abbrev Conjunction : Category Condition := Chain Literal andJoin?

/-- A condition: a disjunction of conjunctions. -/
abbrev Disjunction : Category Condition := Chain Conjunction orJoin?

/-- A statement. -/
inductive Statement : Category Stmt where
  | assign {first second : Word} {target : Place} {value : Expr}
      (located : Location Expression first target)
        (assigned : Expression second value) :
      Statement (first ++ .symbol .assign :: second)
        (.assign default target value)
  | call (callee : String) {word : Word} {values : List Expr}
      (passed : Listed (.symbol .comma) Expression word values) :
      Statement (.identifier callee :: .symbol .openParen ::
        (word ++ [.symbol .closeParen])) (.call default callee values)
  | ifThen {first second : Word} {test : Condition} {thenBranch : Stmt}
      (tested : Disjunction first test) (taken : Statement second thenBranch) :
      Statement (.keyword .ifWord :: (first ++ .keyword .thenWord :: second))
        (.ifThen default test thenBranch)
  | ifElse {first second third : Word} {test : Condition}
      {thenBranch elseBranch : Stmt}
      (tested : Disjunction first test) (taken : Statement second thenBranch)
      (closed : ¬ thenBranch.EndsOpen)
        (otherwise : Statement third elseBranch) :
      Statement (.keyword .ifWord :: (first ++ .keyword .thenWord ::
          (second ++ .keyword .elseWord :: third)))
        (.ifElse default test thenBranch elseBranch)
  | whileDo {first second : Word} {test : Condition} {body : Stmt}
      (tested : Disjunction first test) (repeated : Statement second body) :
      Statement (.keyword .whileWord :: (first ++ .keyword .doWord :: second))
        (.whileDo default test body)
  | block {word tail : Word} {statements : List Stmt}
      (separated : Separated (.symbol .semicolon) Statement word statements)
      (ended : Optional (.symbol .semicolon) tail) :
      Statement (.keyword .beginWord :: ((word ++ tail) ++ [.keyword .endWord]))
        (.block default statements)
  | breakLoop : Statement [.keyword .breakWord] (.breakLoop default)
  | skip : Statement [.keyword .skipWord] (.skip default)
  | returnValue {word : Word} {value : Expr}
      (returned : Expression word value) :
      Statement (.keyword .returnWord :: word) (.returnValue default value)
  | read {word : Word} {target : Place}
      (located : Location Expression word target) :
      Statement (.keyword .readWord :: .symbol .openParen ::
        (word ++ [.symbol .closeParen])) (.read default target)
  | write {word : Word} {value : Expr} (written : Expression word value) :
      Statement (.keyword .writeWord :: .symbol .openParen ::
        (word ++ [.symbol .closeParen])) (.write default value)
  | print (text : String) :
      Statement [.keyword .printWord, .symbol .openParen, .string text,
        .symbol .closeParen] (.print default text)

/-- Statements with semicolons between them and perhaps one at the end. -/
inductive Statements : Category (List Stmt) where
  | mk {word tail : Word} {statements : List Stmt}
      (separated : Separated (.symbol .semicolon) Statement word statements)
      (ended : Optional (.symbol .semicolon) tail) :
        Statements (word ++ tail) statements

/-- The size of an array.  A number on its own is fixed. -/
inductive Size : Category ArraySize where
  | fixed {value : Int64} (nonneg : 0 ≤ value) :
      Size [.integer value] (.fixed value.toUInt64)
  | dynamic {word : Word} {value : Expr} (counted : Expression word value)
      (notFixed : ∀ number : Int64, 0 ≤ number → word ≠ [.integer number]) :
      Size word (.dynamic value)

/-- The type in a declaration. -/
inductive TypeName : Category DeclaredType where
  | scalar (base : BaseType) : TypeName [typeWord base] ⟨base, none⟩
  | array (base : BaseType) {word : Word} {size : ArraySize}
      (sized : Size word size) :
      TypeName (typeWord base :: .symbol .openBracket ::
        (word ++ [.symbol .closeBracket])) ⟨base, some size⟩

/-- The declaration of a parameter or a local variable. -/
inductive Declared : Category Declaration where
  | mk (name : String) {word : Word} {type : DeclaredType}
      (typed : TypeName word type) :
      Declared (.identifier name :: .symbol .colon :: word)
        ⟨name, type, default⟩

/-- The local variables of a function, perhaps with a semicolon at the end. -/
inductive Locals : Category (List Declaration) where
  | none : Locals [] []
  | some {word tail : Word} {declared : List Declaration}
      (separated : Separated (.symbol .semicolon) Declared word declared)
      (ended : Optional (.symbol .semicolon) tail) :
        Locals (word ++ tail) declared

/-- A function. -/
inductive Definition : Category Function where
  | mk (name : String) {first second third : Word}
      {params declared : List Declaration}
      {body : List Stmt}
        (parameters : Listed (.symbol .comma) Declared first params)
      (locals : Locals second declared) (statements : Statements third body) :
      Definition (.keyword .funWord :: .identifier name :: .symbol .openParen ::
          (first ++ .symbol .closeParen :: (second ++ .keyword .beginWord ::
            (third ++ [.keyword .endWord]))))
        ⟨name, params, declared, body, default⟩

/-- A program. -/
inductive Derives : Category Program where
  | functions {words : List Word} {all : List Function}
      (each : List.Forall₂ Definition words all) (nonempty : all ≠ []) :
      Derives words.flatten (.functions all)
  | statement {word tail : Word} {body : Stmt} (single : Statement word body)
      (ended : Optional (.symbol .semicolon) tail) :
      Derives (word ++ tail) (.statement body)

end Grammar

end PL0
