import PL0.Scope.ValueType
import Std.Data.ExtTreeMap

/-!
# Scopes

A scope finds what its names stand for, and remembers in which order they were
defined.  The table keeps every scope that was ever opened, by its number, and
knows which scopes are open now: names are looked up from the innermost open
scope outward.  A scope that has been left stays in the table as it was.
-/

namespace PL0

/-- What a variable is to its function. -/
inductive VariableRole where
  | param
  | localVar
deriving DecidableEq, Inhabited

/-- How a role is written in listings. -/
def VariableRole.text : VariableRole → String
  | .param => "param"
  | .localVar => "local"

/-- What a name stands for. -/
inductive Binding where
  | function (params : List ValueType) (position : Position)
  | var (type : ValueType) (role : VariableRole) (position : Position)
deriving DecidableEq

namespace Binding

/-- Where the name was declared. -/
def position : Binding → Position
  | .function _ position => position
  | .var _ _ position => position

/-- How a binding is written in listings. -/
def text : Binding → String
  | .function params position =>
    "function(" ++ ", ".intercalate (params.map ValueType.text) ++
      ") -> int, line " ++ toString position.line
  | .var type role position =>
    role.text ++ " " ++ type.text ++ ", line " ++ toString position.line

end Binding

/-- The number of a scope in its table. -/
abbrev ScopeId := Nat

/-- What a scope belongs to. -/
inductive ScopeKind where
  | global
  | function (name : String)
deriving DecidableEq, Inhabited

/-- How the kind of a scope is written in listings. -/
def ScopeKind.text : ScopeKind → String
  | .global => "global"
  | .function name => "function " ++ name

/-- The names of one scope, and the loops that are open in it. -/
structure Scope where
  kind : ScopeKind
  parent? : Option ScopeId
  /-- What the names stand for. -/
  meanings : Std.ExtTreeMap String Binding
  /-- The names in the order of their definition. -/
  order : List String
  /-- Where the open loops begin, innermost first. -/
  loops : List Position
deriving DecidableEq, Inhabited

namespace Scope

/-- A scope without names. -/
def empty (kind : ScopeKind) (parent? : Option ScopeId) : Scope :=
  ⟨kind, parent?, ∅, [], []⟩

/-- What a name stands for in this scope. -/
def find? (scope : Scope) (name : String) : Option Binding :=
  scope.meanings[name]?

/-- The scope with a name defined last. -/
def add (scope : Scope) (name : String) (binding : Binding) : Scope :=
  { scope with
    meanings := scope.meanings.insert name binding
    order := scope.order ++ [name] }

/-- The names with what they stand for, in the order of their definition. -/
def entries (scope : Scope) : List (String × Binding) :=
  scope.order.filterMap fun name => (scope.find? name).map fun binding =>
    (name, binding)

end Scope

/-- All scopes ever opened, and which of them are open. -/
structure ScopeTable where
  scopes : List Scope
  /-- The innermost open scope. -/
  current : ScopeId
  /-- The open scopes around it, from the inside out. -/
  outer : List ScopeId
deriving DecidableEq

namespace ScopeTable

/-- The table with one open scope, the global one. -/
def initial : ScopeTable :=
  ⟨[Scope.empty .global none], 0, []⟩

/-- Open a scope inside the current one. -/
def push (table : ScopeTable) (kind : ScopeKind) : ScopeTable where
  scopes := table.scopes ++ [Scope.empty kind (some table.current)]
  current := table.scopes.length
  outer := table.current :: table.outer

/-- Leave the current scope; the outermost one is never left. -/
def pop (table : ScopeTable) : ScopeTable :=
  match table.outer with
  | [] => table
  | parent :: outer => { table with current := parent, outer }

/-- The scope with a given number. -/
def scope? (table : ScopeTable) (id : ScopeId) : Option Scope :=
  table.scopes[id]?

/-- What a name stands for in a given scope. -/
def findIn? (table : ScopeTable) (name : String) (id : ScopeId) :
    Option Binding :=
  (table.scope? id).bind fun scope => scope.find? name

/-- What a name stands for in the current scope alone. -/
def resolveLocal? (table : ScopeTable) (name : String) : Option Binding :=
  table.findIn? name table.current

/-- What a name stands for, as seen from the current scope. -/
def resolve? (table : ScopeTable) (name : String) : Option Binding :=
  (table.current :: table.outer).findSome? (table.findIn? name)

/-- Change the current scope. -/
def modifyCurrent (table : ScopeTable) (change : Scope → Scope) : ScopeTable :=
  { table with scopes := table.scopes.modify table.current change }

/-- Define a name in the current scope.  A name that is already there keeps
its meaning, which is the error. -/
def define (table : ScopeTable) (name : String) (binding : Binding) :
    Except Binding ScopeTable :=
  match table.resolveLocal? name with
  | some existing => .error existing
  | none => .ok (table.modifyCurrent fun scope => scope.add name binding)

/-- Enter a loop in the current scope. -/
def enterLoop (table : ScopeTable) (position : Position) : ScopeTable :=
  table.modifyCurrent fun scope =>
    { scope with loops := position :: scope.loops }

/-- Leave the innermost loop of the current scope, if there is one. -/
def exitLoop (table : ScopeTable) : ScopeTable :=
  table.modifyCurrent fun scope => { scope with loops := scope.loops.tail }

/-- Whether a loop is open in the current scope. -/
def inLoop (table : ScopeTable) : Bool :=
  (table.scope? table.current).any fun scope => !scope.loops.isEmpty

end ScopeTable

end PL0
