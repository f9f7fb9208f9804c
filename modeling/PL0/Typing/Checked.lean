import PL0.Typing.Diagnostic

/-!
# Results of checking

Checking a part of a program yields a value, the faults in that part and the
types of the nodes in it, both in the order in which they were found.
-/

namespace PL0

/-- What checking found out. -/
structure Checked (α : Type) where
  value : α
  errors : List SemanticError
  types : List (NodeId × ValueType)

namespace Checked

variable {α β : Type}

instance : Monad Checked where
  pure value := ⟨value, [], []⟩
  bind first next :=
    let second := next first.value
    ⟨second.value, first.errors ++ second.errors, first.types ++ second.types⟩

/-- Note a fault. -/
def report (fault : SemanticFault) (position : Position) : Checked Unit :=
  ⟨(), [⟨fault, position⟩], []⟩

/-- Note the type of a node, if it has one. -/
def record (node : Node) (type? : Option ValueType) :
    Checked (Option ValueType) :=
  ⟨type?, [], type?.toList.map fun type => (node.id, type)⟩

@[simp] theorem value_pure (value : α) :
    (pure value : Checked α).value = value := rfl

@[simp] theorem errors_pure (value : α) :
    (pure value : Checked α).errors = [] := rfl

@[simp] theorem types_pure (value : α) :
    (pure value : Checked α).types = [] := rfl

@[simp] theorem value_bind (first : Checked α) (next : α → Checked β) :
    (first >>= next).value = (next first.value).value := rfl

@[simp] theorem errors_bind (first : Checked α) (next : α → Checked β) :
    (first >>= next).errors = first.errors ++ (next first.value).errors := rfl

@[simp] theorem types_bind (first : Checked α) (next : α → Checked β) :
    (first >>= next).types = first.types ++ (next first.value).types := rfl

end Checked

end PL0
