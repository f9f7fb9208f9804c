/-!
# Positions in a source text

A position is a line and a column.  Both count from one; a column counts
characters, and only a line feed starts a new line.
-/

namespace PL0

/-- A place in a source text. -/
structure Position where
  line : Nat
  column : Nat
deriving DecidableEq, Inhabited

namespace Position

/-- Where every text begins. -/
def first : Position := ⟨1, 1⟩

/-- The position after a character that stands at `position`. -/
def next (position : Position) (c : Char) : Position :=
  if c = '\n' then ⟨position.line + 1, 1⟩
    else ⟨position.line, position.column + 1⟩

/-- The position after a run of characters that starts at `position`. -/
def after (position : Position) (text : List Char) : Position :=
  text.foldl next position

end Position

end PL0
