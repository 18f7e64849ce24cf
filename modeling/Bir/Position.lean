/-!
# Positions — where something stands in a source text

A position is a line and a column, both counted from one, in the form a reader of a message sees.
This file defines:

* `Position` and the marker `Position.synthetic` for what no source text wrote;
* `Position.text` — the form `line:column`.
-/

namespace Bir

/-- A line and a column, counted from one. -/
structure Position where
  line : Nat
  column : Nat
  deriving DecidableEq, Repr, Inhabited

namespace Position

/-- The position of the first character of a text. -/
def start : Position := ⟨1, 1⟩

/-- The position of what has no place in any source text. -/
def synthetic : Position := ⟨0, 0⟩

/-- Whether a position points into no source text: lines are counted from one. -/
def isSynthetic (p : Position) : Bool := p.line == 0

/-- The form `line:column`. -/
def text (p : Position) : String :=
  toString p.line ++ ":" ++ toString p.column

end Position

end Bir
