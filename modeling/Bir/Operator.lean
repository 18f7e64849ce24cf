/-!
# Operators — the signs of the language

The operators of expressions and of in-place changes, each with its spelling:

* `ArithmeticOp` — the binary arithmetic operators;
* `ConditionOp` — a comparison, or its negation spelled with a leading `!`;
* `QuantityOp` — `x++`, `x -= e` and the like;
* `SlotOp` — access to the numbered slots of a block's instance.

What the operators compute is in `Bir.Arithmetic`.
-/

namespace Bir

/-! ## Arithmetic -/

/-- A binary arithmetic operator. -/
inductive ArithmeticOp where
  | addition
  | subtraction
  | multiplication
  | division
  | exponent
  | root
  | modulus
  deriving DecidableEq, Repr, Inhabited

/-- The sign written between the operands. -/
def ArithmeticOp.symbol : ArithmeticOp → String
  | .addition => "+"
  | .subtraction => "-"
  | .multiplication => "*"
  | .division => "/"
  | .exponent => "^"
  | .root => "'"
  | .modulus => "%"

/-- The word of the postfix logarithm. -/
def logarithmSymbol : String := "log"

/-! ## Conditions -/

/-- A comparison or a connective of truth values. -/
inductive Comparison where
  | and
  | or
  | lessThan
  | greaterThan
  | lessThanEquals
  | greaterThanEquals
  | equals
  deriving DecidableEq, Repr, Inhabited

namespace Comparison

/-- All comparisons. -/
def all : List Comparison :=
  [.and, .or, .lessThan, .greaterThan, .lessThanEquals, .greaterThanEquals, .equals]

/-- The sign of a comparison. -/
def symbol : Comparison → String
  | .and => "&&"
  | .or => "||"
  | .lessThan => "<"
  | .greaterThan => ">"
  | .lessThanEquals => "<="
  | .greaterThanEquals => ">="
  | .equals => "=="

/-- The English name of a comparison. -/
def name : Comparison → String
  | .and => "And"
  | .or => "Or"
  | .lessThan => "LessThan"
  | .greaterThan => "GreaterThan"
  | .lessThanEquals => "LessThanEquals"
  | .greaterThanEquals => "GreaterThanEquals"
  | .equals => "Equals"

/-- The English name of the negation of a comparison. -/
def negatedName : Comparison → String
  | .and => "Nand"
  | .or => "Nor"
  | .lessThan => "NotLessThan"
  | .greaterThan => "NotGreaterThan"
  | .lessThanEquals => "NotLessThanEquals"
  | .greaterThanEquals => "NotGreaterThanEquals"
  | .equals => "NotEquals"

end Comparison

/-- A comparison, negated when its sign carries a leading `!`. -/
structure ConditionOp where
  negated : Bool
  comparison : Comparison
  deriving DecidableEq, Repr, Inhabited

namespace ConditionOp

/-- The sign of a condition. -/
def symbol (op : ConditionOp) : String :=
  if op.negated then "!" ++ op.comparison.symbol else op.comparison.symbol

/-- The English name of a condition. -/
def name (op : ConditionOp) : String :=
  if op.negated then op.comparison.negatedName else op.comparison.name

/-- All conditions, the plain ones first. -/
def all : List ConditionOp :=
  Comparison.all.map (ConditionOp.mk false) ++ Comparison.all.map (ConditionOp.mk true)

/-- The condition with the given sign. -/
def ofSymbol? (symbol : String) : Option ConditionOp :=
  all.find? (fun op => op.symbol == symbol)

end ConditionOp

/-! ## In-place changes -/

/-- A change of a quantity in place. -/
inductive QuantityOp where
  | increment
  | decrement
  | add
  | subtract
  | multiply
  | divide
  deriving DecidableEq, Repr, Inhabited

namespace QuantityOp

/-- All in-place changes. -/
def all : List QuantityOp := [.increment, .decrement, .add, .subtract, .multiply, .divide]

/-- The sign written after the target. -/
def symbol : QuantityOp → String
  | .increment => "++"
  | .decrement => "--"
  | .add => "+="
  | .subtract => "-="
  | .multiply => "*="
  | .divide => "/="

/-- The English name of a change. -/
def name : QuantityOp → String
  | .increment => "Increment"
  | .decrement => "Decrement"
  | .add => "Add"
  | .subtract => "Subtract"
  | .multiply => "Multiply"
  | .divide => "Divide"

/-- Whether an expression follows the sign; otherwise the change is by one. -/
def needsOperand : QuantityOp → Bool
  | .increment => false
  | .decrement => false
  | _ => true

/-- The change with the given sign. -/
def ofSymbol? (symbol : String) : Option QuantityOp :=
  all.find? (fun op => op.symbol == symbol)

end QuantityOp

/-! ## Slots -/

/-- Access to a numbered slot of a block's instance. -/
inductive SlotOp where
  | read
  | write
  | delete
  deriving DecidableEq, Repr, Inhabited

namespace SlotOp

/-- All slot operations. -/
def all : List SlotOp := [.read, .write, .delete]

/-- The word that calls the operation. -/
def keyword : SlotOp → String
  | .read => "$read"
  | .write => "$write"
  | .delete => "$delete"

/-- The English name of the operation. -/
def name : SlotOp → String
  | .read => "Read"
  | .write => "Write"
  | .delete => "Delete"

/-- The least number of arguments the operation takes. -/
def arity : SlotOp → Nat
  | .read => 1
  | .write => 2
  | .delete => 1

/-- The operation with the given keyword. -/
def ofKeyword? (keyword : String) : Option SlotOp :=
  all.find? (fun op => op.keyword == keyword)

end SlotOp

end Bir
