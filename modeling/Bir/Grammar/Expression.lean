import Bir.Grammar.Parser

/-!
# Expressions — their grammar

Operators bind, from the loosest to the tightest:

* conditions, to the left;
* `+ -`, to the left;
* `* /`, to the left;
* `^ ' %`, to the right, and the postfix `log`, which nothing but a looser operator follows.

Their operands are calls, strings and primaries: integers, names, groups in braces and slot
operations. A verb of a call is a primary. `Grammar.expression` puts the levels together; its
bound counts how deep groups and arguments nest.
-/

namespace Bir
namespace Grammar

open Bir.Grammar.Parser

/-- An operation, which stands where its left operand does. -/
def arithmetic (op : ArithmeticOp) (left right : Expression) : Expression :=
  @Expression.arithmetic op left right left.position

/-- A condition, which stands where its left operand does. -/
def condition (op : ConditionOp) (left right : Expression) : Expression :=
  @Expression.condition op left right left.position

/-- A logarithm, which stands where its operand does. -/
def logarithm (operand : Expression) (keyword : Position) : Expression :=
  @Expression.logarithm operand keyword operand.position

/-- How two operands are joined by a sign, at a level where the sign stands between them. -/
abbrev Join := Token.Kind → Option (Expression → Expression → Expression)

/-- The level of conditions. -/
def conditionJoin : Join
  | .condition op => some (condition op)
  | _ => none

/-- The level of sums. -/
def sumJoin : Join
  | .arithmetic .addition => some (arithmetic .addition)
  | .arithmetic .subtraction => some (arithmetic .subtraction)
  | _ => none

/-- The level of products. -/
def productJoin : Join
  | .arithmetic .multiplication => some (arithmetic .multiplication)
  | .arithmetic .division => some (arithmetic .division)
  | _ => none

/-- The level of powers. -/
def powerJoin : Join
  | .arithmetic .exponent => some (arithmetic .exponent)
  | .arithmetic .root => some (arithmetic .root)
  | .arithmetic .modulus => some (arithmetic .modulus)
  | _ => none

/-! ## Levels -/

/-- The operands that follow `left`, joined to the left. -/
def chainRest (join : Join) (operand : Parser Expression) : Nat → Expression → Parser Expression
  | 0, _ => exhausted
  | bound + 1, left => do
    match join (← peek) with
    | some combine =>
      skip
      let right ← operand
      chainRest join operand bound (combine left right)
    | none => return left

/-- Operands joined to the left. -/
def chain (join : Join) (operand : Parser Expression) (bound : Nat) : Parser Expression := do
  let left ← operand
  chainRest join operand bound left

/-- Operands joined to the right by powers, or one operand and `log`. -/
def powers (operand : Parser Expression) : Nat → Parser Expression
  | 0 => exhausted
  | bound + 1 => do
    let base ← operand
    let kind ← peek
    if kind = .keyword .log then
      let position ← here
      skip
      return logarithm base position
    else
      match powerJoin kind with
      | some combine =>
        skip
        let right ← powers operand bound
        return combine base right
      | none => return base

/-! ## Operands -/

/-- Arguments in parentheses. -/
def callArguments (inner : Parser Expression) (bound : Nat) : Parser (List Expression) :=
  delimited .leftParen .rightParen inner bound

/-- An integer, a name, a group in braces or a slot operation. -/
def primary (inner : Parser Expression) (bound : Nat) : Parser Expression := do
  let position ← here
  match ← peek with
  | .integer value =>
    skip
    return .integer value position
  | .identifier name negative =>
    skip
    return .reference { name, negative, position }
  | .mark .leftBrace =>
    skip
    let grouped ← inner
    expectClosing .leftBrace .rightBrace position
    return grouped
  | .slot op =>
    skip
    let arguments ← callArguments inner bound
    return .slot op arguments position
  | found => reject (.expectedExpression found) position

/-- Whether a name and the token after it start a call. -/
def startsCall (kind following : Token.Kind) : Bool :=
  match kind, following with
  | .identifier _ _, .mark .colon => true
  | .identifier _ _, .mark .leftParen => true
  | _, _ => false

/-- The call of a block: its name, verbs and arguments. -/
def call (inner : Parser Expression) (bound : Nat) : Parser Expression := do
  let name ← identifier
  let verbs ← many (.mark .colon) (primary inner bound) bound
  let arguments ← callArguments inner bound
  return @Expression.call name verbs arguments name.position

/-- A call, a string or a primary. -/
def operand (inner : Parser Expression) (bound : Nat) : Parser Expression := do
  let kind ← peek
  if startsCall kind (← peekAt 1) then call inner bound
  else
    match kind with
    | .text text =>
      let position ← here
      skip
      return .string text position
    | _ => primary inner bound

/-! ## Expressions -/

/-- All levels over `inner`, which reads what stands in groups and arguments. -/
def expressionOver (inner : Parser Expression) (bound : Nat) : Parser Expression :=
  chain conditionJoin
    (chain sumJoin (chain productJoin (powers (operand inner bound) bound) bound) bound) bound

/-- An expression whose groups and arguments nest less deep than the bound. -/
def expression : Nat → Cursor → Reading Expression
  | 0, _ => .exhausted
  | bound + 1, cursor => expressionOver (fun cursor => expression bound cursor) bound cursor

end Grammar
end Bir
