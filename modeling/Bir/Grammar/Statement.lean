import Bir.Grammar.Expression

/-!
# Statements — their grammar

Statements follow one another with no sign between them: one ends where the next token cannot
continue it. `Grammar.statement` reads one; its bound counts how deep bodies nest. The parsers it
is made of take `inner`, which reads the statements of a body.

A name starts the declaration of a block when verbs and a bracket follow it, or the word
`implements`; any other expression has to be assigned to, changed in place, or be a call or slot
operation.
-/

namespace Bir
namespace Grammar

open Bir.Grammar.Parser

/-! ## Bodies -/

/-- Statements up to a closing brace or the end of the file. -/
def statementsUntilClose (inner : Parser Statement) : Nat → Parser (List Statement)
  | 0 => exhausted
  | bound + 1 => do
    let kind ← peek
    if kind = .mark .rightBrace ∨ kind = .endOfFile then return []
    else
      let first ← inner
      let rest ← statementsUntilClose inner bound
      return first :: rest

/-- The rest of a body whose brace was opened at `openedAt`. -/
def bodyRest (inner : Parser Statement) (bound : Nat) (openedAt : Position) :
    Parser (List Statement) := do
  let statements ← statementsUntilClose inner bound
  expectClosing .leftBrace .rightBrace openedAt
  return statements

/-- Statements in braces. -/
def body (inner : Parser Statement) (bound : Nat) : Parser (List Statement) := do
  let openedAt ← expect (.mark .leftBrace)
  bodyRest inner bound openedAt

/-- A body, if the given word stands before it. -/
def bodyAfter? (word : Keyword) (inner : Parser Statement) (bound : Nat) :
    Parser (Option (List Statement)) := do
  if ← eat? (.keyword word) then
    let statements ← body inner bound
    return some statements
  else return none

/-- An expression and a body. -/
def arm (inner : Parser Statement) (bound : Nat) : Parser (Expression × List Statement) := do
  let test ← expression bound
  let statements ← body inner bound
  return (test, statements)

/-! ## Statements with a keyword -/

/-- The declaration of a binding. -/
def declaration (kind : BindingKind) (bound : Nat) : Parser Statement := do
  let keyword ← here
  skip
  let name ← identifier
  let _ ← expect (.mark .equals)
  let value ← expression bound
  return .declare kind name value keyword

/-- A way out of a block. -/
def exit (way : Exit) (bound : Nat) : Parser Statement := do
  let keyword ← here
  skip
  let value ← expression bound
  return .exit way value keyword

/-- A branch with its alternatives. -/
def branch (inner : Parser Statement) (bound : Nat) : Parser Statement := do
  let keyword ← expect (.keyword .if)
  let (condition, statements) ← arm inner bound
  let elifs ← many (.keyword .elif) (arm inner bound) bound
  let otherwise ← bodyAfter? .else inner bound
  return .branch condition statements elifs otherwise keyword

/-- A loop under a condition. -/
def repeatWhile (inner : Parser Statement) (bound : Nat) : Parser Statement := do
  let keyword ← expect (.keyword .while)
  let (condition, statements) ← arm inner bound
  return .repeatWhile condition statements keyword

/-- A loop over a count. -/
def repeatFor (inner : Parser Statement) (bound : Nat) : Parser Statement := do
  let keyword ← expect (.keyword .for)
  let count ← expression bound
  let _ ← expect (.keyword .as)
  let placeholder ← identifier
  let statements ← body inner bound
  return .repeatFor count placeholder statements keyword

/-- A choice among values. -/
def switch (inner : Parser Statement) (bound : Nat) : Parser Statement := do
  let keyword ← expect (.keyword .switch)
  let condition ← expression bound
  let openedAt ← expect (.mark .leftBrace)
  let cases ← many (.keyword .case) (arm inner bound) bound
  let otherwise ← bodyAfter? .default inner bound
  expectClosing .leftBrace .rightBrace openedAt
  return .switch condition cases otherwise keyword

/-! ## Blocks -/

/-- Whether the tokens after a name, verbs first, go on to a bracket. -/
def verbsThenBracket : List Token → Bool
  | ⟨.mark .colon, _⟩ :: ⟨.identifier _ _, _⟩ :: rest => verbsThenBracket rest
  | ⟨.mark .leftBracket, _⟩ :: _ => true
  | _ => false

/-- Whether a cursor stands at the declaration of a block. -/
def startsBlock (cursor : Cursor) : Bool :=
  match cursor.tokens with
  | ⟨.identifier _ _, _⟩ :: ⟨.keyword .implements, _⟩ :: _ => true
  | ⟨.identifier _ _, _⟩ :: rest => verbsThenBracket rest
  | _ => false

/-- Whether the next tokens declare a block. -/
def standsAtBlock : Parser Bool := fun cursor => .accepted (startsBlock cursor) cursor

/-- Whether the contents of braces seed slots: they start with a string or a bracket. -/
def startsPopulate (kind following : Token.Kind) : Bool :=
  match kind, following with
  | .mark .leftBrace, .text _ => true
  | .mark .leftBrace, .mark .leftBracket => true
  | _, _ => false

/-- A string, or values in brackets. -/
def populateSource (bound : Nat) : Parser Populate := do
  match ← peek with
  | .text text =>
    skip
    return .string text
  | _ =>
    let elements ← delimited .leftBracket .rightBracket (expression bound) bound
    return .array elements

/-- What seeds the slots of an implementing block, if anything does. -/
def populate? (bound : Nat) : Parser (Option Populate) := do
  let kind ← peek
  if startsPopulate kind (← peekAt 1) then
    let openedAt ← expect (.mark .leftBrace)
    let source ← populateSource bound
    expectClosing .leftBrace .rightBrace openedAt
    return some source
  else return none

/-- The rest of a block that implements another. -/
def implementing (name : Identifier) (bound : Nat) : Parser Statement := do
  let parent ← identifier
  let populate ← populate? bound
  return @Statement.implementing name parent populate name.position

/-- The rest of a block with a body of its own. -/
def plainBlock (inner : Parser Statement) (name : Identifier) (bound : Nat) : Parser Statement := do
  let verbs ← many (.mark .colon) identifier bound
  let arguments ← delimited .leftBracket .rightBracket identifier bound
  let openedAt ← expect (.mark .leftBrace)
  let init ← bodyAfter? .init inner bound
  let program ← bodyRest inner bound openedAt
  return @Statement.block name verbs arguments init program name.position

/-- The declaration of a block. -/
def block (inner : Parser Statement) (bound : Nat) : Parser Statement := do
  let name ← identifier
  if ← eat? (.keyword .implements) then implementing name bound
  else plainBlock inner name bound

/-! ## Statements that start with an expression -/

/-- Whether an expression may stand for a statement: it is a call or a slot operation. -/
def isEffect : Expression → Bool
  | .call _ _ _ => true
  | .slot _ _ _ => true
  | _ => false

/-- The rest of an assignment to `target`. -/
def assignment (target : Expression) (bound : Nat) : Parser Statement :=
  match target with
  | .reference name => do
    let value ← expression bound
    return @Statement.assign name value target.position
  | _ => reject .assignmentToExpression target.position

/-- The rest of a change of `target` in place. -/
def change (op : QuantityOp) (target : Expression) (bound : Nat) : Parser Statement := do
  if op.needsOperand then
    let operand ← expression bound
    return @Statement.modify op target (some operand) target.position
  else return @Statement.modify op target none target.position

/-- An assignment, a change in place, a call or a slot operation. -/
def expressionStatement (bound : Nat) : Parser Statement := do
  let target ← expression bound
  match ← peek with
  | .mark .equals =>
    skip
    assignment target bound
  | .quantity op =>
    skip
    change op target bound
  | found =>
    if isEffect target then return @Statement.evaluate target target.position
    else
      let position ← here
      reject (.unexpectedToken .change found) position

/-! ## Statements -/

/-- A statement over `inner`, which reads the statements of its bodies. -/
def statementOver (inner : Parser Statement) (bound : Nat) : Parser Statement := do
  let position ← here
  match ← peek with
  | .keyword .const => declaration .const bound
  | .keyword .let => declaration .let bound
  | .keyword .if => branch inner bound
  | .keyword .while => repeatWhile inner bound
  | .keyword .for => repeatFor inner bound
  | .keyword .switch => switch inner bound
  | .keyword .return => exit .return bound
  | .keyword .throw => exit .throw bound
  | .comment text =>
    skip
    return .comment text position
  | .identifier _ _ =>
    if ← standsAtBlock then block inner bound else expressionStatement bound
  | .slot _ => expressionStatement bound
  | .mark .leftBrace => expressionStatement bound
  | .integer _ => expressionStatement bound
  | .text _ => expressionStatement bound
  | found => reject (.unexpectedToken .statement found) position

/-- A statement whose bodies nest less deep than the bound. -/
def statement : Nat → Cursor → Reading Statement
  | 0, _ => .exhausted
  | bound + 1, cursor => statementOver (fun cursor => statement bound cursor) bound cursor

end Grammar
end Bir
