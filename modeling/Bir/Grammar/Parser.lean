import Bir.Grammar.Error
import Bir.Program

/-!
# Parsers — reading from a list of tokens

A `Parser` takes tokens from the front of a `Cursor`. Its `Reading` is a value and what is left, a
syntax error, or `exhausted`: the bound on its depth was too small. This file defines:

* `Cursor` — the tokens left, and where they end; past the end stands the end of the file;
* the steps `peek`, `skip`, `eat?`, `expect`, `expectClosing` and `identifier`;
* the loops `many` and `separated`, and the enclosure `delimited`.

A loop takes one from its bound each time round.
-/

namespace Bir
namespace Grammar

/-! ## Cursors -/

/-- The tokens left before the end of the file, and the position of that end. -/
structure Cursor where
  tokens : List Token
  stop : Position
  deriving DecidableEq, Repr, Inhabited

namespace Cursor

/-- The tokens of a list up to its first end of the file. A list without one ends at its last
token. -/
def ofTokens (tokens : List Token) : Cursor where
  tokens := tokens.takeWhile (fun token => token.kind ≠ .endOfFile)
  stop :=
    match tokens.find? (fun token => token.kind = .endOfFile), tokens.getLast? with
    | some ending, _ => ending.position
    | none, some last => last.position
    | none, none => Position.start

/-- The kind of the token `ahead` places after the next one. -/
def kindAt (cursor : Cursor) (ahead : Nat) : Token.Kind :=
  match cursor.tokens[ahead]? with
  | some token => token.kind
  | none => .endOfFile

/-- The kind of the next token. -/
def kind (cursor : Cursor) : Token.Kind :=
  match cursor.tokens with
  | token :: _ => token.kind
  | [] => .endOfFile

/-- The position of the next token. -/
def position (cursor : Cursor) : Position :=
  match cursor.tokens with
  | token :: _ => token.position
  | [] => cursor.stop

/-- The cursor after the next token. -/
def next (cursor : Cursor) : Cursor := { cursor with tokens := cursor.tokens.tail }

end Cursor

/-! ## Readings -/

/-- What a parser makes of a cursor. -/
inductive Reading (α : Type) where
  | accepted (value : α) (rest : Cursor)
  | rejected (error : SyntaxError)
  | exhausted

/-- A way to read a value from a cursor. -/
def Parser (α : Type) : Type := Cursor → Reading α

namespace Parser

/-- Read nothing and yield a value. -/
@[always_inline, inline]
protected def pure {α : Type} (value : α) : Parser α := fun cursor => .accepted value cursor

/-- Read a value and go on with it. -/
@[always_inline, inline]
protected def bind {α β : Type} (first : Parser α) (next : α → Parser β) : Parser β := fun cursor =>
  match first cursor with
  | .accepted value rest => next value rest
  | .rejected error => .rejected error
  | .exhausted => .exhausted

@[always_inline]
instance : Monad Parser where
  pure := Parser.pure
  bind := Parser.bind

/-- Give up: the bound on the depth was too small. -/
@[inline]
def exhausted {α : Type} : Parser α := fun _ => .exhausted

/-- Reject what stands at a position. -/
@[inline]
def reject {α : Type} (cause : SyntaxError.Cause) (position : Position) : Parser α :=
  fun _ => .rejected ⟨cause, position⟩

/-- The kind of the next token. -/
@[inline]
def peek : Parser Token.Kind := fun cursor => .accepted cursor.kind cursor

/-- The kind of the token `ahead` places after the next one. -/
@[inline]
def peekAt (ahead : Nat) : Parser Token.Kind := fun cursor =>
  .accepted (cursor.kindAt ahead) cursor

/-- The position of the next token. -/
@[inline]
def here : Parser Position := fun cursor => .accepted cursor.position cursor

/-- Take the next token, whatever it is. -/
@[inline]
def skip : Parser Unit := fun cursor => .accepted () cursor.next

/-- Take the next token if it is of the given kind. -/
def eat? (kind : Token.Kind) : Parser Bool := fun cursor =>
  if cursor.kind = kind then .accepted true cursor.next else .accepted false cursor

/-- Take the next token, which has to be of the given kind, and yield its position. -/
def expect (kind : Token.Kind) : Parser Position := fun cursor =>
  if cursor.kind = kind then .accepted cursor.position cursor.next
  else .rejected ⟨.unexpectedToken (.token kind) cursor.kind, cursor.position⟩

/-- Take the mark that closes what `opening` opened. The end of the file in its place is reported
against the opening mark. -/
def expectClosing (opening closing : Mark) (openedAt : Position) : Parser Unit := fun cursor =>
  if cursor.kind = .endOfFile then
    .rejected ⟨.unclosedDelimiter opening openedAt, cursor.position⟩
  else if cursor.kind = .mark closing then .accepted () cursor.next
  else .rejected ⟨.unexpectedToken (.token (.mark closing)) cursor.kind, cursor.position⟩

/-- A name, with a glued `-` or without. -/
def identifier : Parser Identifier := fun cursor =>
  match cursor.kind with
  | .identifier name negative =>
    .accepted { name, negative, position := cursor.position } cursor.next
  | found => .rejected ⟨.expectedIdentifier found, cursor.position⟩

/-! ## Loops -/

/-- As many items as have the sign `start` before them. -/
def many {α : Type} (start : Token.Kind) (item : Parser α) : Nat → Parser (List α)
  | 0 => exhausted
  | bound + 1 => do
    if ← eat? start then
      let first ← item
      let rest ← many start item bound
      return first :: rest
    else return []

/-- Items between commas, none if the closing mark comes first. -/
def separated {α : Type} (closing : Mark) (item : Parser α) (bound : Nat) : Parser (List α) := do
  if (← peek) = .mark closing then return []
  else
    let first ← item
    let rest ← many (.mark .comma) item bound
    return first :: rest

/-- An opening mark, items between commas, and the closing mark. -/
def delimited {α : Type} (opening closing : Mark) (item : Parser α) (bound : Nat) :
    Parser (List α) := do
  let openedAt ← expect (.mark opening)
  let items ← separated closing item bound
  expectClosing opening closing openedAt
  return items

end Parser

end Grammar
end Bir
