import Bir.Grammar.Statement
import Bir.Token.Scan

/-!
# Programs — their grammar

A program is imports, then statements; comments may stand before and between the imports. This
file defines `Program.ofTokens` and `Program.ofSource`, which read a whole program.

Every nesting and every turn of a loop takes a token, so a bound a little above the number of
tokens is never exhausted. `Grammar.outcome` gives an exhausted reading an error all the same.
-/

namespace Bir
namespace Grammar

open Bir.Grammar.Parser

/-- The request for a module. -/
def importRequest : Parser Import := do
  let position ← expect (.keyword .use)
  let named ← here
  match ← peek with
  | .text name =>
    skip
    return ⟨name, position⟩
  | found => reject (.unexpectedToken .moduleName found) named

/-- The rest of a program. In its header, imports may follow. -/
def programRest (inner : Parser Statement) : Nat → Bool → Parser Program
  | 0, _ => exhausted
  | bound + 1, inHeader => do
    let kind ← peek
    if kind = .endOfFile then return {}
    else if inHeader ∧ kind = .keyword .use then
      let request ← importRequest
      let rest ← programRest inner bound inHeader
      return { rest with imports := request :: rest.imports }
    else
      let first ← inner
      let rest ← programRest inner bound (inHeader && first.isComment)
      return { rest with statements := first :: rest.statements }

/-- A program whose loops and nestings stay below the bound. -/
def program (bound : Nat) : Parser Program :=
  programRest (fun cursor => statement bound cursor) bound true

/-- A bound that no program of the given number of tokens exhausts. -/
def sufficientBound (tokens : Nat) : Nat := tokens + 4

/-- The value of a reading, or its error. -/
def outcome {α : Type} (cursor : Cursor) : Reading α → Except SyntaxError α
  | .accepted value _ => .ok value
  | .rejected error => .error error
  | .exhausted => .error ⟨.expectedExpression cursor.kind, cursor.position⟩

end Grammar

namespace Program

/-- The program that a list of tokens is. -/
def ofTokens (tokens : List Token) : Except SyntaxError Program :=
  let cursor := Grammar.Cursor.ofTokens tokens
  Grammar.outcome cursor
    (Grammar.program (Grammar.sufficientBound cursor.tokens.length) cursor)

/-- The program that a source text is. -/
def ofSource (source : String) : Except SyntaxError Program :=
  match Token.scan source with
  | .ok tokens => ofTokens tokens
  | .error error => .error (SyntaxError.ofLexical error)

end Program
end Bir
