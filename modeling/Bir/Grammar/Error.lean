import Bir.Token.Basic
import Bir.Token.Error

/-!
# Syntax errors — tokens that are no program

A `SyntaxError` says why a text is no program, and where: either it has no tokens, or its tokens
are in no order that the grammar knows. Its wording is in `SyntaxError.Cause.message` and its code
in `SyntaxError.Cause.code`.
-/

namespace Bir
namespace SyntaxError

/-- What the grammar asked for. -/
inductive Expectation where
  | token (kind : Token.Kind)
  | statement
  | moduleName
  | change
  deriving DecidableEq, Repr, Inhabited

/-- The words for what the grammar asked for. -/
def Expectation.text : Expectation → String
  | .token kind => kind.describe
  | .statement => "statement"
  | .moduleName => "module name string"
  | .change => "`=`, `++`, `--`, `+=`, `-=`, `*=` or `/=`"

/-- Why a text is no program. -/
inductive Cause where
  | lexical (cause : LexicalError.Cause)
  | unexpectedToken (expected : Expectation) (found : Token.Kind)
  | expectedExpression (found : Token.Kind)
  | unclosedDelimiter (opening : Mark) (openedAt : Position)
  | expectedIdentifier (found : Token.Kind)
  | assignmentToExpression
  deriving DecidableEq, Repr, Inhabited

namespace Cause

/-- The text shown to a reader. -/
def message : Cause → String
  | .lexical cause => cause.message
  | .unexpectedToken expected found =>
    "expected " ++ expected.text ++ ", found " ++ found.describe
  | .expectedExpression found => "expected expression, found " ++ found.describe
  | .unclosedDelimiter opening openedAt =>
    "unclosed `" ++ opening.symbol ++ "` opened at " ++ openedAt.text
  | .expectedIdentifier found => "expected identifier, found " ++ found.describe
  | .assignmentToExpression =>
    "expected identifier, found an expression as assignment target"

/-- The code of a cause. -/
def code : Cause → Diagnostic.Code
  | .lexical cause => cause.code
  | .unexpectedToken _ _ => .unexpectedToken
  | .expectedExpression _ => .expectedExpression
  | .unclosedDelimiter _ _ => .unclosedDelimiter
  | .expectedIdentifier _ => .expectedIdentifier
  | .assignmentToExpression => .expectedIdentifier

end Cause

end SyntaxError

/-- Why a text is no program, and where. -/
structure SyntaxError where
  cause : SyntaxError.Cause
  position : Position
  deriving DecidableEq, Repr, Inhabited

namespace SyntaxError

/-- A lexical error, seen as a syntax error. -/
def ofLexical (error : LexicalError) : SyntaxError := ⟨.lexical error.cause, error.position⟩

/-- The error as a diagnostic. -/
def diagnostic (error : SyntaxError) : Diagnostic :=
  (Diagnostic.error error.cause.code error.cause.message).place error.position

end SyntaxError

end Bir
