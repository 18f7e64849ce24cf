import Bir.Diagnostic.Basic

/-!
# Lexical errors — text that is no token

A `LexicalError` says why no token could be read, and where. Its wording is in
`LexicalError.Cause.message` and its code in `LexicalError.Cause.code`.
-/

namespace Bir
namespace LexicalError

/-- Why no token could be read. -/
inductive Cause where
  | invalidCharacter (character : Char)
  | numberOverflow (literal : String)
  | unterminatedString
  | invalidEscape (character : Char)
  deriving DecidableEq, Repr, Inhabited

namespace Cause

/-- The text shown to a reader. -/
def message : Cause → String
  | .invalidCharacter c => "invalid character `" ++ c.toString ++ "`"
  | .numberOverflow literal => "number literal `" ++ literal ++ "` is out of range"
  | .unterminatedString => "unterminated string literal"
  | .invalidEscape c => "invalid escape `\\" ++ c.toString ++ "` in string literal"

/-- The code of a cause. -/
def code : Cause → Diagnostic.Code
  | .invalidCharacter _ => .invalidCharacter
  | .numberOverflow _ => .numberOutOfRange
  | .unterminatedString => .malformedString
  | .invalidEscape _ => .malformedString

end Cause

end LexicalError

/-- Why no token could be read, and where the attempt began. -/
structure LexicalError where
  cause : LexicalError.Cause
  position : Position
  deriving DecidableEq, Repr, Inhabited

namespace LexicalError

/-- The error as a diagnostic. -/
def diagnostic (error : LexicalError) : Diagnostic :=
  (Diagnostic.error error.cause.code error.cause.message).place error.position

end LexicalError

end Bir
