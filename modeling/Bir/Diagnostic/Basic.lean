import Bir.Diagnostic.Code
import Bir.Position

/-!
# Diagnostics — a failure described for a reader

A `Diagnostic` holds what a reader is shown about a failure: its code, a message, where it
happened, the call stack at that moment and notes. This file defines the type, the builders
`Diagnostic.error` and `Diagnostic.place`, and the one-line form `Diagnostic.text`.
-/

namespace Bir

/-- How grave a diagnostic is. -/
inductive Severity where
  | error
  | note
  deriving DecidableEq, Repr, Inhabited

/-- The word for a severity. -/
def Severity.text : Severity → String
  | .error => "error"
  | .note => "note"

/-- A described failure. `callStack` lists the names of the frames, outermost first. -/
structure Diagnostic where
  code : Diagnostic.Code
  severity : Severity := .error
  message : String := ""
  position : Option Position := none
  callStack : List String := []
  notes : List String := []
  deriving DecidableEq, Repr, Inhabited

namespace Diagnostic

/-- An error with the given code and message. -/
def error (code : Code) (message : String) : Diagnostic := { code, message }

/-- Place a diagnostic. A synthetic position leaves it where it is. -/
def place (diagnostic : Diagnostic) (position : Position) : Diagnostic :=
  if position.isSynthetic then diagnostic else { diagnostic with position := some position }

/-- Whether a diagnostic is an error, not a note. -/
def isError (diagnostic : Diagnostic) : Bool := diagnostic.severity == .error

/-- The one-line form: severity, code, message and, when known, the position. -/
def text (diagnostic : Diagnostic) : String :=
  let header :=
    diagnostic.severity.text ++ "[" ++ diagnostic.code.text ++ "]: " ++ diagnostic.message
  match diagnostic.position with
  | some position => header ++ " at " ++ position.text
  | none => header

end Diagnostic

end Bir
