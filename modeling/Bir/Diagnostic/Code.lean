/-!
# Diagnostic codes — one code for each kind of failure

A code is `E` and four digits; the first digit is the phase that failed: `0` reading tokens,
`1` reading the program, `6` running it, `9` the command line. This file defines:

* `Code` with its `Code.text`, and `Code.ofText?`;
* `Code.isSyntaxError` and `Code.isRuntimeError`, which ask for the phase.
-/

namespace Bir
namespace Diagnostic

/-- The phase in which a failure arises. -/
inductive Phase where
  | lexical
  | grammatical
  | runtime
  | command
  deriving DecidableEq, Repr, Inhabited

/-- What kind of failure a diagnostic reports. -/
inductive Code where
  | invalidCharacter
  | numberOutOfRange
  | malformedString
  | unexpectedToken
  | expectedExpression
  | unclosedDelimiter
  | expectedIdentifier
  | duplicateDeclaration
  | undefinedReference
  | undefinedBlock
  | argumentCount
  | constReassignment
  | immutableReassignment
  | callStackOverflow
  | controlFlowMisuse
  | uncaughtThrow
  | missingModule
  | missingInstance
  | missingSlot
  | arithmeticFault
  | notAnInteger
  | cyclicImport
  | moduleLoad
  | consoleFailure
  | usage
  | unreadableSource
  deriving DecidableEq, Repr, Inhabited

namespace Code

/-- All codes, in ascending order. -/
def all : List Code :=
  [.invalidCharacter, .numberOutOfRange, .malformedString,
    .unexpectedToken, .expectedExpression, .unclosedDelimiter, .expectedIdentifier,
    .duplicateDeclaration, .undefinedReference, .undefinedBlock, .argumentCount,
    .constReassignment, .immutableReassignment, .callStackOverflow, .controlFlowMisuse,
    .uncaughtThrow, .missingModule, .missingInstance, .missingSlot, .arithmeticFault,
    .notAnInteger, .cyclicImport, .moduleLoad, .consoleFailure,
    .usage, .unreadableSource]

/-- The written form of a code. -/
def text : Code → String
  | .invalidCharacter => "E0001"
  | .numberOutOfRange => "E0002"
  | .malformedString => "E0003"
  | .unexpectedToken => "E1001"
  | .expectedExpression => "E1002"
  | .unclosedDelimiter => "E1003"
  | .expectedIdentifier => "E1004"
  | .duplicateDeclaration => "E6001"
  | .undefinedReference => "E6002"
  | .undefinedBlock => "E6003"
  | .argumentCount => "E6004"
  | .constReassignment => "E6005"
  | .immutableReassignment => "E6006"
  | .callStackOverflow => "E6007"
  | .controlFlowMisuse => "E6008"
  | .uncaughtThrow => "E6009"
  | .missingModule => "E6010"
  | .missingInstance => "E6011"
  | .missingSlot => "E6012"
  | .arithmeticFault => "E6013"
  | .notAnInteger => "E6014"
  | .cyclicImport => "E6015"
  | .moduleLoad => "E6016"
  | .consoleFailure => "E6017"
  | .usage => "E9001"
  | .unreadableSource => "E9002"

/-- The code with the given written form. -/
def ofText? (text : String) : Option Code :=
  all.find? (fun code => code.text == text)

/-- The phase a code belongs to. -/
def phase : Code → Phase
  | .invalidCharacter | .numberOutOfRange | .malformedString => .lexical
  | .unexpectedToken | .expectedExpression | .unclosedDelimiter | .expectedIdentifier =>
    .grammatical
  | .usage | .unreadableSource => .command
  | _ => .runtime

/-- Whether the failure is one of the text: of its tokens or of their order. -/
def isSyntaxError (code : Code) : Bool :=
  code.phase == .lexical || code.phase == .grammatical

/-- Whether the failure is one of a running program. -/
def isRuntimeError (code : Code) : Bool := code.phase == .runtime

end Code

end Diagnostic
end Bir
