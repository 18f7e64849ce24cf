import Bir.Arithmetic
import Bir.Grammar.Error
import Bir.Diagnostic.Terminal
import Bir.Program

/-!
# Failures — why a run stops

A `Failure` is what ends a run that does not succeed: its cause, where it happened, and a report by
the engine that runs the source in question. Nothing in the language catches one. This file
defines:

* `Failure.Cause` with its wording `Failure.Cause.message` and its code `Failure.Cause.code`;
* `Failure.place` and `Failure.attach` — the first position and the first report stay;
* `Failure.diagnostic` and `Failure.render` — a failure as a reader sees it.
-/

namespace Bir
namespace Failure

/-! ## Causes -/

/-- Why a run stopped. -/
inductive Cause where
  | malformed (cause : SyntaxError.Cause)
  | duplicateDeclaration (name : String)
  | undefinedReference (name : String)
  | undefinedBlock (name : String)
  | argumentCount (block : String) (mismatches : List String)
  | constReassignment (name : String)
  | immutableReassignment (name : String)
  | callStackOverflow (limit : Nat)
  | controlFlowMisuse (exit : Exit)
  | uncaughtThrow (value : Int64)
  | missingModule (name : String) (directory : Path)
  | missingInstance (op : SlotOp)
  | missingSlot (block slot : String)
  | arithmetic (fault : ArithmeticFault)
  | notAnInteger (found : LiteralForm)
  | cyclicImport (name : String) (chain : List String)
  | moduleLoad (name reason : String)
  | console (reason : String)
  deriving DecidableEq, Repr, Inhabited

namespace Cause

/-- The text shown to a reader. -/
def message : Cause → String
  | .malformed cause => cause.message
  | .duplicateDeclaration name => "`" ++ name ++ "` is already declared in this scope"
  | .undefinedReference name => "undefined reference `" ++ name ++ "`"
  | .undefinedBlock name => "undefined block `" ++ name ++ "`"
  | .argumentCount block mismatches =>
    "wrong number of arguments for `" ++ block ++ "`: " ++ ", ".intercalate mismatches
  | .constReassignment name => "cannot reassign const `" ++ name ++ "`"
  | .immutableReassignment name =>
    "cannot reassign `" ++ name ++ "` through an immutable scope"
  | .callStackOverflow limit =>
    "maximum call stack size of " ++ toString limit ++ " exceeded"
  | .controlFlowMisuse exit => "`" ++ exit.text ++ "` is not allowed in the main program"
  | .uncaughtThrow value => "uncaught throw of " ++ toString value.toInt
  | .missingModule name directory =>
    "module `" ++ name ++ "` not found in `" ++ directory ++ "`"
  | .missingInstance op => "`" ++ op.keyword ++ "` found no enclosing block instance"
  | .missingSlot block slot => "`" ++ block ++ "` has no slot `" ++ slot ++ "`"
  | .arithmetic fault => fault.message
  | .notAnInteger found => "expected an integer, found a " ++ found.text
  | .cyclicImport name chain =>
    "cyclic import of `" ++ name ++ "` (" ++ " -> ".intercalate chain ++ ")"
  | .moduleLoad name reason => "failed to load module `" ++ name ++ "`: " ++ reason
  | .console reason => "native interface I/O failed: " ++ reason

/-- The code of a cause. -/
def code : Cause → Diagnostic.Code
  | .malformed cause => cause.code
  | .duplicateDeclaration _ => .duplicateDeclaration
  | .undefinedReference _ => .undefinedReference
  | .undefinedBlock _ => .undefinedBlock
  | .argumentCount _ _ => .argumentCount
  | .constReassignment _ => .constReassignment
  | .immutableReassignment _ => .immutableReassignment
  | .callStackOverflow _ => .callStackOverflow
  | .controlFlowMisuse _ => .controlFlowMisuse
  | .uncaughtThrow _ => .uncaughtThrow
  | .missingModule _ _ => .missingModule
  | .missingInstance _ => .missingInstance
  | .missingSlot _ _ => .missingSlot
  | .arithmetic _ => .arithmeticFault
  | .notAnInteger _ => .notAnInteger
  | .cyclicImport _ _ => .cyclicImport
  | .moduleLoad _ _ => .moduleLoad
  | .console _ => .consoleFailure

/-- Advice that goes with a cause. -/
def notes : Cause → List String
  | .callStackOverflow _ => ["check for a block that calls itself without a base case"]
  | .immutableReassignment _ => ["bindings of an imported module are read-only"]
  | _ => []

end Cause

/-- What the engine that runs a source says about a failure in it. `callStack` lists the names of
the frames, outermost first. -/
structure Report where
  fileName : String
  path : Path
  callStack : List String
  content : String
  deriving DecidableEq, Repr, Inhabited

end Failure

/-! ## Failures -/

/-- Why a run stopped, and where. -/
structure Failure where
  cause : Failure.Cause
  position : Option Position := none
  report : Option Failure.Report := none
  deriving DecidableEq, Repr, Inhabited

namespace Failure

/-- A failure with neither position nor report. -/
def ofCause (cause : Cause) : Failure := { cause }

/-- Place a failure. The first position stays, and a synthetic one is none. -/
def place (failure : Failure) (position : Position) : Failure :=
  if failure.position.isNone ∧ ¬ position.isSynthetic then
    { failure with position := some position }
  else failure

/-- Attach a report. The first report stays, and no other is made. -/
def attach (failure : Failure) (report : Unit → Report) : Failure :=
  if failure.report.isNone then { failure with report := some (report ()) } else failure

/-- A syntax error, seen as a failure. -/
def ofSyntaxError (error : SyntaxError) : Failure :=
  (ofCause (.malformed error.cause)).place error.position

/-- The failure as a diagnostic. -/
def diagnostic (failure : Failure) : Diagnostic :=
  let placed :=
    match failure.position with
    | some position =>
      (Diagnostic.error failure.cause.code failure.cause.message).place position
    | none => Diagnostic.error failure.cause.code failure.cause.message
  let callStack :=
    match failure.report with
    | some report => report.callStack
    | none => []
  { placed with callStack, notes := failure.cause.notes }

/-- A failure as text, shown against the file it happened in. `path` and `source` stand in when no
report says which file that is. -/
def render (failure : Failure) (colors : Bool) (path : Path) (source : String) : String :=
  let terminal : Terminal :=
    match failure.report with
    | some report => { colors, source := some report.content, file := some report.path }
    | none => { colors, source := some source, file := some path }
  terminal.render failure.diagnostic

end Failure

end Bir
