import Bir.Diagnostic.Basic
import Bir.Diagnostic.Snippet
import Bir.Path

/-!
# Terminal — diagnostics as text for a terminal

A `Terminal` holds what surrounds a diagnostic when it is shown: the source text, the path of the
file, and whether colours are wanted. This file defines:

* `Terminal.render` — header, snippet, call stack, file and notes, in this order;
* `ColorMode.usesColors` — whether a terminal of a given kind gets colours.
-/

namespace Bir

/-! ## Colours -/

/-- When colours are used. -/
inductive ColorMode where
  | auto
  | always
  | never
  deriving DecidableEq, Repr, Inhabited

/-- Whether colours are used; only `auto` asks what is written to. -/
def ColorMode.usesColors (mode : ColorMode) (isTerminal : Bool) : Bool :=
  match mode with
  | .auto => isTerminal
  | .always => true
  | .never => false

/-- A way to set text off. -/
inductive Style where
  | error
  | note
  | bold
  | caret
  deriving DecidableEq, Repr, Inhabited

/-- The control sequence that starts a style. -/
def Style.sequence : Style → String
  | .error => "\x1b[1;31m"
  | .note => "\x1b[1;36m"
  | .bold => "\x1b[1m"
  | .caret => "\x1b[1;34m"

/-- The control sequence that ends every style. -/
def Style.reset : String := "\x1b[0m"

/-- The style of a severity. -/
def Severity.style : Severity → Style
  | .error => .error
  | .note => .note

/-! ## Rendering -/

/-- What surrounds a diagnostic when it is shown. -/
structure Terminal where
  colors : Bool := false
  source : Option String := none
  file : Option Path := none
  deriving DecidableEq, Repr, Inhabited

namespace Terminal

/-- Text in a style, or plain where no colours are used. -/
def styled (terminal : Terminal) (style : Style) (text : String) : String :=
  if terminal.colors then style.sequence ++ text ++ Style.reset else text

/-- Severity, code, message, and when known the name of the file and the position. -/
def header (terminal : Terminal) (diagnostic : Diagnostic) : String :=
  let place :=
    match diagnostic.position, terminal.file with
    | some position, some file => " at " ++ Path.displayName file ++ " " ++ position.text
    | some position, none => " at " ++ position.text
    | none, _ => ""
  terminal.styled diagnostic.severity.style diagnostic.severity.text
    ++ terminal.styled .bold ("[" ++ diagnostic.code.text ++ "]")
    ++ ": " ++ diagnostic.message ++ place ++ "\n"

/-- The source line of the diagnostic and a caret, where both are known. -/
def excerpt (terminal : Terminal) (diagnostic : Diagnostic) : String :=
  match diagnostic.position, terminal.source with
  | some position, some source =>
    match Diagnostic.sourceLine? source position.line with
    | some line => line ++ "\n" ++ terminal.styled .caret (Diagnostic.caret position.column) ++ "\n"
    | none => ""
  | _, _ => ""

/-- The frames of the call stack, outermost first. -/
def trace (diagnostic : Diagnostic) : String :=
  if diagnostic.callStack.isEmpty then ""
  else
    "Callstack:\n" ++ String.join (diagnostic.callStack.map fun frame => "\t-> " ++ frame ++ " ()\n")

/-- The path of the file. -/
def trailer (terminal : Terminal) : String :=
  match terminal.file with
  | some file => "File:\n\t" ++ file ++ "\n"
  | none => ""

/-- The notes, one a line. -/
def notes (terminal : Terminal) (diagnostic : Diagnostic) : String :=
  String.join (diagnostic.notes.map fun note =>
    "  = " ++ terminal.styled .note "note" ++ ": " ++ note ++ "\n")

/-- A diagnostic as text. -/
def render (terminal : Terminal) (diagnostic : Diagnostic) : String :=
  terminal.header diagnostic ++ terminal.excerpt diagnostic ++ trace diagnostic
    ++ terminal.trailer ++ terminal.notes diagnostic

/-- Several diagnostics as text, in order. -/
def renderAll (terminal : Terminal) (diagnostics : List Diagnostic) : String :=
  String.join (diagnostics.map terminal.render)

end Terminal

end Bir
