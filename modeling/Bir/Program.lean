import Bir.Operator
import Bir.Position

/-!
# Programs — what a source text says

This file defines the tree of a program:

* `Identifier` — a name as written;
* `Expression` — what yields an integer, and `Populate`, what seeds the slots of a block;
* `Statement` — what a program does in order;
* `Program` — imports, then statements.

Every node holds a position.  That of a compound node is given to it where the node is made, which
is the grammar's business, and is implicit, for little that is said of a node depends on it.
-/

namespace Bir

/-- A name as written. A glued `-` asks for the magnitude of what the name stands for. -/
structure Identifier where
  name : String
  negative : Bool := false
  position : Position
  deriving DecidableEq, Repr, Inhabited

/-- The forms that a literal takes. -/
inductive LiteralForm where
  | integer
  | string
  | array
  deriving DecidableEq, Repr, Inhabited

/-- The word for a form. -/
def LiteralForm.text : LiteralForm → String
  | .integer => "int"
  | .string => "string"
  | .array => "array"

/-! ## Expressions -/

/-- What is evaluated. Only integers are values; a string has a place in the tree and no value. -/
inductive Expression where
  | arithmetic (op : ArithmeticOp) (left right : Expression) {position : Position}
  | condition (op : ConditionOp) (left right : Expression) {position : Position}
  | logarithm (operand : Expression) (keyword : Position) {position : Position}
  | call (name : Identifier) (verbs arguments : List Expression) {position : Position}
  | slot (op : SlotOp) (arguments : List Expression) (keyword : Position)
  | integer (value : Int64) (position : Position)
  | string (text : String) (position : Position)
  | reference (name : Identifier)
  deriving Repr, Inhabited

namespace Expression

/-- The position of an expression, which is that of its name if it is one. -/
def position : Expression → Position
  | @arithmetic _ _ _ position => position
  | @condition _ _ _ position => position
  | @logarithm _ _ position => position
  | @call _ _ _ position => position
  | .slot _ _ keyword => keyword
  | .integer _ position => position
  | .string _ position => position
  | .reference name => name.position

/-- The name of an expression that is a name alone. -/
def reference? : Expression → Option Identifier
  | .reference name => some name
  | _ => none

end Expression

/-- What seeds the slots of a block: the characters of a string, or the values of a list. -/
inductive Populate where
  | string (text : String)
  | array (elements : List Expression)
  deriving Repr, Inhabited

/-- The form of what seeds the slots. -/
def Populate.form : Populate → LiteralForm
  | .string _ => .string
  | .array _ => .array

/-! ## Statements -/

/-- Whether a binding can be changed. -/
inductive BindingKind where
  | const
  | «let»
  deriving DecidableEq, Repr, Inhabited

/-- The word that declares a kind of binding. -/
def BindingKind.text : BindingKind → String
  | .const => "const"
  | .let => "let"

/-- The ways to leave a block early. -/
inductive Exit where
  | «return»
  | throw
  deriving DecidableEq, Repr, Inhabited

/-- The word that leaves a block. -/
def Exit.text : Exit → String
  | .return => "return"
  | .throw => "throw"

/-- One step of a program. -/
inductive Statement where
  | declare (kind : BindingKind) (name : Identifier) (value : Expression) (keyword : Position)
  | block (name : Identifier) (verbs arguments : List Identifier)
      (init : Option (List Statement)) (program : List Statement) {position : Position}
  | implementing (name parent : Identifier) (populate : Option Populate) {position : Position}
  | assign (target : Identifier) (value : Expression) {position : Position}
  | modify (op : QuantityOp) (target : Expression) (operand : Option Expression)
      {position : Position}
  | exit (exit : Exit) (value : Expression) (keyword : Position)
  | branch (condition : Expression) (body : List Statement)
      (elifs : List (Expression × List Statement)) (otherwise : Option (List Statement))
      (keyword : Position)
  | repeatWhile (condition : Expression) (body : List Statement) (keyword : Position)
  | repeatFor (count : Expression) (placeholder : Identifier) (body : List Statement)
      (keyword : Position)
  | switch (condition : Expression) (cases : List (Expression × List Statement))
      (otherwise : Option (List Statement)) (keyword : Position)
  | evaluate (value : Expression) {position : Position}
  | comment (text : String) (position : Position)
  deriving Repr, Inhabited

namespace Statement

/-- The position of a statement, which is that of its word if it starts with one. -/
def position : Statement → Position
  | .declare _ _ _ keyword => keyword
  | @block _ _ _ _ _ position => position
  | @implementing _ _ _ position => position
  | @assign _ _ position => position
  | @modify _ _ _ position => position
  | .exit _ _ keyword => keyword
  | .branch _ _ _ _ keyword => keyword
  | .repeatWhile _ _ keyword => keyword
  | .repeatFor _ _ _ keyword => keyword
  | .switch _ _ _ keyword => keyword
  | @evaluate _ position => position
  | .comment _ position => position

/-- Whether a statement is a comment. -/
def isComment : Statement → Bool
  | .comment _ _ => true
  | _ => false

end Statement

/-! ## Programs -/

/-- A request for the bindings and blocks of a module. -/
structure Import where
  module : String
  position : Position
  deriving DecidableEq, Repr, Inhabited

/-- Imports, and the statements to run once they are loaded. -/
structure Program where
  imports : List Import := []
  statements : List Statement := []
  deriving Repr, Inhabited

end Bir
