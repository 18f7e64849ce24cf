import Bir.Arithmetic
import Bir.Engine.Declaration

/-!
# Evaluation — expressions yield integers, frames run statements

A frame runs its statements in order until one of them ends it. Three kinds do: `return`, a branch
that is taken and an arm of a `switch` that matches. The turns of a loop have frames of their own,
so a `return` in a loop ends one turn. This file defines:

* `Evaluation.expression` and `Evaluation.statement` — one level of evaluation, given the levels
  below;
* `Evaluation.statements` — a sequence, up to the statement that ends it;
* `evaluate` and `execute` — all levels, with a bound on the nesting and on the turns of each loop.

A run that the bound cuts short is `exhausted`, which is neither a value nor a failure.
-/

namespace Bir
namespace Evaluation

/-! ## Expressions -/

/-- The value that a reference yields: a glued `-` asks for the magnitude. -/
def ofReference (name : Identifier) (value : Int64) : Int64 :=
  if name.negative then magnitude value else value

/-- The value of an expression. Operands are evaluated from left to right, those of a condition
too. -/
def expression (evaluate : Evaluator) (run : Runner) (self : EngineId) :
    Expression → Action Int64
  | @Expression.arithmetic op left right position => do
    let l ← evaluate self left
    let r ← evaluate self right
    Action.locate (fun _ => position) (.ofArithmetic (op.apply l r))
  | .condition op left right => do
    let l ← evaluate self left
    let r ← evaluate self right
    return op.apply l r
  | @Expression.logarithm operand _ position => do
    let value ← evaluate self operand
    Action.locate (fun _ => position) (.ofArithmetic (logarithm value))
  | @Expression.call name verbs arguments position =>
    Action.locate (fun _ => position) (Call.block evaluate run self name.name verbs arguments)
  | .slot op arguments keyword =>
    Action.locate (fun _ => keyword) (Call.slot evaluate self op arguments)
  | .integer value _ => pure value
  | .string _ position => Action.failAt (.notAnInteger .string) position
  | .reference name => fun state =>
    match state.graph.find? (state.currentScope self) name.name with
    | some value => .done (ofReference name value) state
    | none => Action.failAt (.undefinedReference name.name) name.position state

/-! ## Writing -/

/-- Why a write to a binding fails, if it does. -/
def refusal? (name : String) : UpdateOutcome → Option Failure.Cause
  | .granted => none
  | .deniedConst => some (.constReassignment name)
  | .deniedImmutable => some (.immutableReassignment name)
  | .unbound => some (.undefinedReference name)

/-- Write a value to a binding, as the current scope sees it. -/
def writeBack (self : EngineId) (target : Identifier) (value : Int64) : Action Unit := fun state =>
  let (state, outcome) := state.updateBinding (state.currentScope self) target.name value
  match refusal? target.name outcome with
  | none => .done () state
  | some cause => Action.failAt cause target.position state

/-- Assign to a name, which is looked for before the value is evaluated. -/
def assign (evaluate : Evaluator) (self : EngineId) (target : Identifier) (value : Expression) :
    Action Unit := fun state =>
  match state.graph.find? (state.currentScope self) target.name with
  | none => Action.failAt (.undefinedReference target.name) target.position state
  | some _ =>
    (do
      let value ← evaluate self value
      writeBack self target value : Action Unit) state

/-- Modify a quantity. Only a name is written; any other expression is evaluated and dropped. -/
def modify (evaluate : Evaluator) (self : EngineId) (op : QuantityOp) (target : Expression)
    (operand : Option Expression) : Action Unit := do
  let current ← evaluate self target
  let amount ←
    match operand with
    | none => pure 1
    | some operand => evaluate self operand
  let value ← Action.ofArithmetic (op.apply current amount)
  match target.reference? with
  | some name => writeBack self name value
  | none => pure ()

/-! ## Statements -/

/-- What a statement does to its frame. -/
inductive Flow where
  | next
  | ended (value : Int64)
  deriving DecidableEq, Repr, Inhabited

/-- Run a branch in a frame of its own; its value ends the frame around it. -/
def taken (run : Runner) (self : EngineId) (frame : FlowFrame) (body : List Statement) :
    Action Flow := do
  let value ← Action.inFlowFrame self frame (run self body)
  return .ended value

/-- Run the last branch, if there is one. -/
def otherwise (run : Runner) (self : EngineId) (frame : FlowFrame) :
    Option (List Statement) → Action Flow
  | none => pure .next
  | some body => taken run self frame body

/-- Run the first arm whose expression has a value that is asked for, or the last branch. -/
def firstArm (evaluate : Evaluator) (run : Runner) (self : EngineId) (asked : Int64 → Bool)
    (frame last : FlowFrame) (rest : Option (List Statement)) :
    List (Expression × List Statement) → Action Flow
  | [] => otherwise run self last rest
  | (value, body) :: arms => do
    let value ← evaluate self value
    if asked value then taken run self frame body
    else firstArm evaluate run self asked frame last rest arms

/-- Take turns while the condition is true, no more than `turns`. -/
def repeatWhile (evaluate : Evaluator) (run : Runner) (self : EngineId) (condition : Expression)
    (body : List Statement) : Nat → Action Unit
  | 0 => Action.exhausted
  | turns + 1 => do
    let value ← evaluate self condition
    if isTruthy value then
      let _ ← Action.inFlowFrame self .loopWhile (run self body)
      repeatWhile evaluate run self condition body turns
    else pure ()

/-- The scope of a turn: the placeholder stands for the number of the turn. -/
def turnScope (placeholder : String) (current : ScopeId) (index : Int64) : Scope where
  parents := [current]
  bindings := [{ name := placeholder, value := index, kind := .const }]

/-- Take one turn of a counted loop. -/
def turn (run : Runner) (self : EngineId) (placeholder : String) (body : List Statement)
    (index : Int64) : Action Unit := do
  let scope ← Action.update fun state =>
    state.addScope (turnScope placeholder (state.currentScope self) index)
  let _ ← Action.withScope self scope (Action.inFlowFrame self .loopFor (run self body))
  return ()

/-- Take as many turns as there are left, the first with the number `index`. -/
def repeatFor (run : Runner) (self : EngineId) (placeholder : String) (body : List Statement) :
    Nat → Int64 → Action Unit
  | 0, _ => pure ()
  | left + 1, index => do
    turn run self placeholder body index
    repeatFor run self placeholder body left (index + 1)

/-- Leave a frame early, which only a block allows. -/
def leave (evaluate : Evaluator) (self : EngineId) (exit : Exit) (value : Expression) :
    Action Flow := fun state =>
  if (state.callStack self).outsideBlocks then Action.fail (.controlFlowMisuse exit) state
  else
    (do
      let value ← evaluate self value
      match exit with
      | .return => return .ended value
      | .throw => Action.fail (.uncaughtThrow value) : Action Flow) state

/-- Go on after an action. -/
@[inline]
def thenNext {α : Type} (action : Action α) : Action Flow := do
  let _ ← action
  return .next

/-- Run one statement. A loop takes no more than `turns` turns while its condition is true. -/
def statement (evaluate : Evaluator) (run : Runner) (turns : Nat) (self : EngineId) :
    Statement → Action Flow
  | .declare kind name value _ => thenNext (Declaration.binding evaluate self kind name value)
  | .block name verbs arguments init program =>
    thenNext (Declaration.plain run self name verbs arguments init program)
  | .implementing name parent populate =>
    thenNext (Declaration.implementing evaluate run self name parent populate)
  | .assign target value => thenNext (assign evaluate self target value)
  | .modify op target operand => thenNext (modify evaluate self op target operand)
  | .exit exit value _ => leave evaluate self exit value
  | .branch condition body elifs rest _ => do
    let value ← evaluate self condition
    if isTruthy value then taken run self .branch body
    else firstArm evaluate run self isTruthy .elif .otherwise rest elifs
  | .repeatWhile condition body _ => thenNext (repeatWhile evaluate run self condition body turns)
  | .repeatFor count placeholder body _ => do
    let count ← evaluate self count
    thenNext (repeatFor run self placeholder.name body count.toInt.toNat 0)
  | .switch condition cases rest _ => do
    let value ← evaluate self condition
    firstArm evaluate run self (· == value) .case .default rest cases
  | .evaluate value => thenNext (evaluate self value)
  | .comment _ _ => pure .next

/-- Run statements in order, up to the one that ends the frame; a frame that runs off its end
yields `0`. -/
def statements (step : Statement → Action Flow) : List Statement → Action Int64
  | [] => pure 0
  | first :: rest => do
    match ← Action.locate (fun _ => first.position) (step first) with
    | .next => statements step rest
    | .ended value => return value

end Evaluation

/-! ## All levels -/

mutual

/-- The value of an expression in an engine, nested no deeper than `bound`. -/
def evaluate (bound : Nat) (self : EngineId) (expression : Expression) (state : State) :
    Outcome Int64 :=
  match bound with
  | 0 => .exhausted
  | bound + 1 => Evaluation.expression (evaluate bound) (execute bound) self expression state

/-- The value of a frame in an engine, nested no deeper than `bound`. -/
def execute (bound : Nat) (self : EngineId) (statements : List Statement) (state : State) :
    Outcome Int64 :=
  match bound with
  | 0 => .exhausted
  | bound + 1 =>
    Evaluation.statements
      (Evaluation.statement (evaluate bound) (execute bound) bound self) statements state

end

end Bir
