import Bir.Engine.Slot

/-!
# Calls — blocks at work

A call finds its block, asks whether verbs and arguments suffice, evaluates the verbs and then the
arguments, and runs the block. This file defines:

* `Evaluator` and `Runner` — what a call needs of evaluation;
* `Call.mismatches` — what is missing for a call;
* `Call.invoke` — a block runs in an engine, in a scope of its own whose parents are the block's
  store and the scope of the caller;
* `Call.route` — a block of a module runs in the engine that owns it;
* `Call.block` and `Call.slot` — whole calls and slot operations.
-/

namespace Bir

/-- How an engine evaluates an expression. -/
abbrev Evaluator := EngineId → Expression → Action Int64

/-- How an engine runs the statements of a frame. -/
abbrev Runner := EngineId → List Statement → Action Int64

/-- The values of expressions, from left to right. -/
def Evaluator.all (evaluate : Evaluator) (self : EngineId) :
    List Expression → Action (List Int64)
  | [] => pure []
  | expression :: rest => do
    let value ← evaluate self expression
    let values ← Evaluator.all evaluate self rest
    return value :: values

namespace Call

/-! ## What a call brings -/

/-- A number and a noun, in the plural unless it is one. -/
def counted (count : Nat) (noun : String) : String :=
  toString count ++ " " ++ noun ++ (if count = 1 then "" else "s")

/-- What is missing for a call with the given numbers of verbs and arguments. A call may bring more
than a block asks for, and the console asks for nothing. -/
def mismatches (block : Block) (verbs arguments : Nat) : List String :=
  let shortage (asked brought : Nat) (noun : String) : List String :=
    if brought < asked then
      ["expected " ++ counted asked noun ++ ", found " ++ toString brought]
    else []
  if block.isNative then []
  else
    shortage block.verbs.length verbs "verb" ++ shortage block.arguments.length arguments "argument"

/-- The bindings of a call: each parameter with its value. -/
def parameters (block : Block) (verbs arguments : List Int64) : List Binding :=
  (block.verbs.zip verbs ++ block.arguments.zip arguments).map fun (name, value) =>
    { name, value, kind := .let }

/-- The scope of a call. -/
def scope (block : Block) (caller : ScopeId) (verbs arguments : List Int64) : Scope where
  parents := block.store.toList ++ [caller]
  bindings := parameters block verbs arguments

/-! ## Running a block -/

/-- One operation of the console. -/
def console (verbs arguments : List Int64) : Action Int64 := fun state =>
  let (state, result) := state.callConsole verbs arguments
  match result with
  | .ok value => .done value state
  | .error failure => .failed failure state

/-- Run a block in an engine. The frame is named as the call names the block. -/
def invoke (run : Runner) (self : EngineId) (ref : BlockRef) (called : String)
    (verbs arguments : List Int64) : Action Int64 := fun state =>
  let block := state.graph.block ref
  match block.body with
  | .native => Action.inCallFrame self called (console verbs arguments) state
  | .interpreted _ program =>
    let (state, scope) := state.addScope (scope block (state.currentScope self) verbs arguments)
    Action.withScope self scope
      (Action.inCallFrame self called (Action.reporting self (run self program))) state

/-- Whether a block runs in the engine that owns it: it was found in the scope of a module, and
that module is loaded below the caller. -/
def isLent (state : State) (self : EngineId) (found : FoundBlock) : Bool :=
  let owner := (state.graph.block found.block).owner
  found.foreign && owner != self && state.config.routing == .bridged
    && state.isLoadedBelow self owner

/-- Run a block, in the engine that owns it where that is called for. -/
def route (run : Runner) (self : EngineId) (found : FoundBlock) (called : String)
    (verbs arguments : List Int64) : Action Int64 := fun state =>
  if isLent state self found then
    let owner := (state.graph.block found.block).owner
    Action.lending self owner (invoke run owner found.block called verbs arguments) state
  else invoke run self found.block called verbs arguments state

/-! ## Whole calls -/

/-- Call a block. -/
def block (evaluate : Evaluator) (run : Runner) (self : EngineId) (name : String)
    (verbs arguments : List Expression) : Action Int64 := fun state =>
  match state.graph.findBlock? (state.currentScope self) name with
  | none => .failed (.ofCause (.undefinedBlock name)) state
  | some found =>
    match mismatches (state.graph.block found.block) verbs.length arguments.length with
    | [] =>
      (do
        let verbs ← evaluate.all self verbs
        let arguments ← evaluate.all self arguments
        route run self found name verbs arguments : Action Int64) state
    | missing => .failed (.ofCause (.argumentCount name missing)) state

/-- What is missing for a slot operation. -/
def slotMismatch (op : SlotOp) (arguments : Nat) : String :=
  "expected at least " ++ counted op.arity "argument" ++ ", found " ++ toString arguments

/-- Run a slot operation; what it is given beyond its arguments is evaluated and dropped. -/
def slot (evaluate : Evaluator) (self : EngineId) (op : SlotOp) (arguments : List Expression) :
    Action Int64 :=
  if arguments.length < op.arity then
    Action.fail (.argumentCount op.keyword [slotMismatch op arguments.length])
  else do
    let values ← evaluate.all self arguments
    Slot.access self op (values.headD 0) (values.tail.headD 0)

end Call
end Bir
