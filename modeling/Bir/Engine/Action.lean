import Bir.Engine.State

/-!
# Actions — steps of a run

An `Action` takes a state to an `Outcome`: a value or a failure, each with the state it leaves, or
`exhausted`, when the bound on the number of steps was too small. This file defines the actions
that evaluation is put together from:

* `locate` and `reporting` — a failure learns where it happened, and in which source;
* `withScope` — an action with another current scope;
* `framed` — an action with a frame of its own on the call stack;
* `lending` — an action in another engine, on the stacks of the caller.

The last three undo what they did on every way out.
-/

namespace Bir

/-- What an action comes to. -/
inductive Outcome (α : Type) where
  | done (value : α) (state : State)
  | failed (failure : Failure) (state : State)
  | exhausted

/-- A step of a run. -/
def Action (α : Type) : Type := State → Outcome α

namespace Action

variable {α β : Type}

/-! ## Sequence -/

/-- Change nothing and yield a value. -/
@[always_inline, inline]
protected def pure (value : α) : Action α := fun state => .done value state

/-- Run an action and go on with its value. -/
@[always_inline, inline]
protected def bind (first : Action α) (next : α → Action β) : Action β := fun state =>
  match first state with
  | .done value state => next value state
  | .failed failure state => .failed failure state
  | .exhausted => .exhausted

@[always_inline]
instance : Monad Action where
  pure := Action.pure
  bind := Action.bind

/-- Give up: the bound on the number of steps was too small. -/
@[inline]
def exhausted : Action α := fun _ => .exhausted

/-- Stop the run. -/
@[inline]
def fail (cause : Failure.Cause) : Action α := fun state => .failed (.ofCause cause) state

/-- Stop the run at a position. -/
@[inline]
def failAt (cause : Failure.Cause) (position : Position) : Action α := fun state =>
  .failed ((Failure.ofCause cause).place position) state

/-- Yield something of the state. -/
@[inline]
def look (view : State → α) : Action α := fun state => .done (view state) state

/-- Change the state. -/
@[inline]
def change (change : State → State) : Action Unit := fun state => .done () (change state)

/-- Change the state and yield something. -/
@[inline]
def update (change : State → State × α) : Action α := fun state =>
  let (state, value) := change state
  .done value state

/-- Yield a value that may be missing for an arithmetic reason. -/
@[inline]
def ofArithmetic (result : Except ArithmeticFault α) : Action α := fun state =>
  match result with
  | .ok value => .done value state
  | .error fault => .failed (.ofCause (.arithmetic fault)) state

/-- Yield a value or stop with a failure. -/
@[inline]
def ofExcept (result : Except Failure α) : Action α := fun state =>
  match result with
  | .ok value => .done value state
  | .error failure => .failed failure state

/-! ## Failures on their way out -/

/-- A failure of the action happened at a position, unless it has one. -/
@[inline]
def locate (position : Unit → Position) (action : Action α) : Action α := fun state =>
  match action state with
  | .done value state => .done value state
  | .failed failure state => .failed (failure.place (position ())) state
  | .exhausted => .exhausted

/-- A failure of the action gets the report of an engine, unless it has one. -/
@[inline]
def reporting (self : EngineId) (action : Action α) : Action α := fun state =>
  match action state with
  | .done value state => .done value state
  | .failed failure state => .failed (failure.attach (fun _ => state.report self)) state
  | .exhausted => .exhausted

/-! ## Scopes and frames -/

/-- Run an action with another current scope. -/
@[inline]
def withScope (self : EngineId) (scope : ScopeId) (action : Action α) : Action α := fun state =>
  match action (state.pushScope self scope) with
  | .done value state => .done value (state.popScope self)
  | .failed failure state => .failed failure (state.popScope self)
  | .exhausted => .exhausted

/-- Run an action and take a frame off the call stack after it. -/
@[inline]
def thenPop (self : EngineId) (action : Action α) : Action α := fun state =>
  match action state with
  | .done value state => .done value (state.modifyCallStack self CallStack.pop)
  | .failed failure state => .failed failure (state.modifyCallStack self CallStack.pop)
  | .exhausted => .exhausted

/-- Run an action with a frame for a branch, a loop or the main program. -/
@[inline]
def inFlowFrame (self : EngineId) (frame : FlowFrame) (action : Action α) : Action α := fun state =>
  thenPop self (reporting self action)
    (state.modifyCallStack self (fun stack => stack.push frame.name))

/-- Run an action with a frame for a call, if there is room for one. -/
@[inline]
def inCallFrame (self : EngineId) (name : String) (action : Action α) : Action α := fun state =>
  match (state.callStack self).exceeded? with
  | some limit => .failed (.ofCause (.callStackOverflow limit)) state
  | none => thenPop self action (state.modifyCallStack self (fun stack => stack.push name))

/-! ## Bridging -/

/-- What the owner of a block puts aside while it borrows the stacks of a caller. -/
structure Loan where
  callStack : CallStack
  scopes : Nat
  top : ScopeId
  wasForeign : Bool

namespace Loan

/-- Put the stacks of `caller` on top of those of `owner`, whose blocks count as its own. -/
def take (caller owner : EngineId) (state : State) : Loan × State :=
  let lender := state.engine caller
  let state := state.setCallStack caller {}
  let borrower := state.engine owner
  let top := borrower.currentScope
  let loan : Loan :=
    { callStack := borrower.callStack, scopes := borrower.scopeStack.size, top,
      wasForeign := (state.graph.get top).foreign }
  let state := state.modifyScope top (fun scope => { scope with foreign := false })
  (loan, state.modifyEngine owner (fun engine =>
    { engine with callStack := lender.callStack, scopeStack := engine.scopeStack ++ lender.scopeStack }))

/-- Give the call stack back and restore what was put aside. -/
def giveBack (loan : Loan) (caller owner : EngineId) (state : State) : State :=
  let lent := (state.engine owner).callStack
  let state := state.modifyEngine owner (fun engine =>
    { engine with callStack := loan.callStack, scopeStack := engine.scopeStack.take loan.scopes })
  let state := state.modifyScope loan.top (fun scope => { scope with foreign := loan.wasForeign })
  state.setCallStack caller lent

end Loan

/-- Run an action of the engine `owner` on the stacks of `caller`. -/
def lending (caller owner : EngineId) (action : Action α) : Action α := fun state =>
  let (loan, state) := Loan.take caller owner state
  match reporting owner action state with
  | .done value state => .done value (loan.giveBack caller owner state)
  | .failed failure state => .failed failure (loan.giveBack caller owner state)
  | .exhausted => .exhausted

end Action

end Bir
