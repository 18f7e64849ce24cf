import Bir.Proofs.Modules
import Bir.Proofs.Regimen.Basic

/-!
# Frames — the call stack of the engine in control

A loan hands the call stack of the caller to the owner, which hands it back, so that one call stack
goes with control wherever that goes.  This file defines:

* `CallStack.calls` — how many frames are those of blocks and `init` sections;
* `CallStack.Turn` — what one move may do to the call stack of the engine in control.

`Move.turn` is what these are for: an invariant of this call stack has to be shown for three ways to
change it.
-/

namespace Bir

namespace CallStack

/-- The number of frames of blocks and of `init` sections. -/
def calls (stack : CallStack) : Nat := stack.frames.toList.countP fun name => !isFlowName name

@[simp]
theorem limit_push (stack : CallStack) (name : String) : (stack.push name).limit = stack.limit := rfl

@[simp]
theorem limit_pop (stack : CallStack) : stack.pop.limit = stack.limit := rfl

@[simp]
theorem depth_push (stack : CallStack) (name : String) :
    (stack.push name).depth = stack.depth + 1 := by
  simp [push, depth]

@[simp]
theorem depth_pop (stack : CallStack) : stack.pop.depth = stack.depth - 1 := by
  simp [pop, depth]

@[simp]
theorem outermostFirst_push (stack : CallStack) (name : String) :
    (stack.push name).outermostFirst = stack.outermostFirst ++ [name] := by
  simp [push, outermostFirst]

@[simp]
theorem outermostFirst_pop (stack : CallStack) :
    stack.pop.outermostFirst = stack.outermostFirst.dropLast := by
  simp [pop, outermostFirst]

theorem length_outermostFirst (stack : CallStack) : stack.outermostFirst.length = stack.depth := by
  simp [outermostFirst, depth]

/-- There is room for a call below the limit only. -/
theorem depth_lt_of_room {stack : CallStack} {limit : Nat} (h : stack.limit = some limit)
    (room : stack.exceeded? = none) : stack.depth < limit := by
  simpa [exceeded?, h] using room

theorem exceeded_of_le {stack : CallStack} {limit : Nat} (h : stack.limit = some limit)
    (full : limit ≤ stack.depth) : stack.exceeded? = some limit := by
  simp [exceeded?, h, full]

/-! ## Calls among frames -/

theorem calls_le_depth (stack : CallStack) : stack.calls ≤ stack.depth := by
  simpa [calls, depth] using List.countP_le_length (l := stack.frames.toList)

theorem isFlowName_name (frame : FlowFrame) : isFlowName frame.name = true := by
  cases frame <;> decide

/-- The frame of a branch, a loop or the main program is no call. -/
@[simp]
theorem calls_push_flow (stack : CallStack) (frame : FlowFrame) :
    (stack.push frame.name).calls = stack.calls := by
  simp [calls, push, isFlowName_name]

theorem calls_push_le (stack : CallStack) (name : String) :
    (stack.push name).calls ≤ stack.calls + 1 := by
  simp only [calls, push, Array.toList_push, List.countP_append]
  exact Nat.add_le_add_left List.countP_le_length _

theorem calls_pop_le (stack : CallStack) : stack.pop.calls ≤ stack.calls := by
  simp only [calls, pop, Array.toList_pop]
  exact (List.dropLast_sublist _).countP_le

/-! ## One move -/

/-- What one move may do to the call stack of the engine in control, with the number of open frames
before and after it. -/
inductive Turn : Nat → Nat → CallStack → CallStack → Prop where
  | same {open' : Nat} {stack : CallStack} : Turn open' open' stack stack
  | flow {open' : Nat} {stack : CallStack} (frame : FlowFrame) :
      Turn open' (open' + 1) stack (stack.push frame.name)
  | call {open' : Nat} {stack : CallStack} (name : String) (room : stack.exceeded? = none) :
      Turn open' (open' + 1) stack (stack.push name)
  | leave {open' : Nat} {stack : CallStack} : Turn (open' + 1) open' stack stack.pop

theorem Turn.of_eq {open' : Nat} {stack stack' : CallStack} (h : stack' = stack) :
    Turn open' open' stack stack' :=
  h ▸ .same

end CallStack

open CallStack

/-- A move pushes a frame onto the call stack of the engine in control, pops one or leaves it as it
is, also where control passes to another engine. -/
theorem Move.turn {allowed : EngineId → Statement → Prop} {moment moment' : Moment}
    (move : Move allowed moment moment') (manned : moment.Manned) :
    Turn (frames moment.pending) (frames moment'.pending) (moment.state.callStack moment.self)
      (moment'.state.callStack moment'.self) := by
  have hself := manned.self
  cases move with
  | @enterFlow pending self state frame =>
      rw [State.callStack_modifyCallStack _ _ hself]
      exact .flow frame
  | @enterFrame pending self state name room =>
      rw [State.callStack_modifyCallStack _ _ hself]
      exact .call name room
  | @leaveFrame pending self state =>
      rw [State.callStack_modifyCallStack _ _ hself]
      exact .leave
  | @lend pending self state found owner owned lent =>
      subst owned
      have htake := Action.Loan.engine_take_owner (State.owner_ne_of_isLent lent)
        (manned.uses.lt_of_isLent lent)
      exact .of_eq (by rw [State.callStack, htake]; rfl)
  | @giveBack pending owner state terms caller =>
      have hcaller : caller < state.engines.size :=
        manned.waiting (.loan terms caller) List.mem_cons_self caller rfl
      refine .of_eq ?_
      unfold Action.Loan.giveBack
      rw [State.setCallStack, State.callStack, State.engine_modifyEngine_self]
      · rfl
      · simpa using hcaller
  | enterStore => exact .of_eq (by simp)
  | enterCall => exact .of_eq (by simp; rfl)
  | enterTurn => exact .of_eq (by simp; rfl)
  | leaveScope => exact .of_eq (by simp)
  | _ => exact .same

end Bir
