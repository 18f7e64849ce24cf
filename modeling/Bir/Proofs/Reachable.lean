import Bir.Proofs.Discipline.Invariant

/-!
# Reachable states — the states that runs come to

A state is reachable if a sequence of steps comes to it: at the end of a step, which may be a
failure, or in the midst of one, where an engine is about to evaluate something.  This file
defines:

* `Script.Meets` — a step comes to a point;
* `State.Reachable`.

`State.Reachable.of_invariant` shows what holds of all reachable states.
-/

namespace Bir

/-! ## Points of a run -/

open Classical in
/-- The watch that stops a run at one point. -/
noncomputable def Watch.point (self : EngineId) (code : Code) (state : State) : Watch :=
  fun self' code' state' => decide (self' = self ∧ code' = code ∧ state' = state)

/-- A step of a script comes to a point: an engine is about to evaluate code in a state. -/
def Script.Meets (bound : Nat) (step : Step) (start : State) (self : EngineId) (code : Code)
    (state : State) : Prop :=
  (performUnder (Watch.point self code state) bound step start).isStopped = true

/-- A run that is stopped fails by that. -/
theorem Outcome.Ends.of_isStopped {α : Type} {good : α → State → Prop}
    {bad : Failure → State → Prop} {outcome : Outcome α} (h : outcome.Ends good bad)
    (stopped : outcome.isStopped = true) :
    ∃ failure state, bad failure state ∧ failure.cause = Watch.stopCause := by
  cases outcome with
  | failed failure state => exact ⟨failure, state, h, by simpa [isStopped] using stopped⟩
  | done value state => simp [isStopped] at stopped
  | exhausted => simp [isStopped] at stopped

/-- The state that an outcome leaves, if it was not cut short. -/
def Outcome.state? {α : Type} : Outcome α → Option State
  | .done _ state => some state
  | .failed _ state => some state
  | .exhausted => none

/-- The failure that an outcome is, if it is one. -/
def Outcome.failure? {α : Type} : Outcome α → Option Failure
  | .failed failure _ => some failure
  | _ => none

/-- The value or the failure that an outcome is, whatever state it leaves. -/
def Outcome.result? {α : Type} : Outcome α → Option (Except Failure α)
  | .done value _ => some (.ok value)
  | .failed failure _ => some (.error failure)
  | .exhausted => none

theorem Outcome.eq_failed_of_failure? {α : Type} {outcome : Outcome α} {failure : Failure}
    (h : outcome.failure? = some failure) : ∃ state, outcome = .failed failure state := by
  cases outcome with
  | failed failure' state =>
      cases h
      exact ⟨state, rfl⟩
  | done value state => cases h
  | exhausted => cases h

theorem Outcome.leaves_of_state? {α : Type} {outcome : Outcome α} {holds : State → Prop}
    {state : State} (h : outcome.Leaves holds) (hstate : outcome.state? = some state) :
    holds state := by
  cases outcome with
  | done value state' =>
      cases hstate
      exact h
  | failed failure state' =>
      cases hstate
      exact h
  | exhausted => cases hstate

/-- The states that runs come to. -/
inductive State.Reachable : State → Prop where
  | initial (config : Config) (files : FileTree) (source : Source) (path : Path)
      (content : String) : Reachable (State.initial config files source path content)
  /-- A step ends, in a value or in a failure. -/
  | performed {state state' : State} {bound : Nat} {step : Script.Step} (start : Reachable state)
      (ends : (Script.perform bound step state).state? = some state') : Reachable state'
  /-- A step comes to a point and has not ended yet. -/
  | met {state state' : State} {bound : Nat} {step : Script.Step} {self : EngineId} {code : Code}
      (start : Reachable state) (meets : Script.Meets bound step state self code state') :
      Reachable state'

/-! ## All reachable states -/

/-- An invariant of whole runs holds of every reachable state, at rest.  All code is sound there. -/
theorem State.Reachable.of_invariant {holds : Moment → Prop}
    (start : ∀ config files source path content,
      holds ⟨[], Script.main, State.initial config files source path content⟩)
    (move : ∀ {moment moment'}, holds moment → moment.state.Sound →
      Move (fun _ statement => statement.Sound) moment moment' → holds moment')
    (loadMove : ∀ {moment moment'}, holds moment → moment.state.Sound → LoadMove moment moment' →
      holds moment')
    (rest : ∀ {pending self state}, holds ⟨pending, self, state⟩ →
      holds ⟨[], Script.main, state⟩)
    {state : State} (h : state.Reachable) :
    holds ⟨[], Script.main, state⟩ ∧ state.Sound := by
  induction h with
  | initial config files source path content =>
      exact ⟨start config files source path content,
        State.initial_sound config files source path content⟩
  | @performed state state' bound step begun ends ih =>
      let D := LoadDiscipline.ofInvariant Watch.silent holds False
        (by simp [Watch.silent]) move loadMove
      have hstep := D.performs bound step state ih
      rw [Script.performUnder_silent] at hstep
      exact Outcome.leaves_of_state? (hstep.mono (fun _ _ h' => h') fun _ _ h' => h'.1) ends
  | @met state state' bound step self code begun meets ih =>
      have hfinds : ∀ {pending self' state''}, holds ⟨pending, self', state''⟩ → state''.Sound →
          ∀ code', code'.Fits FrameSound pending →
            Watch.point self code state' self' code' state'' = true →
              holds ⟨[], Script.main, state'⟩ ∧ state'.Sound := by
        intro pending self' state'' hholds hsound code' _ hpoint
        have hstate : state'' = state' := by
          simp only [Watch.point, decide_eq_true_eq] at hpoint
          exact hpoint.2.2
        exact hstate ▸ ⟨rest hholds, hsound⟩
      let D := LoadDiscipline.ofInvariant (Watch.point self code state') holds
        (holds ⟨[], Script.main, state'⟩ ∧ state'.Sound) hfinds move loadMove
      have hstep := D.performs bound step state ih
      obtain ⟨failure, after, ⟨-, hreported⟩, hstopped⟩ := hstep.of_isStopped meets
      exact hreported hstopped

/-- In every reachable state, the modules that engines use are engines of the run. -/
theorem State.Reachable.manned {state : State} (h : state.Reachable) :
    Moment.Manned ⟨[], Script.main, state⟩ := by
  refine (of_invariant State.initial_manned (fun hmanned _ => hmanned.move)
    (fun hmanned _ => hmanned.loadMove) ?_ h).1
  intro pending self state hmanned
  have hmain : Script.main < state.engines.size := Nat.lt_of_le_of_lt (Nat.zero_le _) hmanned.self
  exact ⟨hmanned.uses, hmain, fun bracket hmem => by cases hmem⟩

/-- In every reachable state, all code is sound. -/
theorem State.Reachable.sound {state : State} (h : state.Reachable) : state.Sound := by
  have hany : True ∧ state.Sound := of_invariant (fun _ _ _ _ _ => trivial)
    (fun _ _ _ => trivial) (fun _ _ _ => trivial) (fun _ => trivial) h
  exact hany.2

/-- A run that no watch looks at is not stopped. -/
theorem State.Sound.isStopped_perform {state : State} (h : state.Sound) (bound : Nat)
    (step : Script.Step) : (Script.perform bound step state).isStopped = false := by
  let D := LoadDiscipline.ofInvariant Watch.silent (fun _ => True) False
    (by simp [Watch.silent]) (fun _ _ _ => trivial) (fun _ _ _ => trivial)
  have hstep := D.performs bound step state ⟨trivial, h⟩
  rw [Script.performUnder_silent] at hstep
  exact Outcome.isStopped_eq_false (hstep.mono (fun _ _ h' => h') fun _ _ h' => h'.2)

end Bir
