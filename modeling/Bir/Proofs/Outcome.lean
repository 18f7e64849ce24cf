import Bir.Engine.Action

/-!
# Outcomes — what holds where an action ends

An action ends in a value or in a failure, each with the state it leaves, or it is cut short by its
bound.  This file defines:

* `Outcome.Within cut good bad` — `good` holds of a value and `bad` of a failure, with their states,
  and `cut` holds if the action is cut short;
* `Outcome.Ends good bad` — the same, where nothing is asked of an action that is cut short;
* one rule for each way that actions are put together.
-/

namespace Bir

namespace Outcome

variable {α : Type}

/-- `good` holds of the value or `bad` of the failure, with the state that is left, and `cut` holds
if there is neither. -/
def Within (cut : Prop) (good : α → State → Prop) (bad : Failure → State → Prop) : Outcome α → Prop
  | .done value state => good value state
  | .failed failure state => bad failure state
  | .exhausted => cut

/-- `good` holds of the value or `bad` of the failure, with the state that is left. -/
def Ends (good : α → State → Prop) (bad : Failure → State → Prop) : Outcome α → Prop
  | .done value state => good value state
  | .failed failure state => bad failure state
  | .exhausted => True

/-- The state that an outcome leaves has a property, whatever the outcome is. -/
abbrev Leaves (holds : State → Prop) (outcome : Outcome α) : Prop :=
  outcome.Ends (fun _ state => holds state) (fun _ state => holds state)

section Rules

variable {cut : Prop} {good good' : α → State → Prop} {bad bad' : Failure → State → Prop}

@[simp]
theorem within_done {value : α} {state : State} :
    (Outcome.done value state).Within cut good bad ↔ good value state := Iff.rfl

@[simp]
theorem within_failed {failure : Failure} {state : State} :
    (Outcome.failed failure state : Outcome α).Within cut good bad ↔ bad failure state := Iff.rfl

@[simp]
theorem within_exhausted : (Outcome.exhausted : Outcome α).Within cut good bad ↔ cut := Iff.rfl

theorem Within.mono {outcome : Outcome α} (h : outcome.Within cut good bad)
    (values : ∀ value state, good value state → good' value state)
    (failures : ∀ failure state, bad failure state → bad' failure state) :
    outcome.Within cut good' bad' := by
  cases outcome with
  | done value state => exact values value state h
  | failed failure state => exact failures failure state h
  | exhausted => exact h

/-- What holds where an action ends is known together with what the action comes to. -/
theorem Within.keep {outcome : Outcome α} (h : outcome.Within cut good bad) :
    outcome.Within cut (fun value state => good value state ∧ outcome = .done value state)
      (fun failure state => bad failure state ∧ outcome = .failed failure state) := by
  cases outcome with
  | done value state => exact ⟨h, rfl⟩
  | failed failure state => exact ⟨h, rfl⟩
  | exhausted => exact h

theorem within_true {outcome : Outcome α} :
    outcome.Within True good bad ↔ outcome.Ends good bad := by
  cases outcome <;> exact Iff.rfl

theorem Within.ends {outcome : Outcome α} (h : outcome.Within cut good bad) :
    outcome.Ends good bad := by
  cases outcome with
  | done value state => exact h
  | failed failure state => exact h
  | exhausted => exact trivial

@[simp]
theorem ends_done {value : α} {state : State} :
    (Outcome.done value state).Ends good bad ↔ good value state := Iff.rfl

@[simp]
theorem ends_failed {failure : Failure} {state : State} :
    (Outcome.failed failure state : Outcome α).Ends good bad ↔ bad failure state := Iff.rfl

@[simp]
theorem ends_exhausted : (Outcome.exhausted : Outcome α).Ends good bad := trivial

theorem Ends.mono {outcome : Outcome α} (h : outcome.Ends good bad)
    (values : ∀ value state, good value state → good' value state)
    (failures : ∀ failure state, bad failure state → bad' failure state) :
    outcome.Ends good' bad' := by
  cases outcome with
  | done value state => exact values value state h
  | failed failure state => exact failures failure state h
  | exhausted => exact trivial

theorem Ends.and {outcome : Outcome α} (h : outcome.Ends good bad)
    (h' : outcome.Ends good' bad') :
    outcome.Ends (fun value state => good value state ∧ good' value state)
      (fun failure state => bad failure state ∧ bad' failure state) := by
  cases outcome with
  | done value state => exact ⟨h, h'⟩
  | failed failure state => exact ⟨h, h'⟩
  | exhausted => exact trivial

theorem Within.and_ends {outcome : Outcome α} (h : outcome.Within cut good bad)
    (h' : outcome.Ends good' bad') :
    outcome.Within cut (fun value state => good value state ∧ good' value state)
      (fun failure state => bad failure state ∧ bad' failure state) := by
  cases outcome with
  | done value state => exact ⟨h, h'⟩
  | failed failure state => exact ⟨h, h'⟩
  | exhausted => exact h

end Rules

end Outcome

namespace Action

open Outcome

variable {α β : Type} {cut : Prop} {good : α → State → Prop} {bad : Failure → State → Prop}

/-! ## Sequence -/

theorem bind_apply (first : Action α) (next : α → Action β) (state : State) :
    (first >>= next) state =
      match first state with
      | .done value state => next value state
      | .failed failure state => .failed failure state
      | .exhausted => .exhausted := rfl

theorem bind_assoc {γ : Type} (first : Action α) (next : α → Action β) (last : β → Action γ) :
    (first >>= next) >>= last = first >>= fun value => next value >>= last := by
  funext state
  simp only [bind_apply]
  generalize first state = outcome
  cases outcome with
  | done value after => rfl
  | failed failure after => rfl
  | exhausted => rfl

/-- What goes on with an action is only asked where the action leaves off. -/
theorem bind_congr {first : Action α} {next next' : α → Action β} {state : State}
    (same : (first state).Ends (fun value after => next value after = next' value after)
      fun _ _ => True) : (first >>= next) state = (first >>= next') state := by
  simp only [bind_apply]
  generalize first state = outcome at same
  cases outcome with
  | done value after => exact same
  | failed failure after => rfl
  | exhausted => rfl

theorem bind_eq_done {first : Action α} {next : α → Action β} {state after : State} {value : β} :
    (first >>= next) state = .done value after ↔
      ∃ value' between, first state = .done value' between ∧
        next value' between = .done value after := by
  rw [bind_apply]
  generalize first state = outcome
  cases outcome with
  | done value' between =>
      constructor
      · exact fun h => ⟨value', between, rfl, h⟩
      · rintro ⟨_, _, h, h'⟩
        cases h
        exact h'
  | failed failure between => simp
  | exhausted => simp

/-- A sequence fails in its first action, or in what goes on with its value. -/
theorem bind_eq_failed {first : Action α} {next : α → Action β} {state after : State}
    {failure : Failure} :
    (first >>= next) state = .failed failure after ↔
      first state = .failed failure after ∨
        ∃ value between, first state = .done value between ∧
          next value between = .failed failure after := by
  rw [bind_apply]
  generalize first state = outcome
  cases outcome with
  | done value between =>
      constructor
      · exact fun h => Or.inr ⟨value, between, rfl, h⟩
      · rintro (h | ⟨value', between', h, h'⟩)
        · cases h
        · cases h
          exact h'
  | failed failure' between => simp
  | exhausted => simp

@[simp]
theorem pure_apply (value : α) (state : State) :
    (pure value : Action α) state = .done value state := rfl

theorem within_bind {good : β → State → Prop} {first : Action α} {next : α → Action β}
    {state : State}
    (h : (first state).Within cut (fun value state => (next value state).Within cut good bad) bad) :
    ((first >>= next) state).Within cut good bad := by
  rw [bind_apply]
  cases hfirst : first state with
  | done value state' => simpa [hfirst] using h
  | failed failure state' => simpa [hfirst] using h
  | exhausted => simpa [hfirst] using h

theorem ends_bind {good : β → State → Prop} {first : Action α} {next : α → Action β}
    {state : State}
    (h : (first state).Ends (fun value state => (next value state).Ends good bad) bad) :
    ((first >>= next) state).Ends good bad := by
  refine within_true.1 (within_bind ((within_true.2 h).mono ?_ fun _ _ h' => h'))
  exact fun _ _ h' => within_true.2 h'

/-! ## Failures on their way out -/

theorem within_locate {position : Unit → Position} {action : Action α} {state : State}
    (h : (action state).Within cut good (fun failure => bad (failure.place (position ())))) :
    (locate position action state).Within cut good bad := by
  unfold locate
  cases haction : action state with
  | done value state' => simpa [haction] using h
  | failed failure state' => simpa [haction] using h
  | exhausted => simpa [haction] using h

theorem ends_locate {position : Unit → Position} {action : Action α} {state : State}
    (h : (action state).Ends good (fun failure => bad (failure.place (position ())))) :
    (locate position action state).Ends good bad :=
  within_true.1 (within_locate (within_true.2 h))

theorem within_reporting {self : EngineId} {action : Action α} {state : State}
    (h : (action state).Within cut good
      (fun failure state => bad (failure.attach fun _ => state.report self) state)) :
    (reporting self action state).Within cut good bad := by
  unfold reporting
  cases haction : action state with
  | done value state' => simpa [haction] using h
  | failed failure state' => simpa [haction] using h
  | exhausted => simpa [haction] using h

theorem ends_reporting {self : EngineId} {action : Action α} {state : State}
    (h : (action state).Ends good
      (fun failure state => bad (failure.attach fun _ => state.report self) state)) :
    (reporting self action state).Ends good bad :=
  within_true.1 (within_reporting (within_true.2 h))

/-! ## Scopes, frames and loans -/

theorem within_withScope {self : EngineId} {scope : ScopeId} {action : Action α} {state : State}
    (h : (action (state.pushScope self scope)).Within cut
      (fun value state => good value (state.popScope self))
      (fun failure state => bad failure (state.popScope self))) :
    (withScope self scope action state).Within cut good bad := by
  unfold withScope
  cases haction : action (state.pushScope self scope) with
  | done value state' => simpa [haction] using h
  | failed failure state' => simpa [haction] using h
  | exhausted => simpa [haction] using h

theorem within_thenPop {self : EngineId} {action : Action α} {state : State}
    (h : (action state).Within cut
      (fun value state => good value (state.modifyCallStack self CallStack.pop))
      (fun failure state => bad failure (state.modifyCallStack self CallStack.pop))) :
    (thenPop self action state).Within cut good bad := by
  unfold thenPop
  cases haction : action state with
  | done value state' => simpa [haction] using h
  | failed failure state' => simpa [haction] using h
  | exhausted => simpa [haction] using h

theorem within_lending {caller owner : EngineId} {action : Action α} {state : State}
    (h : (action (Loan.take caller owner state).2).Within cut
      (fun value state' =>
        good value ((Loan.take caller owner state).1.giveBack caller owner state'))
      (fun failure state' =>
        bad (failure.attach fun _ => state'.report owner)
          ((Loan.take caller owner state).1.giveBack caller owner state'))) :
    (lending caller owner action state).Within cut good bad := by
  have hreported : (reporting owner action (Loan.take caller owner state).2).Within cut
      (fun value state' =>
        good value ((Loan.take caller owner state).1.giveBack caller owner state'))
      (fun failure state' =>
        bad failure ((Loan.take caller owner state).1.giveBack caller owner state')) :=
    within_reporting h
  unfold lending
  cases haction : reporting owner action (Loan.take caller owner state).2 with
  | done value state' => simpa [haction] using hreported
  | failed failure state' => simpa [haction] using hreported
  | exhausted => simpa [haction] using hreported

end Action

end Bir
