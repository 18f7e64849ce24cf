import Bir.Proofs.Acyclic.Order

/-!
# Control — who runs, who waits, and who has borrowed

Control goes from an engine to one whose block it calls, and from an importer to its module, and
comes back.  The engines on this way have stacks that are in use; all others are at rest.  This file
defines:

* `control` — the engine in control and those that wait;
* `loans` and `borrowers` — the loans that are open, and the engines that run a call lent to them.

Ending brackets touches the stacks of the engines on the way and of no other:
`State.engine_unwind_of_not_mem`.
-/

namespace Bir

/-- The engine in control and those that wait for it, the innermost first. -/
def control (pending : List Bracket) (self : EngineId) : List EngineId :=
  self :: pending.filterMap Bracket.waiting?

/-- The loans that are open, each with the engine that borrows, the innermost first. -/
def loans : List Bracket → EngineId → List (Action.Loan × EngineId)
  | [], _ => []
  | .loan terms caller :: pending, self => (terms, self) :: loans pending caller
  | bracket :: pending, self => loans pending (bracket.outer self)

/-- The engines that run a call which was lent to them, the innermost first. -/
def borrowers (pending : List Bracket) (self : EngineId) : List EngineId :=
  (loans pending self).map Prod.snd

variable {pending : List Bracket} {self : EngineId}

@[simp]
theorem borrowers_loan (terms : Action.Loan) (caller : EngineId) :
    borrowers (.loan terms caller :: pending) self = self :: borrowers pending caller := rfl

/-! ## The way of control -/

/-- A bracket that is opened puts an engine on the way, or none. -/
theorem control_cons (bracket : Bracket) (pending : List Bracket) (self : EngineId) :
    control (bracket :: pending) self = control pending (bracket.outer self) ∧
        bracket.outer self = self ∨
      control (bracket :: pending) self = self :: control pending (bracket.outer self) := by
  cases hwaiting : bracket.waiting? with
  | none => exact Or.inl (by simp [control, Bracket.outer, hwaiting])
  | some id => exact Or.inr (by simp [control, Bracket.outer, hwaiting])

theorem control_subset (bracket : Bracket) (pending : List Bracket) (self : EngineId) :
    control pending (bracket.outer self) ⊆ control (bracket :: pending) self := by
  rcases control_cons bracket pending self with ⟨hsame, -⟩ | hmore
  · rw [hsame]
    exact List.Subset.refl _
  · rw [hmore]
    exact List.subset_cons_self _ _

theorem borrowers_subset : borrowers pending self ⊆ control pending self := by
  induction pending generalizing self with
  | nil => exact List.nil_subset _
  | cons bracket pending ih =>
      have houter := List.Subset.trans ih (control_subset bracket pending self)
      cases bracket with
      | loan terms caller => exact List.cons_subset.2 ⟨List.mem_cons_self, houter⟩
      | _ => exact houter

theorem inProgress_subset : inProgress pending self ⊆ control pending self := by
  induction pending generalizing self with
  | nil => exact List.nil_subset _
  | cons bracket pending ih =>
      have houter := List.Subset.trans ih (control_subset bracket pending self)
      cases bracket with
      | module importer => exact List.cons_subset.2 ⟨List.mem_cons_self, houter⟩
      | _ => exact houter

/-- The terms of a loan that is open are those of an engine that borrows. -/
theorem mem_loans {terms : Action.Loan} {caller : EngineId} (h : .loan terms caller ∈ pending)
    (self : EngineId) : ∃ owner, (terms, owner) ∈ loans pending self := by
  induction pending generalizing self with
  | nil => cases h
  | cons bracket pending ih =>
      rcases List.mem_cons.1 h with rfl | h
      · exact ⟨self, List.mem_cons_self⟩
      · obtain ⟨owner, howner⟩ := ih h (bracket.outer self)
        refine ⟨owner, ?_⟩
        cases bracket with
        | loan terms' caller' => exact List.mem_cons_of_mem _ howner
        | _ => exact howner

/-! ## Engines at rest -/

namespace State

variable {state state' : State}

/-- To end a bracket touches the engine in control and the one that control returns to. -/
theorem engine_close_ne {bracket : Bracket} {id : EngineId} (inner : id ≠ self)
    (outer : id ≠ bracket.outer self) : (bracket.close self state).engine id = state.engine id := by
  cases bracket with
  | scope => exact state.engine_modifyEngine_ne _ inner.symm
  | frame => exact state.engine_modifyEngine_ne _ inner.symm
  | loan terms caller =>
      rw [Bracket.close, Action.Loan.engine_giveBack_ne _ inner]
      exact state.engine_modifyEngine_ne _ outer.symm
  | _ => rfl

/-- To end all brackets touches no engine that is not on the way of control. -/
theorem engine_unwind_of_not_mem {id : EngineId} (h : id ∉ control pending self) :
    (unwind pending self state).engine id = state.engine id := by
  induction pending generalizing self state with
  | nil => rfl
  | cons bracket pending ih =>
      have houter : id ∉ control pending (bracket.outer self) := fun hmem =>
        h (control_subset bracket pending self hmem)
      have hinner : id ≠ self := fun hself => h (hself ▸ List.mem_cons_self)
      have hnext : id ≠ bracket.outer self := fun hself => houter (hself ▸ List.mem_cons_self)
      exact (ih houter).trans (engine_close_ne hinner hnext)

theorem size_unwind : (unwind pending self state).engines.size = state.engines.size := by
  induction pending generalizing self state with
  | nil => rfl
  | cons bracket pending ih =>
      have hclose : (bracket.close self state).engines.size = state.engines.size := by
        cases bracket <;> simp [Bracket.close, popScope, modifyCallStack]
      exact ih.trans hclose

/-- Stacks that are the same are the same once all is unwound. -/
theorem KeepsStacks.unwind (h : KeepsStacks state state') :
    KeepsStacks (State.unwind pending self state) (State.unwind pending self state') := by
  induction pending generalizing self state state' with
  | nil => exact h
  | cons bracket pending ih => exact ih (h.close self bracket)

end State

end Bir
