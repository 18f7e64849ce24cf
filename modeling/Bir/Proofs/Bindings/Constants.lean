import Bir.Proofs.Bindings.Evolution

/-!
# Constants — no run changes their values

Writes ask for the kind of a binding, but seeding the slots of a block does not: it sets `index`
even if `init` made it constant.  The store that is seeded is always one that the same declaration
has made, so the constants of older scopes are safe.  This file defines:

* `Moment.KeepsConstants` — at every moment of an evaluation, the constants of old scopes are kept.

`constants_are_safe` is the result.
-/

namespace Bir

/-- Constants stay as they are, or they are slots and leave. -/
theorem Bindings.Evolve.mem_of_const {leaves joins : String → Prop} {before after : List Binding}
    (h : Evolve leaves joins before after) {binding : Binding} (hmem : binding ∈ before)
    (const : binding.kind = .const) : binding ∈ after ∨ leaves binding.name := by
  induction h with
  | joined => cases hmem
  | @kept old new rest rest' revised _ ih =>
      rcases List.mem_cons.1 hmem with rfl | hrest
      · have hsame : new = binding := by
          cases new
          cases binding
          simpa using ⟨revised.name, revised.value const, revised.kind⟩
        exact Or.inl (hsame ▸ List.mem_cons_self)
      · exact (ih hrest).imp_left (List.mem_cons_of_mem new)
  | @left old rest rest' left _ ih =>
      rcases List.mem_cons.1 hmem with rfl | hrest
      · exact Or.inr left
      · exact ih hrest

/-- The scopes that were there when an evaluation began have kept their constants. -/
structure Moment.KeepsConstants (start : ScopeGraph) (moment : Moment) : Prop where
  size : start.scopes.size ≤ moment.state.graph.scopes.size
  bindings : ∀ id < start.scopes.size, Bindings.Evolve Slot.Named (fun _ => True)
    (start.get id).bindings (moment.state.graph.get id).bindings
  made : ∀ bracket ∈ moment.pending, ∀ id ∈ bracket.store?, start.scopes.size ≤ id

namespace Moment.KeepsConstants

variable {start : ScopeGraph} {allowed : EngineId → Statement → Prop} {moment moment' : Moment}

theorem move (h : moment.KeepsConstants start) (move : Move allowed moment moment') :
    moment'.KeepsConstants start where
  size := Nat.le_trans h.size move.size_le
  bindings id hid := by
    refine (h.bindings id hid).trans (move.bindings (Nat.lt_of_lt_of_le hid h.size) ?_ ?_ ?_)
    · exact fun _ index => ⟨⟨index, rfl⟩, trivial⟩
    · exact fun _ _ _ _ => trivial
    · intro ref name outer hpending
      -- A store that is being made is newer than the scopes of the start.
      have hmade := h.made _ (hpending ▸ List.mem_cons_self) id rfl
      exact absurd hmade (Nat.not_le.2 hid)
  made := move.made h.size h.made

end Moment.KeepsConstants

/-- Whatever an engine evaluates and however it ends, each scope that was there before keeps its
constants: each is where it was among the bindings of the scope, with the same name, kind and value,
or it was a slot and has been removed. -/
theorem constants_are_safe (state : State) (self : EngineId) :
    state.EvaluationsLeave self fun after => ∀ id < state.graph.scopes.size,
      Bindings.Evolve Slot.Named (fun _ => True) (state.graph.get id).bindings
          (after.graph.get id).bindings ∧
        ∀ binding ∈ (state.graph.get id).bindings, binding.kind = .const →
          binding ∈ (after.graph.get id).bindings ∨ Slot.Named binding.name := by
  have hstart : Moment.KeepsConstants state.graph ⟨[], self, state⟩ :=
    ⟨Nat.le_refl _, fun _ _ => .refl _, fun _ hmem => by cases hmem⟩
  have hends := State.EvaluationsLeave.of_invariant hstart fun hkeeps move => hkeeps.move move
  refine hends.mono fun after hkeeps id hid => ?_
  have hevolve := hkeeps.bindings id hid
  exact ⟨hevolve, fun binding hmem const => hevolve.mem_of_const hmem const⟩

end Bir
