import Bir.Proofs.Activation
import Bir.Proofs.Bindings.Containment
import Bir.Proofs.Bridging.Likeness

/-!
# Lookups of blocks — what names stand for, and for how long

A lookup asks a scope for a block and goes on to the parents of the scope.  What it comes to depends
on the scopes that it can reach and on nothing else, so a name stands for the same block as long as
these declare nothing.  This file defines:

* `ScopeGraph.own?` — the block of a name that a scope declares itself;
* `ScopeGraph.lookup?` — the block that a name stands for, seen from a scope.

`ScopeGraph.LookupsEnd.lookup?` is one step of a lookup and `ScopeGraph.lookup?_congr` what it depends
on.  `State.callee?_evaluate` and `State.callee?_take` have what follows where names are used: an
expression may be evaluated, or the stacks lent, and names stand for the same blocks as before.
-/

namespace Bir

namespace ScopeGraph

/-- The block of a name that a scope declares itself. -/
def own? (graph : ScopeGraph) (id : ScopeId) (name : String) : Option BlockRef :=
  ((graph.get id).blockIndex? name).map fun index => ⟨id, index⟩

/-- The block that a name stands for, seen from a scope. -/
def lookup? (graph : ScopeGraph) (id : ScopeId) (name : String) : Option BlockRef :=
  (graph.findBlock? id name).map (·.block)

variable {graph graph' : ScopeGraph} {id : ScopeId} {name : String} {ref : BlockRef}

/-! ## One step -/

theorem own?_eq_some : graph.own? id name = some ref ↔
    ref.scope = id ∧ (graph.get id).blockIndex? name = some ref.index := by
  simp only [own?, Option.map_eq_some_iff]
  constructor
  · rintro ⟨index, hindex, rfl⟩
    exact ⟨rfl, hindex⟩
  · rintro ⟨rfl, hindex⟩
    exact ⟨ref.index, hindex, rfl⟩

theorem own?_eq_none : graph.own? id name = none ↔ (graph.get id).declares name = false := by
  simp [own?, Scope.blockIndex?, Scope.declares]

/-- A lookup finds a scope that declares the name, and the first block of the name there. -/
theorem lookup?_eq_bind (graph : ScopeGraph) (id : ScopeId) (name : String) :
    graph.lookup? id name = (graph.resolve? (fun scope => scope.declares (unmarked name)) id).bind
      fun holder => graph.own? holder (unmarked name) := by
  simp only [lookup?, findBlock?, own?]
  cases graph.resolve? (fun scope => scope.declares (unmarked name)) id with
  | none => rfl
  | some holder =>
      cases hindex : (graph.get holder).blockIndex? (unmarked name) <;> simp [hindex]

/-- What a lookup finds has what was asked for. -/
theorem holds_of_resolveWithin {holds : Scope → Bool} {depth : Nat} {holder : ScopeId}
    (h : graph.resolveWithin holds depth id = some holder) : holds (graph.get holder) = true := by
  induction depth generalizing id with
  | zero => cases h
  | succ depth ih =>
      simp only [resolveWithin] at h
      split at h
      · cases h
        assumption
      · obtain ⟨parent, -, hparent⟩ := List.exists_of_findSome?_eq_some h
        exact ih hparent

namespace LookupsEnd

variable (h : graph.LookupsEnd)
include h

/-- A lookup takes the block that the scope declares itself, and asks the parents if there is none. -/
theorem lookup? (id : ScopeId) (name : String) :
    graph.lookup? id name = (graph.own? id (unmarked name)).or
      ((graph.get id).parents.findSome? fun parent => graph.lookup? parent name) := by
  rw [lookup?_eq_bind, h.resolve?]
  split
  · rename_i hdeclares
    obtain ⟨index, hindex⟩ := Scope.declares_eq_true.1 hdeclares
    simp [own?, hindex]
  · rename_i hmissing
    rw [own?_eq_none.2 (by simpa using hmissing), Option.none_or]
    -- A parent that has the name has a block of it, so no parent after it is asked.
    induction (graph.get id).parents with
    | nil => rfl
    | cons parent rest ih =>
        rw [List.findSome?_cons, List.findSome?_cons, lookup?_eq_bind]
        cases hparent : graph.resolve? (fun scope => scope.declares (unmarked name)) parent with
        | none => exact ih
        | some holder =>
            obtain ⟨index, hindex⟩ := Scope.declares_eq_true.1 (holds_of_resolveWithin hparent)
            simp [own?, hindex]

/-- A block is found from the scope that it is declared in. -/
theorem lookup?_of_declares (declares : graph.Declares ref name) :
    graph.lookup? ref.scope name = some ref := by
  rw [h.lookup?, declares.unmarked, own?_eq_some.2 ⟨rfl, declares.first⟩, Option.some_or]

end LookupsEnd

/-- A block that is found is declared by the name that was asked for. -/
theorem declares_of_lookup? (plain : unmarked name = name) (h : graph.lookup? id name = some ref) :
    graph.Declares ref name where
  unmarked := plain
  first := by
    obtain ⟨found, hfound, rfl⟩ := Option.map_eq_some_iff.1 h
    exact plain ▸ (graph.findBlock?_eq_some hfound).2.1

/-- A name that no block has stands for none. -/
theorem lookup?_eq_none (unused : graph.EveryBlock fun block => block.name ≠ unmarked name)
    (id : ScopeId) : graph.lookup? id name = none := by
  rw [lookup?_eq_bind]
  cases hresolve : graph.resolve? (fun scope => scope.declares (unmarked name)) id with
  | none => rfl
  | some holder =>
      refine own?_eq_none.2 (List.any_eq_false.2 fun block hmem => ?_)
      simpa using unused holder block hmem

/-! ## What lookups depend on -/

/-- A lookup that may go on for longer does not. -/
theorem Acyclic.resolve?_eq (h : graph.Acyclic) (exist : graph.ClosedUp (· < graph.scopes.size))
    (holds : Scope → Bool) (hid : id < graph.scopes.size) {depth : Nat}
    (ample : graph.scopes.size ≤ depth) :
    graph.resolveWithin holds depth id = graph.resolve? holds id := by
  induction ample with
  | refl => rfl
  | @step depth ample ih =>
      rw [← ih, resolveWithin_eq_head?, resolveWithin_eq_head?,
        h.holdersWithin_succ exist holds hid .start (by simpa using ample)]

/-- A name stands for the same block as long as the scopes that its lookup can reach go on to the same
parents and declare nothing. -/
theorem lookup?_congr {inside : ScopeId → Prop} (acyclic : graph.Acyclic)
    (exist : graph.ClosedUp (· < graph.scopes.size))
    (size : graph.scopes.size ≤ graph'.scopes.size)
    (closed : graph.ClosedUp inside)
    (there : ∀ id, inside id → id < graph.scopes.size)
    (parents : ∀ id, inside id → (graph'.get id).parents = (graph.get id).parents)
    (signatures : ∀ id, inside id → graph'.signatures id = graph.signatures id)
    (start : inside id) (name : String) : graph'.lookup? id name = graph.lookup? id name := by
  have hindex : ∀ id, inside id → ∀ name,
      (graph'.get id).blockIndex? name = (graph.get id).blockIndex? name := by
    intro id hid name
    rw [blockIndex?_eq, blockIndex?_eq, signatures id hid]
  have hdeclares : ∀ id, inside id →
      (graph'.get id).declares (unmarked name) = (graph.get id).declares (unmarked name) := by
    intro id hid
    rw [Bool.eq_iff_iff, Scope.declares_eq_true, Scope.declares_eq_true, hindex id hid]
  have hresolve : graph'.resolve? (fun scope => scope.declares (unmarked name)) id =
      graph.resolve? (fun scope => scope.declares (unmarked name)) id := by
    rw [← acyclic.resolve?_eq exist _ (there id start) size, resolve?, resolveWithin_eq_head?,
      resolveWithin_eq_head?, holdersWithin_congr inside closed parents hdeclares _ start]
  rw [lookup?_eq_bind, lookup?_eq_bind, hresolve]
  cases hholder : graph.resolve? (fun scope => scope.declares (unmarked name)) id with
  | none => rfl
  | some holder =>
      have hholder := inside_of_resolveWithin closed start hholder
      simp only [Option.bind_some, own?, hindex holder hholder]

/-- What has kept its declarations sees the same blocks. -/
theorem KeepsDeclarations.lookup? (h : graph.KeepsDeclarations graph') (acyclic : graph.Acyclic)
    (exist : graph.ClosedUp (· < graph.scopes.size)) (there : id < graph.scopes.size)
    (name : String) : graph'.lookup? id name = graph.lookup? id name :=
  lookup?_congr acyclic exist h.size exist (fun _ hid => hid) h.parents
    (fun id hid => graph.signatures_congr (h.blocks id hid)) there name

end ScopeGraph

/-! ## Names in a run -/

namespace State

variable {state after : State} {self : EngineId} {pending : List Bracket}

/-- Names stand for the same blocks when something has been evaluated. -/
theorem callee?_of_contained (ordered : Moment.Ordered ⟨pending, self, state⟩)
    (h : Moment.Contained state ⟨[.question], self, after⟩) (name : String) :
    after.callee? self name = state.callee? self name := by
  have hengines : after.engines = state.engines := h.unwinds.undisturbed.engines
  have hscope : after.currentScope self = state.currentScope self :=
    State.currentScope_congr hengines self
  change after.graph.lookup? _ name = state.graph.lookup? _ name
  rw [hscope]
  exact h.keepsDeclarations.lookup? ordered.acyclic ordered.exist.parents ordered.levels.current.current.1
    name

/-- Names stand for the same blocks where the stacks are lent. -/
theorem callee?_take (ordered : Moment.Ordered ⟨pending, self, state⟩) {owner : EngineId}
    (other : owner ≠ self) (exists' : owner < state.engines.size) (name : String) :
    (Action.Loan.take self owner state).2.callee? owner name = state.callee? self name := by
  have hlike := (ScopeGraph.Like.refl (fun _ => true) state.graph).setForeign
    (Action.Loan.take self owner state).1.top false
  rw [callee?, ordered.levels.currentScope_take other exists', Action.Loan.graph_take]
  exact hlike.findBlock? _ name

end State

end Bir
