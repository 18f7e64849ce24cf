import Bir.Proofs.ScopeGraph
import Mathlib.Data.List.Nodup
import Mathlib.Data.List.Perm.Subperm
import Mathlib.Logic.Relation

/-!
# Acyclic scope graphs — lookups that come to an end

A lookup goes from a scope to its parents.  If no scope is its own ancestor, it never comes to a
scope that it is already inside of, and the bound on its depth is of no account.  This file defines:

* `ScopeGraph.Parent`, `ScopeGraph.Stores` and `ScopeGraph.Acyclic`;
* `ScopeGraph.Inside` — the scopes that a lookup is inside of at a point of it;
* `ScopeGraph.LookupsEnd` — what this comes to for all lookups;
* `ScopeGraph.ClosedUp` and `ScopeGraph.Closed` — parents of some scopes are among these, and so are
  stores.

`ScopeGraph.Acyclic.lookupsEnd` has the lookups, `Acyclic.add` and `Acyclic.addParent` the two ways
in which a graph gets new parents.
-/

namespace Bir

open Relation

namespace ScopeGraph

/-- A scope is a parent of another one. -/
def Parent (graph : ScopeGraph) (id parent : ScopeId) : Prop :=
  parent ∈ (graph.get id).parents

/-- A block that is declared in a scope has its state in another one. -/
def Stores (graph : ScopeGraph) (id store : ScopeId) : Prop :=
  ∃ block ∈ (graph.get id).blocks, store ∈ block.store

/-- No scope is its own ancestor. -/
def Acyclic (graph : ScopeGraph) : Prop :=
  ∀ id, ¬ TransGen graph.Parent id id

/-- The scopes that a lookup from a scope is inside of at some point, the innermost first.  It does
not go past a scope that has what is asked for. -/
inductive Inside (graph : ScopeGraph) (holds : Scope → Bool) (start : ScopeId) :
    List ScopeId → Prop where
  | start : Inside graph holds start [start]
  | enter {id parent : ScopeId} {outside : List ScopeId}
      (inside : Inside graph holds start (id :: outside)) (missing : holds (graph.get id) = false)
      (next : graph.Parent id parent) : Inside graph holds start (parent :: id :: outside)

/-- Lookups come to an end without entering a scope again that they are inside of. -/
structure LookupsEnd (graph : ScopeGraph) : Prop where
  nodup : ∀ holds start inside, graph.Inside holds start inside → inside.Nodup
  depth : ∀ holds start inside, start < graph.scopes.size → graph.Inside holds start inside →
    inside.length ≤ graph.scopes.size
  /-- The first scope that is found is found without regard to the bound. -/
  resolve? : ∀ holds id, graph.resolve? holds id =
    if holds (graph.get id) then some id
    else (graph.get id).parents.findSome? fun parent => graph.resolve? holds parent
  /-- All scopes that are found are found without regard to the bound. -/
  holders : ∀ holds id, graph.holders holds id =
    if holds (graph.get id) then [id]
    else (graph.get id).parents.flatMap fun parent => graph.holders holds parent

/-- The parents of scopes in a region are in the region. -/
def ClosedUp (inside : ScopeId → Prop) (graph : ScopeGraph) : Prop :=
  ∀ id, inside id → ∀ parent, graph.Parent id parent → inside parent

/-- The parents of scopes in a region, and the stores of the blocks that are declared there, are in
the region. -/
structure Closed (inside : ScopeId → Prop) (graph : ScopeGraph) : Prop where
  parents : graph.ClosedUp inside
  stores : ∀ id, inside id → ∀ store, graph.Stores id store → inside store

variable {graph graph' : ScopeGraph} {inside : ScopeId → Prop}

theorem Parent.lt {id parent : ScopeId} (h : graph.Parent id parent) : id < graph.scopes.size := by
  rcases Nat.lt_or_ge id graph.scopes.size with hlt | hge
  · exact hlt
  · unfold Parent at h
    rw [graph.get_of_size_le hge] at h
    cases h

theorem parent_congr (same : ∀ id, (graph'.get id).parents = (graph.get id).parents) :
    graph'.Parent = graph.Parent := by
  funext id parent
  simp [Parent, same]

theorem Stores.lt {id store : ScopeId} (h : graph.Stores id store) : id < graph.scopes.size := by
  rcases h with ⟨block, hmem, -⟩
  rcases Nat.lt_or_ge id graph.scopes.size with hlt | hge
  · exact hlt
  · rw [graph.get_of_size_le hge] at hmem
    cases hmem

/-! ## Stores -/

namespace Stores

variable {id store : ScopeId}

theorem of_block {ref : BlockRef} (h : store ∈ (graph.block ref).store) :
    graph.Stores ref.scope store := by
  unfold block at h
  cases hblock : (graph.get ref.scope).blocks[ref.index]? with
  | none =>
      rw [hblock] at h
      cases h
  | some found =>
      rw [hblock] at h
      exact ⟨found, List.mem_of_getElem? hblock, h⟩

theorem of_blocks (h : graph'.Stores id store)
    (same : (graph'.get id).blocks = (graph.get id).blocks) : graph.Stores id store := by
  unfold Stores
  rw [← same]
  exact h

theorem of_modify {scope : ScopeId} {change : Scope → Scope}
    (h : (graph.modify scope change).Stores id store)
    (same : ∀ scope, (change scope).blocks = scope.blocks) : graph.Stores id store :=
  h.of_blocks (graph.get_modify_congr Scope.blocks scope id same)

/-- A block without a state may be added. -/
theorem of_addBlock {scope : ScopeId} {block : Block}
    (h : (graph.modify scope fun scope => scope.addBlock block).Stores id store)
    (unstored : block.store = none) : graph.Stores id store := by
  rcases h with ⟨other, hmem, hstore⟩
  rw [get_modify] at hmem
  split at hmem
  · rcases List.mem_append.1 hmem with hold | hnew
    · exact ⟨other, hold, hstore⟩
    · rw [List.mem_singleton.1 hnew, unstored] at hstore
      cases hstore
  · exact ⟨other, hmem, hstore⟩

theorem of_add {scope : Scope} (h : (graph.add scope).1.Stores id store)
    (unstored : scope.blocks = []) : graph.Stores id store :=
  h.of_blocks (graph.get_add_congr Scope.blocks id unstored)

theorem of_modifyBlock {ref : BlockRef} {change : Block → Block}
    (h : (graph.modifyBlock ref change).Stores id store) :
    graph.Stores id store ∨ ∃ block, store ∈ (change block).store := by
  rcases h with ⟨block, hmem, hstore⟩
  unfold modifyBlock at hmem
  rw [get_modify] at hmem
  split at hmem
  · obtain ⟨index, hindex⟩ := List.mem_iff_getElem?.1 hmem
    cases hold : (graph.get id).blocks[index]? with
    | none => simp [Scope.modifyBlock, List.getElem?_modify, hold] at hindex
    | some old =>
        simp only [Scope.modifyBlock, List.getElem?_modify, hold] at hindex
        split at hindex
        · cases hindex
          exact Or.inr ⟨old, hstore⟩
        · cases hindex
          exact Or.inl ⟨old, List.mem_of_getElem? hold, hstore⟩
  · exact Or.inl ⟨block, hmem, hstore⟩

theorem of_markInitialized {scope : ScopeId} {name : String} {state : Option ScopeId}
    (h : (graph.markInitialized scope name state).Stores id store) :
    graph.Stores id store ∨ store ∈ state := by
  rcases graph.markInitialized_cases scope name state with hsame | ⟨found, -, hmarked⟩
  · exact Or.inl (hsame ▸ h)
  · rw [hmarked] at h
    rcases h.of_modifyBlock with hold | ⟨_, hnew⟩
    · exact Or.inl hold
    · exact Or.inr hnew

end Stores

/-! ## Regions -/

/-- A lookup does not leave a region that all parents of its scopes are in. -/
theorem inside_of_resolveWithin (closed : graph.ClosedUp inside) {holds : Scope → Bool}
    {depth : Nat} {id holder : ScopeId} (start : inside id)
    (found : graph.resolveWithin holds depth id = some holder) : inside holder := by
  induction depth generalizing id with
  | zero => cases found
  | succ depth ih =>
      simp only [ScopeGraph.resolveWithin] at found
      split at found
      · cases found
        exact start
      · obtain ⟨parent, hparent, hfound⟩ := List.exists_of_findSome?_eq_some found
        exact ih (closed id start parent hparent) hfound

namespace Closed

variable (h : graph.Closed inside)
include h

theorem ancestor {id ancestor : ScopeId} (start : inside id)
    (path : ReflTransGen graph.Parent id ancestor) : inside ancestor := by
  induction path with
  | refl => exact start
  | tail _ next ih => exact h.parents _ ih _ next

theorem store {ref : BlockRef} (declared : inside ref.scope) {store : ScopeId}
    (hstore : store ∈ (graph.block ref).store) : inside store :=
  h.stores ref.scope declared store (.of_block hstore)

/-- A block that is seen from a region is declared in it. -/
theorem findBlock? {id : ScopeId} {name : String} {found : FoundBlock} (start : inside id)
    (seen : graph.findBlock? id name = some found) : inside found.block.scope :=
  inside_of_resolveWithin h.parents start (graph.findBlock?_eq_some seen).1

end Closed

theorem Parent.of_add {id parent : ScopeId} (h : (graph.add {}).1.Parent id parent) :
    graph.Parent id parent := by
  unfold Parent at h ⊢
  rw [get_add] at h
  split at h
  · cases h
  · exact h

/-- A scope that is added without parents sees nothing. -/
theorem closed_add : (graph.add {}).1.Closed (graph.scopes.size ≤ ·) where
  parents _ hid _ hparent := absurd hparent.of_add.lt (Nat.not_lt.2 hid)
  stores _ hid _ hstore := absurd (hstore.of_add rfl).lt (Nat.not_lt.2 hid)

theorem closed_empty : (({} : ScopeGraph).add {}).1.Closed inside where
  parents id _ _ hparent := absurd hparent.of_add.lt (Nat.not_lt_zero id)
  stores id _ _ hstore := absurd (hstore.of_add rfl).lt (Nat.not_lt_zero id)

/-! ## Ways to stay acyclic -/

namespace Acyclic

theorem empty : (({} : ScopeGraph).add {}).1.Acyclic := by
  intro id hcycle
  cases hcycle with
  | single next => exact absurd next.of_add.lt (Nat.not_lt_zero _)
  | tail _ next => exact absurd next.of_add.lt (Nat.not_lt_zero _)

theorem of_parents (h : graph.Acyclic)
    (same : ∀ id, (graph'.get id).parents = (graph.get id).parents) : graph'.Acyclic := by
  intro id hcycle
  exact h id (parent_congr same ▸ hcycle)

/-- A new scope is nobody's parent yet. -/
theorem add (h : graph.Acyclic) (exist : graph.ClosedUp (· < graph.scopes.size)) {scope : Scope}
    (parents : ∀ parent ∈ scope.parents, parent < graph.scopes.size) :
    (graph.add scope).1.Acyclic := by
  have hstep : ∀ {id parent}, (graph.add scope).1.Parent id parent →
      parent < graph.scopes.size ∧ (id < graph.scopes.size → graph.Parent id parent) := by
    intro id parent hparent
    unfold Parent at hparent
    rw [get_add] at hparent
    split at hparent
    · rename_i hid
      exact ⟨parents parent hparent, fun hlt => absurd hid (Nat.ne_of_lt hlt)⟩
    · exact ⟨exist id (Parent.lt hparent) parent hparent, fun _ => hparent⟩
  -- Every path ends at an old scope, and a path that starts at one is an old path.
  have hpath : ∀ {id ancestor}, TransGen (graph.add scope).1.Parent id ancestor →
      ancestor < graph.scopes.size ∧
        (id < graph.scopes.size → TransGen graph.Parent id ancestor) := by
    intro id ancestor path
    induction path with
    | single next => exact ⟨(hstep next).1, fun hid => .single ((hstep next).2 hid)⟩
    | tail _ next ih =>
        exact ⟨(hstep next).1, fun hid => (ih.2 hid).tail ((hstep next).2 ih.1)⟩
  intro id hcycle
  rcases hpath hcycle with ⟨hlt, hold⟩
  exact h id (hold hlt)

/-- A scope may be left out that was added last. -/
theorem of_add {scope : Scope} (h : (graph.add scope).1.Acyclic) : graph.Acyclic := by
  have hstep : graph.Parent ≤ (graph.add scope).1.Parent := by
    intro id parent hparent
    rw [Parent, get_add_of_lt _ _ hparent.lt]
    exact hparent
  exact fun id hcycle => h id (TransGen.mono hstep _ _ hcycle)

/-- A scope may get a parent that it is no ancestor of. -/
theorem addParent (h : graph.Acyclic) {root parent : ScopeId}
    (apart : ¬ ReflTransGen graph.Parent parent root) :
    (graph.modify root fun scope => scope.addParent parent).Acyclic := by
  have hstep : ∀ {id next}, (graph.modify root fun scope => scope.addParent parent).Parent id next →
      graph.Parent id next ∨ id = root ∧ next = parent := by
    intro id next hnext
    unfold Parent at hnext
    rw [get_modify] at hnext
    split at hnext
    · rename_i hid
      rcases List.mem_append.1 hnext with hold | hnew
      · exact Or.inl hold
      · exact Or.inr ⟨hid.1.symm, List.mem_singleton.1 hnew⟩
    · exact Or.inl hnext
  -- A new path is an old one, or it goes by the new parent.
  have hpath : ∀ {id ancestor},
      TransGen (graph.modify root fun scope => scope.addParent parent).Parent id ancestor →
        TransGen graph.Parent id ancestor ∨
          ReflTransGen graph.Parent id root ∧ ReflTransGen graph.Parent parent ancestor := by
    intro id ancestor path
    induction path with
    | single next =>
        rcases hstep next with hold | ⟨rfl, rfl⟩
        · exact Or.inl (.single hold)
        · exact Or.inr ⟨.refl, .refl⟩
    | tail _ next ih =>
        rcases hstep next with hold | ⟨rfl, rfl⟩
        · rcases ih with hdirect | ⟨hto, hfrom⟩
          · exact Or.inl (hdirect.tail hold)
          · exact Or.inr ⟨hto, hfrom.tail hold⟩
        · rcases ih with hdirect | ⟨hto, -⟩
          · exact Or.inr ⟨hdirect.to_reflTransGen, .refl⟩
          · exact Or.inr ⟨hto, .refl⟩
  intro id hcycle
  rcases hpath hcycle with hold | ⟨hto, hfrom⟩
  · exact h id hold
  · exact apart (hfrom.trans hto)

/-! ## Lookups -/

/-- Where a lookup is inside of several scopes, all outer ones are descendants of the innermost. -/
theorem descends {holds : Scope → Bool} {start id : ScopeId} {outside : List ScopeId}
    (h : graph.Inside holds start (id :: outside)) :
    ∀ outer ∈ outside, TransGen graph.Parent outer id := by
  generalize htrail : id :: outside = trail at h
  induction h generalizing id outside with
  | start =>
      cases htrail
      intro outer hmem
      cases hmem
  | @enter inner parent rest inside missing next ih =>
      cases htrail
      intro outer hmem
      rcases List.mem_cons.1 hmem with rfl | hmem
      · exact .single next
      · exact (ih rfl outer hmem).tail next

theorem nodup_of_inside (h : graph.Acyclic) {holds : Scope → Bool} {start : ScopeId}
    {inside : List ScopeId} (hinside : graph.Inside holds start inside) : inside.Nodup := by
  induction hinside with
  | start => exact List.nodup_singleton start
  | @enter id parent outside inside missing next ih =>
      -- A scope that is entered again would be its own ancestor.
      refine List.nodup_cons.2 ⟨fun hmem => ?_, ih⟩
      rcases List.mem_cons.1 hmem with rfl | hmem
      · exact h parent (.single next)
      · exact h parent ((descends inside parent hmem).tail next)

theorem lt_of_inside (exist : graph.ClosedUp (· < graph.scopes.size)) {holds : Scope → Bool}
    {start : ScopeId} (hstart : start < graph.scopes.size) {inside : List ScopeId}
    (h : graph.Inside holds start inside) : ∀ id ∈ inside, id < graph.scopes.size := by
  induction h with
  | start => simpa using hstart
  | @enter id parent outside inside missing next ih =>
      refine List.forall_mem_cons.2 ⟨?_, ih⟩
      exact exist id (ih id List.mem_cons_self) parent next

/-- Different scopes of a graph are no more than the graph has. -/
theorem length_le_of_nodup {trail : List ScopeId} (distinct : trail.Nodup)
    (exist : ∀ id ∈ trail, id < graph.scopes.size) : trail.length ≤ graph.scopes.size := by
  have hsubset : trail ⊆ List.range graph.scopes.size := fun id hmem => by
    simpa using exist id hmem
  simpa using (distinct.subperm hsubset).length_le

/-- A lookup that may go on for as many scopes as there are is not cut short. -/
theorem holdersWithin_succ (h : graph.Acyclic) (exist : graph.ClosedUp (· < graph.scopes.size))
    (holds : Scope → Bool) {start id : ScopeId} (hstart : start < graph.scopes.size)
    {outside : List ScopeId} (hinside : graph.Inside holds start (id :: outside)) {depth : Nat}
    (ample : graph.scopes.size ≤ outside.length + depth) :
    graph.holdersWithin holds (depth + 1) id = graph.holdersWithin holds depth id := by
  induction depth generalizing id outside with
  | zero =>
      -- No lookup is inside of more scopes than there are.
      have hlength : (id :: outside).length ≤ graph.scopes.size :=
        length_le_of_nodup (h.nodup_of_inside hinside) (lt_of_inside exist hstart hinside)
      simp only [List.length_cons] at hlength
      omega
  | succ depth ih =>
      cases hholds : holds (graph.get id) with
      | true => simp [holdersWithin, hholds]
      | false =>
          have hparents : ∀ parent ∈ (graph.get id).parents,
              graph.holdersWithin holds (depth + 1) parent =
                graph.holdersWithin holds depth parent := by
            intro parent hparent
            refine ih (.enter hinside hholds hparent) ?_
            simp only [List.length_cons]
            omega
          -- The bound is not felt in any parent, so it is not felt here.
          calc
            graph.holdersWithin holds (depth + 1 + 1) id
                = (graph.get id).parents.flatMap
                    fun parent => graph.holdersWithin holds (depth + 1) parent := by
                  simp [holdersWithin, hholds]
            _ = (graph.get id).parents.flatMap
                    fun parent => graph.holdersWithin holds depth parent := by
                  simp only [List.flatMap_def, List.map_congr_left hparents]
            _ = graph.holdersWithin holds (depth + 1) id := by
                  simp [holdersWithin, hholds]

theorem holders_eq (h : graph.Acyclic) (exist : graph.ClosedUp (· < graph.scopes.size))
    (nonempty : 0 < graph.scopes.size) (holds : Scope → Bool) (id : ScopeId) :
    graph.holders holds id =
      if holds (graph.get id) then [id]
      else (graph.get id).parents.flatMap fun parent => graph.holders holds parent := by
  rcases Nat.lt_or_ge id graph.scopes.size with hlt | hge
  · have hbound : graph.holdersWithin holds (graph.scopes.size + 1) id =
        graph.holdersWithin holds graph.scopes.size id :=
      h.holdersWithin_succ exist holds hlt .start (by simp)
    calc
      graph.holders holds id = graph.holdersWithin holds (graph.scopes.size + 1) id := hbound.symm
      _ = _ := rfl
  · -- A scope that is not there has no parents.
    rcases Nat.exists_eq_succ_of_ne_zero (Nat.ne_of_gt nonempty) with ⟨size, hsize⟩
    unfold holders
    rw [hsize]
    simp [holdersWithin, graph.get_of_size_le hge]

end Acyclic

/-- In an acyclic graph all lookups come to an end. -/
theorem Acyclic.lookupsEnd (h : graph.Acyclic) (exist : graph.ClosedUp (· < graph.scopes.size))
    (nonempty : 0 < graph.scopes.size) : graph.LookupsEnd where
  nodup _ _ _ hinside := h.nodup_of_inside hinside
  depth _ _ _ hstart hinside :=
    length_le_of_nodup (h.nodup_of_inside hinside) (lt_of_inside exist hstart hinside)
  resolve? holds id := by
    simp only [resolve?_eq_head?]
    rw [h.holders_eq exist nonempty]
    split
    · rfl
    · rw [List.head?_flatMap]
  holders holds id := h.holders_eq exist nonempty holds id

end ScopeGraph

end Bir
