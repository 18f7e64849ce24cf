import Bir.Proofs.ScopeGraph

/-!
# Spared scopes — changes of a graph that leave some scopes as they are

Of the operations on graphs, writes alone ask whether a scope is immutable.  All others have to be
kept away from the scopes that are to stay as they are.  This file defines:

* `Scope.contents` — a scope without the flag that loans of stacks lower and raise;
* `ScopeGraph.Spares` — a graph becomes another one, and some scopes keep their contents;
* `ScopeGraph.Guards` — the scopes that are spared refuse writes.
-/

namespace Bir

/-! ## Contents -/

namespace Scope

/-- All of a scope but whether its blocks count as those of another engine. -/
def contents (scope : Scope) : Scope := { scope with foreign := false }

theorem blocks_of_contents {scope scope' : Scope} (h : scope'.contents = scope.contents) :
    scope'.blocks = scope.blocks := by
  calc
    scope'.blocks = scope'.contents.blocks := rfl
    _ = scope.contents.blocks := by rw [h]
    _ = scope.blocks := rfl

theorem immutable_of_contents {scope scope' : Scope} (h : scope'.contents = scope.contents) :
    scope'.immutable = scope.immutable := by
  calc
    scope'.immutable = scope'.contents.immutable := rfl
    _ = scope.contents.immutable := by rw [h]
    _ = scope.immutable := rfl

theorem declares_addBlock {scope : Scope} {name : String} (h : scope.declares name = true)
    (block : Block) : (scope.addBlock block).declares name = true := by
  have hany : scope.blocks.any (fun block => block.name == name) = true := h
  simp [declares, addBlock, hany]

theorem declares_addBlock_self (scope : Scope) (block : Block) :
    (scope.addBlock block).declares block.name = true := by
  simp [declares, addBlock]

/-- Blocks that keep their names are still declared. -/
theorem declares_modifyBlock {scope : Scope} {name : String} (h : scope.declares name = true)
    (index : Nat) {change : Block → Block} (named : ∀ block, (change block).name = block.name) :
    (scope.modifyBlock index change).declares name = true := by
  have hnames : (scope.modifyBlock index change).blocks.map (·.name) = scope.blocks.map (·.name) := by
    apply List.ext_getElem?
    intro place
    simp only [modifyBlock, List.getElem?_map, List.getElem?_modify]
    by_cases hplace : index = place
    · cases scope.blocks[place]? <;> simp [hplace, named]
    · simp [hplace]
  have hany : ∀ blocks : List Block, blocks.any (fun block => block.name == name) =
      (blocks.map (·.name)).any (· == name) := by
    intro blocks
    simp [List.any_map, Function.comp_def]
  unfold declares at h ⊢
  rw [hany, hnames, ← hany]
  exact h

end Scope

/-! ## Spared scopes -/

namespace ScopeGraph

/-- A graph becomes another one: some scopes keep their contents, and no scope and no block goes
away. -/
structure Spares (spared : ScopeId → Prop) (graph graph' : ScopeGraph) : Prop where
  size : graph.scopes.size ≤ graph'.scopes.size
  contents : ∀ id, spared id → (graph'.get id).contents = (graph.get id).contents
  declares : ∀ id name, (graph.get id).declares name = true →
    (graph'.get id).declares name = true

theorem declares_modify_addBlock (graph : ScopeGraph) {id : ScopeId} (exists' : id < graph.scopes.size)
    (block : Block) :
    ((graph.modify id fun scope => scope.addBlock block).get id).declares block.name = true := by
  have hget : (graph.modify id fun scope => scope.addBlock block).get id =
      (graph.get id).addBlock block := by
    simp [get_modify, exists']
  rw [hget]
  exact Scope.declares_addBlock_self _ block

/-- The scopes that are spared refuse writes. -/
def Guards (graph : ScopeGraph) (spared : ScopeId → Prop) : Prop :=
  ∀ id, spared id → (graph.get id).immutable = true

theorem Guards.lt {graph : ScopeGraph} {spared : ScopeId → Prop} (h : graph.Guards spared)
    {id : ScopeId} (hspared : spared id) : id < graph.scopes.size := by
  rcases Nat.lt_or_ge id graph.scopes.size with hlt | hge
  · exact hlt
  · -- A scope that is not there reads as an empty one, which does not refuse writes.
    have himmutable := h id hspared
    rw [graph.get_of_size_le hge] at himmutable
    cases himmutable

namespace Spares

variable {spared : ScopeId → Prop} {graph graph' graph'' : ScopeGraph}

theorem refl (graph : ScopeGraph) : Spares spared graph graph where
  size := Nat.le_refl _
  contents _ _ := rfl
  declares _ _ h := h

theorem trans (h : Spares spared graph graph') (h' : Spares spared graph' graph'') :
    Spares spared graph graph'' where
  size := Nat.le_trans h.size h'.size
  contents id hspared := (h'.contents id hspared).trans (h.contents id hspared)
  declares id name hdeclares := h'.declares id name (h.declares id name hdeclares)

theorem guards (h : Spares spared graph graph') (guarded : graph.Guards spared) :
    graph'.Guards spared := by
  intro id hspared
  rw [Scope.immutable_of_contents (h.contents id hspared)]
  exact guarded id hspared

/-- A scope that is not spared may change in any way that keeps its blocks declared. -/
theorem modify {id : ScopeId} (outside : ¬ spared id) {change : Scope → Scope}
    (declares : ∀ (scope : Scope) name, scope.declares name = true →
      (change scope).declares name = true) :
    Spares spared graph (graph.modify id change) where
  size := Nat.le_of_eq (graph.size_modify id change).symm
  contents id' hspared := by
    have hne : id ≠ id' := by
      rintro rfl
      exact outside hspared
    rw [graph.get_modify_ne change hne]
  declares id' name h := by
    rw [get_modify]
    split
    · exact declares _ name h
    · exact h

/-- Any scope may change its flag. -/
theorem flag (id : ScopeId) {change : Scope → Scope}
    (same : ∀ scope, (change scope).contents = scope.contents) :
    Spares spared graph (graph.modify id change) where
  size := Nat.le_of_eq (graph.size_modify id change).symm
  contents id' _ := graph.get_modify_congr Scope.contents id id' same
  declares id' name h := by
    have hblocks := graph.get_modify_congr Scope.blocks id id'
      (fun scope => Scope.blocks_of_contents (same scope))
    unfold Scope.declares at h ⊢
    rw [hblocks]
    exact h

theorem add (guarded : graph.Guards spared) (scope : Scope) :
    Spares spared graph (graph.add scope).1 where
  size := by simp
  contents id hspared := by rw [graph.get_add_of_lt scope (guarded.lt hspared)]
  declares id name h := by
    rw [graph.get_add_of_lt scope (graph.declares_lt h)]
    exact h

theorem update (guarded : graph.Guards spared) (id : ScopeId) (name : String) (value : Int64) :
    Spares spared graph (graph.update id name value).1 where
  size := by simp
  contents id' hspared := by
    rw [graph.get_update_of_immutable id name value (guarded id' hspared)]
  declares id' name' h := by
    have hblocks := graph.get_update_congr Scope.blocks (by intro _ _ _; rfl) id id' name value
    unfold Scope.declares at h ⊢
    rw [hblocks]
    exact h

theorem delete {id : ScopeId} {name : String} (outside : ¬ spared id)
    (binds : (graph.get id).binds name = true) : Spares spared graph (graph.delete id name) := by
  rw [graph.delete_eq_of_binds binds]
  exact modify outside fun _ _ h => h

theorem modifyBlock {ref : BlockRef} (outside : ¬ spared ref.scope) {change : Block → Block}
    (named : ∀ block, (change block).name = block.name) :
    Spares spared graph (graph.modifyBlock ref change) :=
  modify outside fun _ _ h => Scope.declares_modifyBlock h ref.index named

/-- A scope that declares a name itself is the only one that marking the name may change. -/
theorem markInitialized {id : ScopeId} {name : String} (outside : ¬ spared id)
    (unmarked : unmarked name = name) (declares : (graph.get id).declares name = true)
    (store : Option ScopeId) : Spares spared graph (graph.markInitialized id name store) := by
  have hdeclares : (graph.get id).declares (ScopeGraph.unmarked name) = true := by
    rw [unmarked]
    exact declares
  rcases graph.findBlock?_self hdeclares with ⟨found, hfound, hscope⟩
  have hmarked : graph.markInitialized id name store =
      graph.modifyBlock found.block fun block => { block with initialized := true, store } := by
    simp [ScopeGraph.markInitialized, hfound]
  rw [hmarked]
  exact modifyBlock (hscope ▸ outside) fun _ => rfl

end Spares

end ScopeGraph

end Bir
