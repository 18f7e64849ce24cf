import Bir.Proofs.ScopeGraph

/-!
# Likeness — graphs that differ in owners and flags alone

Who declared a block and whether a scope counts as foreign decide where a block runs, and nothing
else.  This file defines:

* `Block.bare` — a block without the record of its owner;
* `Scope.Like` and `ScopeGraph.Like` — scopes and graphs that are the same but for flags and
  owners.

Some scopes can be `kept`: these have the same owners as well.  No lookup tells like graphs apart,
and each operation takes like graphs to like graphs.
-/

namespace Bir

/-! ## Blocks -/

namespace Block

/-- A block without the record of its owner. -/
def bare (block : Block) : Block := { block with owner := 0 }

@[simp]
theorem name_bare (block : Block) : block.bare.name = block.name := rfl

@[simp]
theorem bare_default : (default : Block).bare = default := rfl

/-- What does not depend on the owner is the same for blocks that differ in the owner alone. -/
theorem congr_bare {β : Type} (part : Block → β) (free : ∀ block, part block.bare = part block)
    {block block' : Block} (h : block.bare = block'.bare) : part block = part block' := by
  rw [← free block, h, free block']

/-- A block that implements another is the same but for its owner if the others are. -/
theorem bare_implementing {parent parent' : Block} (h : parent.bare = parent'.bare)
    (owner owner' : EngineId) (name : String) :
    (implementing owner name parent).bare = (implementing owner' name parent').bare :=
  congr_bare (fun parent => (implementing owner name parent).bare) (fun _ => rfl) h

end Block

/-! ## Scopes -/

/-- Two scopes are the same but for their flags, and for owners unless these are kept. -/
structure Scope.Like (kept : Bool) (scope scope' : Scope) : Prop where
  parents : scope.parents = scope'.parents
  bindings : scope.bindings = scope'.bindings
  immutable : scope.immutable = scope'.immutable
  blocks : scope.blocks.map Block.bare = scope'.blocks.map Block.bare
  owners : kept = true → scope.blocks = scope'.blocks

namespace Scope.Like

variable {kept : Bool} {scope scope' : Scope}

theorem refl (kept : Bool) (scope : Scope) : Like kept scope scope where
  parents := rfl
  bindings := rfl
  immutable := rfl
  blocks := rfl
  owners _ := rfl

theorem binds (h : Like kept scope scope') (name : String) :
    scope.binds name = scope'.binds name := by
  simp [Scope.binds, h.bindings]

theorem binding? (h : Like kept scope scope') (name : String) :
    scope.binding? name = scope'.binding? name := by
  simp [Scope.binding?, h.bindings]

theorem permission (h : Like kept scope scope') (binding : Binding) :
    scope.permission binding = scope'.permission binding := by
  simp [Scope.permission, h.immutable]

theorem length (h : Like kept scope scope') : scope.blocks.length = scope'.blocks.length := by
  simpa using congrArg List.length h.blocks

theorem blockIndex? (h : Like kept scope scope') (name : String) :
    scope.blockIndex? name = scope'.blockIndex? name := by
  have hbare : ∀ scope : Scope, scope.blockIndex? name =
      (scope.blocks.map Block.bare).findIdx? fun block => block.name == name := by
    intro scope
    simp [Scope.blockIndex?, List.findIdx?_map, Function.comp_def]
  rw [hbare, hbare, h.blocks]

theorem declares (h : Like kept scope scope') (name : String) :
    scope.declares name = scope'.declares name := by
  have hbare : ∀ scope : Scope, scope.declares name =
      (scope.blocks.map Block.bare).any fun block => block.name == name := by
    intro scope
    simp [Scope.declares, List.any_map, Function.comp_def]
  rw [hbare, hbare, h.blocks]

theorem block (h : Like kept scope scope') (index : Nat) :
    ((scope.blocks[index]?).getD default).bare = ((scope'.blocks[index]?).getD default).bare := by
  have hbare : ∀ scope : Scope, ((scope.blocks[index]?).getD default).bare =
      (((scope.blocks.map Block.bare)[index]?).getD default) := by
    intro scope
    cases hblock : scope.blocks[index]? <;> simp [hblock]
  rw [hbare, hbare, h.blocks]

/-- A change of the bindings alone keeps scopes alike. -/
theorem withBindings (h : Like kept scope scope') (change : List Binding → List Binding) :
    Like kept { scope with bindings := change scope.bindings }
      { scope' with bindings := change scope'.bindings } :=
  { h with bindings := congrArg change h.bindings }

theorem push (h : Like kept scope scope') (name : String) (value : Int64) (kind : BindingKind) :
    Like kept (scope.push name value kind) (scope'.push name value kind) :=
  h.withBindings fun bindings => bindings ++ [{ name, value, kind : Binding }]

theorem overwrite (h : Like kept scope scope') (name : String) (value : Int64) :
    Like kept (scope.overwrite name value) (scope'.overwrite name value) :=
  h.withBindings fun bindings =>
    bindings.modify (bindings.findIdx fun binding : Binding => binding.name == name)
      fun binding => { binding with value }

theorem erase (h : Like kept scope scope') (name : String) :
    Like kept (scope.erase name) (scope'.erase name) :=
  h.withBindings fun bindings => bindings.eraseP fun binding : Binding => binding.name == name

theorem addParent (h : Like kept scope scope') (parent : ScopeId) :
    Like kept (scope.addParent parent) (scope'.addParent parent) :=
  { h with parents := congrArg (· ++ [parent]) h.parents }

theorem freeze (h : Like kept scope scope') :
    Like kept { scope with immutable := true, foreign := true }
      { scope' with immutable := true, foreign := true } :=
  { h with immutable := rfl }

/-- Blocks that are added to scopes which are kept must have the same owner. -/
theorem addBlock (h : Like kept scope scope') {block block' : Block}
    (bare : block.bare = block'.bare) (owner : kept = true → block = block') :
    Like kept (scope.addBlock block) (scope'.addBlock block') :=
  { h with
    blocks := by simp [Scope.addBlock, h.blocks, bare]
    owners := fun hkept => by simp [Scope.addBlock, h.owners hkept, owner hkept] }

theorem modifyBlock (h : Like kept scope scope') (index : Nat) {change : Block → Block}
    (bare : ∀ block, (change block).bare = change block.bare) :
    Like kept (scope.modifyBlock index change) (scope'.modifyBlock index change) := by
  have hmap : ∀ blocks : List Block, (blocks.modify index change).map Block.bare =
      (blocks.map Block.bare).modify index change := by
    intro blocks
    apply List.ext_getElem?
    intro place
    simp only [List.getElem?_map, List.getElem?_modify]
    split <;> simp [Function.comp_def, bare]
  exact { h with
    blocks := by simp only [Scope.modifyBlock, hmap, h.blocks]
    owners := fun hkept => by simp [Scope.modifyBlock, h.owners hkept] }

end Scope.Like

/-! ## Graphs -/

/-- Two graphs are the same but for flags, and for owners in scopes that are not kept. -/
structure ScopeGraph.Like (kept : ScopeId → Bool) (graph graph' : ScopeGraph) : Prop where
  size : graph.scopes.size = graph'.scopes.size
  scopes : ∀ id, (graph.get id).Like (kept id) (graph'.get id)

namespace ScopeGraph.Like

variable {kept : ScopeId → Bool} {graph graph' : ScopeGraph}

theorem refl (kept : ScopeId → Bool) (graph : ScopeGraph) : Like kept graph graph where
  size := rfl
  scopes id := .refl (kept id) (graph.get id)

/-! ### Lookups -/

theorem holders (h : Like kept graph graph') {holds : Scope → Bool}
    (same : ∀ id, holds (graph.get id) = holds (graph'.get id)) (id : ScopeId) :
    graph.holders holds id = graph'.holders holds id := by
  rw [ScopeGraph.holders, ScopeGraph.holders, h.size]
  exact holdersWithin_congr (fun _ => True) (fun _ _ _ _ => trivial)
    (fun id _ => (h.scopes id).parents) (fun id _ => same id) _ trivial

theorem resolve? (h : Like kept graph graph') {holds : Scope → Bool}
    (same : ∀ id, holds (graph.get id) = holds (graph'.get id)) (id : ScopeId) :
    graph.resolve? holds id = graph'.resolve? holds id := by
  rw [resolve?_eq_head?, resolve?_eq_head?, h.holders same]

theorem find? (h : Like kept graph graph') (id : ScopeId) (name : String) :
    graph.find? id name = graph'.find? id name := by
  have hresolve : graph.resolve? (fun scope => scope.binds name) id =
      graph'.resolve? (fun scope => scope.binds name) id :=
    h.resolve? (fun id => (h.scopes id).binds name) id
  unfold ScopeGraph.find?
  rw [hresolve]
  cases graph'.resolve? (fun scope => scope.binds name) id with
  | none => rfl
  | some holder => simp [(h.scopes holder).binding? name]

theorem findBlock? (h : Like kept graph graph') (id : ScopeId) (name : String) :
    (graph.findBlock? id name).map (·.block) = (graph'.findBlock? id name).map (·.block) := by
  have hresolve : graph.resolve? (fun scope => scope.declares (unmarked name)) id =
      graph'.resolve? (fun scope => scope.declares (unmarked name)) id :=
    h.resolve? (fun id => (h.scopes id).declares (unmarked name)) id
  simp only [ScopeGraph.findBlock?, hresolve]
  cases graph'.resolve? (fun scope => scope.declares (unmarked name)) id with
  | none => rfl
  | some holder =>
      simp only [(h.scopes holder).blockIndex? (unmarked name)]
      cases (graph'.get holder).blockIndex? (unmarked name) <;> rfl

theorem block (h : Like kept graph graph') (ref : BlockRef) :
    (graph.block ref).bare = (graph'.block ref).bare :=
  (h.scopes ref.scope).block ref.index

/-! ### Changes -/

theorem modify (h : Like kept graph graph') (id : ScopeId) {change change' : Scope → Scope}
    (like : ∀ scope scope', Scope.Like (kept id) scope scope' →
      Scope.Like (kept id) (change scope) (change' scope')) :
    Like kept (graph.modify id change) (graph'.modify id change') where
  size := by simp [h.size]
  scopes id' := by
    rw [get_modify, get_modify, h.size]
    split
    · rename_i hid
      obtain ⟨rfl, -⟩ := hid
      exact like _ _ (h.scopes id)
    · exact h.scopes id'

/-- A change of flags on one side alone keeps graphs alike. -/
theorem setForeign (h : Like kept graph graph') (id : ScopeId) (foreign : Bool) :
    Like kept (graph.modify id fun scope => { scope with foreign }) graph' where
  size := by simp [h.size]
  scopes id' := by
    rw [get_modify]
    split
    · exact { h.scopes id' with }
    · exact h.scopes id'

theorem add (h : Like kept graph graph') {scope scope' : Scope}
    (like : scope.Like (kept graph.scopes.size) scope') :
    Like kept (graph.add scope).1 (graph'.add scope').1 where
  size := by simp [h.size]
  scopes id := by
    rw [get_add, get_add, ← h.size]
    split
    · rename_i hid
      exact hid ▸ like
    · exact h.scopes id

theorem write (h : Like kept graph graph') (holder : ScopeId) (name : String) (value : Int64) :
    Like kept (graph.write holder name value).1 (graph'.write holder name value).1 ∧
      (graph.write holder name value).2 = (graph'.write holder name value).2 := by
  have hscope := h.scopes holder
  unfold ScopeGraph.write
  simp only [hscope.binding? name, hscope.permission]
  cases (graph'.get holder).binding? name with
  | none => exact ⟨h, rfl⟩
  | some binding =>
      cases hpermission : (graph'.get holder).permission binding with
      | granted =>
          simpa [hpermission] using h.modify holder fun _ _ hlike => hlike.overwrite name value
      | deniedConst => simpa [hpermission] using h
      | deniedImmutable => simpa [hpermission] using h

/-- Writes to one scope after the other keep graphs alike, and fare alike. -/
theorem writeEach (h : Like kept graph graph') (name : String) (value : Int64)
    (ids : List ScopeId) (outcome : UpdateOutcome) :
    Like kept (graph.writeEach name value ids outcome).1
        (graph'.writeEach name value ids outcome).1 ∧
      (graph.writeEach name value ids outcome).2 =
        (graph'.writeEach name value ids outcome).2 := by
  induction ids generalizing graph graph' outcome with
  | nil => exact ⟨h, rfl⟩
  | cons holder ids ih =>
      obtain ⟨hgraph, hreport⟩ := h.write holder name value
      rw [writeEach_cons, writeEach_cons, hreport]
      exact ih hgraph _

theorem update (h : Like kept graph graph') (id : ScopeId) (name : String) (value : Int64) :
    Like kept (graph.update id name value).1 (graph'.update id name value).1 ∧
      (graph.update id name value).2 = (graph'.update id name value).2 := by
  have hholders : graph.holders (fun scope => scope.binds name) id =
      graph'.holders (fun scope => scope.binds name) id :=
    h.holders (fun id => (h.scopes id).binds name) id
  rw [update_eq, update_eq, hholders]
  exact h.writeEach name value _ .unbound

theorem delete (h : Like kept graph graph') (id : ScopeId) (name : String) :
    Like kept (graph.delete id name) (graph'.delete id name) := by
  have hresolve : graph.resolve? (fun scope => scope.binds name) id =
      graph'.resolve? (fun scope => scope.binds name) id :=
    h.resolve? (fun id => (h.scopes id).binds name) id
  rw [ScopeGraph.delete_eq, ScopeGraph.delete_eq, hresolve]
  cases graph'.resolve? (fun scope => scope.binds name) id with
  | none => exact h
  | some holder => exact h.modify holder fun _ _ hlike => hlike.erase name

theorem modifyBlock (h : Like kept graph graph') (ref : BlockRef) {change : Block → Block}
    (bare : ∀ block, (change block).bare = change block.bare) :
    Like kept (graph.modifyBlock ref change) (graph'.modifyBlock ref change) :=
  h.modify ref.scope fun _ _ hlike => hlike.modifyBlock ref.index bare

theorem markInitialized (h : Like kept graph graph') (id : ScopeId) (name : String)
    (store : Option ScopeId) :
    Like kept (graph.markInitialized id name store) (graph'.markInitialized id name store) := by
  have hfound := h.findBlock? id name
  unfold ScopeGraph.markInitialized
  cases hleft : graph.findBlock? id name <;> cases hright : graph'.findBlock? id name <;>
    rw [hleft, hright] at hfound
  · exact h
  · cases hfound
  · cases hfound
  · simp only [Option.map_some, Option.some.injEq] at hfound
    simp only [hfound]
    exact h.modifyBlock _ fun _ => rfl

end ScopeGraph.Like

end Bir
