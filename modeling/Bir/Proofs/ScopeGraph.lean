import Bir.Scope.Graph

/-!
# Scope graphs — what changes in a graph, and what does not

This file has:

* `Scope.names` — the names that a scope binds, in the order of its bindings;
* what is read of a graph after `modify`, `add` and `modifyBlock`;
* `ScopeGraph.resolve?_eq_head?` and `ScopeGraph.holdersWithin_congr` — the two walks compared, and
  what a walk depends on;
* `ScopeGraph.update_induction` and `ScopeGraph.delete_cases` — writes and removals as changes of
  single scopes;
* `ScopeGraph.findBlock?_eq_some` and `ScopeGraph.markInitialized_cases`;
* `ScopeGraph.EveryBlock` — a property of all blocks, and what keeps it.

A number that no scope has is read as an empty scope.
-/

namespace Bir

namespace Scope

/-! ## One scope -/

theorem declares_eq_true {scope : Scope} {name : String} :
    scope.declares name = true ↔ ∃ index, scope.blockIndex? name = some index := by
  rw [← Option.isSome_iff_exists]
  simp [declares, blockIndex?]

/-- The names that a scope binds, in the order of its bindings. -/
def names (scope : Scope) : List String := scope.bindings.map fun binding => binding.name

theorem names_overwrite (scope : Scope) (name : String) (value : Int64) :
    (scope.overwrite name value).names = scope.names := by
  apply List.ext_getElem?
  intro index
  by_cases hindex : scope.bindings.findIdx (fun binding => binding.name == name) = index
  · cases hbinding : scope.bindings[index]? <;> simp [names, overwrite, hindex, hbinding]
  · simp [names, overwrite, hindex]

theorem binds_eq_contains (scope : Scope) (other : String) :
    scope.binds other = scope.names.contains other := by
  rw [Bool.eq_iff_iff]
  simp [binds, names]

@[simp]
theorem binds_overwrite {scope : Scope} {name : String} {value : Int64} (other : String) :
    (scope.overwrite name value).binds other = scope.binds other := by
  simp only [binds_eq_contains, names_overwrite]

/-- A scope takes writes to a name, as far as it binds it. -/
structure Writable (scope : Scope) (name : String) : Prop where
  mutable : scope.immutable = false
  unconst : ∀ binding ∈ scope.binding? name, binding.kind ≠ .const

end Scope

namespace ScopeGraph

variable (graph : ScopeGraph)

/-! ## Reading after a change -/

@[simp]
theorem size_modify (id : ScopeId) (change : Scope → Scope) :
    (graph.modify id change).scopes.size = graph.scopes.size := by
  simp [modify]

@[simp]
theorem size_add (scope : Scope) : (graph.add scope).1.scopes.size = graph.scopes.size + 1 := by
  simp [add]

theorem get_of_size_le {id : ScopeId} (h : graph.scopes.size ≤ id) : graph.get id = {} := by
  simp [get, Array.getD_eq_getD_getElem?, h]

theorem get_modify (id id' : ScopeId) (change : Scope → Scope) :
    (graph.modify id change).get id' =
      if id = id' ∧ id' < graph.scopes.size then change (graph.get id') else graph.get id' := by
  simp only [get, modify, Array.getD_eq_getD_getElem?, Array.getElem?_modify]
  by_cases hid : id = id'
  · by_cases hsize : id' < graph.scopes.size
    · simp [hid, hsize]
    · simp [hsize]
  · simp [hid]

theorem get_modify_ne {id id' : ScopeId} (change : Scope → Scope) (h : id ≠ id') :
    (graph.modify id change).get id' = graph.get id' := by
  simp [get_modify, h]

theorem get_add (scope : Scope) (id : ScopeId) :
    (graph.add scope).1.get id = if id = graph.scopes.size then scope else graph.get id := by
  simp only [get, add, Array.getD_eq_getD_getElem?, Array.getElem?_push]
  split <;> rfl

theorem get_add_new (scope : Scope) : (graph.add scope).1.get graph.scopes.size = scope := by
  rw [get_add, if_pos rfl]

theorem get_add_of_lt (scope : Scope) {id : ScopeId} (h : id < graph.scopes.size) :
    (graph.add scope).1.get id = graph.get id := by
  rw [get_add, if_neg (Nat.ne_of_lt h)]

/-- A part of all scopes that a change leaves as it is stays as it is in the graph. -/
theorem get_modify_congr {β : Type} (part : Scope → β) (id id' : ScopeId)
    {change : Scope → Scope} (h : ∀ scope, part (change scope) = part scope) :
    part ((graph.modify id change).get id') = part (graph.get id') := by
  rw [get_modify]
  split
  · exact h _
  · rfl

/-- A part of scopes that a new scope has as one that is not there stays as it is in the graph. -/
theorem get_add_congr {β : Type} (part : Scope → β) {scope : Scope} (id : ScopeId)
    (h : part scope = part {}) : part ((graph.add scope).1.get id) = part (graph.get id) := by
  rw [get_add]
  split
  · rename_i hid
    rw [graph.get_of_size_le (Nat.le_of_eq hid.symm), h]
  · rfl

/-! ## Walks -/

/-- All scopes with a property, from `id` on, depth first and no deeper than `depth`; the walk goes
on past none of them. -/
def holdersWithin (holds : Scope → Bool) : Nat → ScopeId → List ScopeId
  | 0, _ => []
  | depth + 1, id =>
    let scope := graph.get id
    if holds scope then [id]
    else scope.parents.flatMap (fun parent => holdersWithin holds depth parent)

/-- All scopes with a property that a lookup from `id` meets, where it stops at each of them. -/
def holders (holds : Scope → Bool) (id : ScopeId) : List ScopeId :=
  graph.holdersWithin holds graph.scopes.size id

/-- The first scope that a lookup finds is the first of all that it would find. -/
theorem resolveWithin_eq_head? (holds : Scope → Bool) (depth : Nat) (id : ScopeId) :
    graph.resolveWithin holds depth id = (graph.holdersWithin holds depth id).head? := by
  induction depth generalizing id with
  | zero => rfl
  | succ depth ih =>
      simp only [resolveWithin, holdersWithin]
      split
      · rfl
      · simp only [List.head?_flatMap, ih]

theorem resolve?_eq_head? (holds : Scope → Bool) (id : ScopeId) :
    graph.resolve? holds id = (graph.holders holds id).head? :=
  resolveWithin_eq_head? graph holds _ id

/-- Lookups that may go on for as long come to the same among scopes that are the same. -/
theorem holdersWithin_congr {graph graph' : ScopeGraph} (inside : ScopeId → Prop)
    {holds : Scope → Bool}
    (closed : ∀ id, inside id → ∀ parent ∈ (graph.get id).parents, inside parent)
    (parents : ∀ id, inside id → (graph'.get id).parents = (graph.get id).parents)
    (same : ∀ id, inside id → holds (graph'.get id) = holds (graph.get id)) (depth : Nat)
    {id : ScopeId} (start : inside id) :
    graph'.holdersWithin holds depth id = graph.holdersWithin holds depth id := by
  induction depth generalizing id with
  | zero => rfl
  | succ depth ih =>
      have hparents : ∀ parent ∈ (graph.get id).parents,
          graph'.holdersWithin holds depth parent = graph.holdersWithin holds depth parent :=
        fun parent hparent => ih (closed id start parent hparent)
      simp only [holdersWithin, parents id start, same id start, List.flatMap_def,
        List.map_congr_left hparents]

/-! ## Writes -/

/-- A write to one scope changes nothing, or a scope that takes it. -/
theorem write_cases (holder : ScopeId) (name : String) (value : Int64) :
    (graph.write holder name value).1 = graph ∨
      (graph.get holder).Writable name ∧ (graph.write holder name value).1 =
        graph.modify holder fun scope => scope.overwrite name value := by
  cases hbinding : (graph.get holder).binding? name with
  | none => simp [write, hbinding]
  | some binding =>
      by_cases hconst : binding.kind = .const
      · simp [write, hbinding, Scope.permission, hconst]
      · cases himmutable : (graph.get holder).immutable with
        | true => simp [write, hbinding, Scope.permission, hconst, himmutable]
        | false =>
            have hwritable : (graph.get holder).Writable name := ⟨himmutable, by simp [hbinding, hconst]⟩
            refine Or.inr ⟨hwritable, ?_⟩
            simp [write, hbinding, Scope.permission, hconst, himmutable]

/-- A part of all scopes that a write leaves as it is stays as it is in the graph. -/
theorem get_write_congr {β : Type} (part : Scope → β) {name : String} {value : Int64}
    (h : ∀ scope : Scope, part (scope.overwrite name value) = part scope)
    (holder id : ScopeId) : part ((graph.write holder name value).1.get id) = part (graph.get id) := by
  rcases graph.write_cases holder name value with hsame | ⟨-, hwritten⟩
  · rw [hsame]
  · rw [hwritten, get_modify_congr graph part holder id h]

/-- Writes to some scopes, one after the other, that report after what was reported before. -/
def writeEach (name : String) (value : Int64) (ids : List ScopeId) (outcome : UpdateOutcome) :
    ScopeGraph × UpdateOutcome :=
  ids.foldl
    (fun (graph, outcome) holder =>
      let (graph, report) := graph.write holder name value
      (graph, outcome.combine report))
    (graph, outcome)

variable (name : String) (value : Int64)

theorem writeEach_cons (id : ScopeId) (ids : List ScopeId) (outcome : UpdateOutcome) :
    graph.writeEach name value (id :: ids) outcome =
      (graph.write id name value).1.writeEach name value ids
        (outcome.combine (graph.write id name value).2) := rfl

theorem writeEach_append (ids ids' : List ScopeId) (outcome : UpdateOutcome) :
    graph.writeEach name value (ids ++ ids') outcome =
      (graph.writeEach name value ids outcome).1.writeEach name value ids'
        (graph.writeEach name value ids outcome).2 :=
  List.foldl_append

/-- What was reported before does not matter to the graph, and counts before all that follows. -/
theorem writeEach_outcome (ids : List ScopeId) (outcome : UpdateOutcome) :
    graph.writeEach name value ids outcome =
      ((graph.writeEach name value ids .unbound).1,
        outcome.combine (graph.writeEach name value ids .unbound).2) := by
  induction ids generalizing graph outcome with
  | nil => simp [writeEach]
  | cons id ids ih =>
      rw [writeEach_cons, writeEach_cons, ih, ih _ (UpdateOutcome.combine _ _)]
      simp [UpdateOutcome.combine_assoc]

theorem get_writeEach_congr {β : Type} (part : Scope → β)
    (h : ∀ scope : Scope, part (scope.overwrite name value) = part scope)
    (ids : List ScopeId) (outcome : UpdateOutcome) (id : ScopeId) :
    part ((graph.writeEach name value ids outcome).1.get id) = part (graph.get id) := by
  induction ids generalizing graph outcome with
  | nil => rfl
  | cons holder ids ih =>
      rw [writeEach_cons, ih]
      exact graph.get_write_congr part h holder id

/-- Writes of a name do not change where a lookup of it goes. -/
theorem holdersWithin_writeEach (ids : List ScopeId) (depth : Nat) (id : ScopeId) :
    (graph.writeEach name value ids .unbound).1.holdersWithin (fun scope => scope.binds name) depth
        id =
      graph.holdersWithin (fun scope => scope.binds name) depth id :=
  holdersWithin_congr (fun _ => True) (fun _ _ _ _ => trivial)
    (fun id _ => graph.get_writeEach_congr name value _ (fun _ => rfl) ids _ id)
    (fun id _ => graph.get_writeEach_congr name value _
      (fun _ => Scope.binds_overwrite name) ids _ id) depth trivial

/-- An update writes to the scopes that a lookup of the name meets, one after the other. -/
theorem updateWithin_eq (depth : Nat) (id : ScopeId) :
    updateWithin name value depth graph id =
      graph.writeEach name value (graph.holdersWithin (fun scope => scope.binds name) depth id)
        .unbound := by
  induction depth generalizing graph id with
  | zero => rfl
  | succ depth ih =>
      simp only [updateWithin, holdersWithin]
      split
      · simp [writeEach]
      · -- The next parent is asked in the graph that the scopes met so far have been written in.
        rw [← List.nil_append (List.flatMap _ _)]
        change List.foldl _ (graph.writeEach name value [] .unbound) _ = _
        generalize (graph.get id).parents = parents, ([] : List ScopeId) = met
        induction parents generalizing met with
        | nil => simp
        | cons parent parents ihParents =>
            rw [List.foldl_cons, List.flatMap_cons, ← List.append_assoc, ← ihParents,
              writeEach_append, writeEach_outcome _ _ _ (graph.holdersWithin _ depth parent),
              ← graph.holdersWithin_writeEach name value met depth parent, ← ih]

theorem update_eq (id : ScopeId) :
    graph.update id name value =
      graph.writeEach name value (graph.holders (fun scope => scope.binds name) id) .unbound :=
  updateWithin_eq graph name value graph.scopes.size id

/-- What survives each single write to a scope that takes it survives an update. -/
theorem update_induction {motive : ScopeGraph → Prop} (id : ScopeId) (name : String)
    (value : Int64) (start : motive graph)
    (write : ∀ graph holder, motive graph → (graph.get holder).Writable name →
      motive (graph.modify holder fun scope => scope.overwrite name value)) :
    motive (graph.update id name value).1 := by
  rw [update_eq]
  refine List.foldlRecOn (motive := fun after : ScopeGraph × UpdateOutcome => motive after.1) _ _
    start ?_
  rintro ⟨graph, outcome⟩ h holder -
  rcases graph.write_cases holder name value with hsame | ⟨hwritable, hwritten⟩
  · exact hsame.symm ▸ h
  · exact hwritten.symm ▸ write graph holder h hwritable

@[simp]
theorem size_update (id : ScopeId) (name : String) (value : Int64) :
    (graph.update id name value).1.scopes.size = graph.scopes.size := by
  refine update_induction (motive := fun after => after.scopes.size = graph.scopes.size) graph id
    name value rfl ?_
  intro after holder h _
  simpa using h

theorem get_update_congr {β : Type} (part : Scope → β)
    (h : ∀ (scope : Scope) name value, part (scope.overwrite name value) = part scope)
    (id id' : ScopeId) (name : String) (value : Int64) :
    part ((graph.update id name value).1.get id') = part (graph.get id') := by
  refine update_induction (motive := fun after => part (after.get id') = part (graph.get id'))
    graph id name value rfl ?_
  intro after holder hafter _
  rw [get_modify_congr after part holder id' fun scope => h scope name value, hafter]

/-- A write never changes an immutable scope. -/
theorem get_update_of_immutable (id : ScopeId) {id' : ScopeId} (name : String) (value : Int64)
    (h : (graph.get id').immutable = true) :
    (graph.update id name value).1.get id' = graph.get id' := by
  refine update_induction (motive := fun after => after.get id' = graph.get id')
    graph id name value rfl ?_
  intro after holder hafter hwritable
  rw [get_modify_ne, hafter]
  rintro rfl
  have hmutable := hwritable.mutable
  rw [hafter, h] at hmutable
  cases hmutable

/-! ## Removals -/

/-- A removal that has been made is the last thing that a walk over parents does. -/
theorem foldl_removed (name : String) (depth : Nat) (parents : List ScopeId) :
    parents.foldl
      (fun (graph, removed) parent =>
        if removed then (graph, removed) else removeWithin name depth graph parent)
      (graph, true) = (graph, true) := by
  induction parents with
  | nil => rfl
  | cons parent parents ih => exact ih

/-- A walk that removes a binding stops where a lookup of the name does. -/
theorem removeWithin_eq (name : String) (depth : Nat) (id : ScopeId) :
    removeWithin name depth graph id =
      match graph.resolveWithin (fun scope => scope.binds name) depth id with
      | some holder => (graph.modify holder fun scope => scope.erase name, true)
      | none => (graph, false) := by
  induction depth generalizing id with
  | zero => rfl
  | succ depth ih =>
      simp only [removeWithin, resolveWithin]
      split
      · rfl
      · -- Nothing has changed yet where the next parent is asked.
        induction (graph.get id).parents with
        | nil => rfl
        | cons parent parents ihParents =>
            rw [List.foldl_cons, List.findSome?_cons, if_neg Bool.false_ne_true, ih]
            cases graph.resolveWithin (fun scope => scope.binds name) depth parent with
            | some holder => exact foldl_removed _ name depth parents
            | none => exact ihParents

/-- What a lookup of a name finds is removed. -/
theorem delete_eq (id : ScopeId) (name : String) :
    graph.delete id name =
      match graph.resolve? (fun scope => scope.binds name) id with
      | some holder => graph.modify holder fun scope => scope.erase name
      | none => graph := by
  rw [delete, removeWithin_eq, resolve?]
  cases graph.resolveWithin (fun scope => scope.binds name) graph.scopes.size id <;> rfl

theorem resolve?_self {holds : Scope → Bool} {id : ScopeId} (h : holds (graph.get id) = true)
    (hsize : id < graph.scopes.size) : graph.resolve? holds id = some id := by
  unfold resolve?
  cases hdepth : graph.scopes.size with
  | zero => simp [hdepth] at hsize
  | succ depth => simp [resolveWithin, h]

theorem binds_lt {id : ScopeId} {name : String} (h : (graph.get id).binds name = true) :
    id < graph.scopes.size := by
  rcases Nat.lt_or_ge id graph.scopes.size with hlt | hge
  · exact hlt
  · simp [get_of_size_le graph hge, Scope.binds] at h

theorem foreign_lt {id : ScopeId} (h : (graph.get id).foreign = true) :
    id < graph.scopes.size := by
  rcases Nat.lt_or_ge id graph.scopes.size with hlt | hge
  · exact hlt
  · simp [get_of_size_le graph hge] at h

theorem declares_lt {id : ScopeId} {name : String} (h : (graph.get id).declares name = true) :
    id < graph.scopes.size := by
  rcases Nat.lt_or_ge id graph.scopes.size with hlt | hge
  · exact hlt
  · simp [get_of_size_le graph hge, Scope.declares] at h

/-- A name that a scope binds itself is removed from that scope. -/
theorem delete_eq_of_binds {id : ScopeId} {name : String}
    (h : (graph.get id).binds name = true) :
    graph.delete id name = graph.modify id fun scope => scope.erase name := by
  have hresolve : graph.resolve? (fun scope => scope.binds name) id = some id :=
    graph.resolve?_self h (graph.binds_lt h)
  simp [delete_eq, hresolve]

/-- A removal changes no scope, or removes one binding of one scope. -/
theorem delete_cases (id : ScopeId) (name : String) :
    graph.delete id name = graph ∨
      ∃ holder, graph.delete id name = graph.modify holder fun scope => scope.erase name := by
  rw [delete_eq]
  split
  · rename_i holder _
    exact Or.inr ⟨holder, rfl⟩
  · exact Or.inl rfl

/-! ## Blocks -/

@[simp]
theorem size_modifyBlock (ref : BlockRef) (change : Block → Block) :
    (graph.modifyBlock ref change).scopes.size = graph.scopes.size := by
  simp [modifyBlock]

/-- A found block is the first of its name in a scope that declares the name. -/
theorem findBlock?_eq_some {id : ScopeId} {name : String} {found : FoundBlock}
    (h : graph.findBlock? id name = some found) :
    graph.resolve? (fun scope => scope.declares (unmarked name)) id = some found.block.scope ∧
      (graph.get found.block.scope).blockIndex? (unmarked name) = some found.block.index ∧
      found.foreign = (graph.get found.block.scope).foreign := by
  simp only [findBlock?] at h
  split at h
  · cases h
  · rename_i holder hholder
    split at h
    · rename_i index hindex
      cases h
      exact ⟨hholder, hindex, rfl⟩
    · cases h

/-- A block that a scope declares itself is found there. -/
theorem findBlock?_self {id : ScopeId} {name : String}
    (h : (graph.get id).declares (unmarked name) = true) :
    ∃ found, graph.findBlock? id name = some found ∧ found.block.scope = id := by
  obtain ⟨index, hindex⟩ := Scope.declares_eq_true.1 h
  have hresolve : graph.resolve? (fun scope => scope.declares (unmarked name)) id = some id :=
    graph.resolve?_self h (graph.declares_lt h)
  refine ⟨⟨⟨id, index⟩, (graph.get id).foreign⟩, ?_, rfl⟩
  simp [findBlock?, hresolve, hindex]

/-- Marking a block as initialized changes no scope, or one block of one scope. -/
theorem markInitialized_cases (id : ScopeId) (name : String) (store : Option ScopeId) :
    graph.markInitialized id name store = graph ∨
      ∃ found, graph.findBlock? id name = some found ∧
        graph.markInitialized id name store =
          graph.modifyBlock found.block fun block => { block with initialized := true, store } := by
  unfold markInitialized
  split
  · rename_i found hfound
    exact Or.inr ⟨found, hfound, rfl⟩
  · exact Or.inl rfl

@[simp]
theorem size_markInitialized (id : ScopeId) (name : String) (store : Option ScopeId) :
    (graph.markInitialized id name store).scopes.size = graph.scopes.size := by
  rcases graph.markInitialized_cases id name store with h | ⟨found, -, h⟩ <;> simp [h]

@[simp]
theorem size_delete (id : ScopeId) (name : String) :
    (graph.delete id name).scopes.size = graph.scopes.size := by
  rcases graph.delete_cases id name with h | ⟨holder, h⟩ <;> simp [h]

/-! ## Every block -/

/-- Every block of every scope has a property. -/
def EveryBlock (holds : Block → Prop) (graph : ScopeGraph) : Prop :=
  ∀ id, ∀ block ∈ (graph.get id).blocks, holds block

namespace EveryBlock

variable {graph : ScopeGraph} {holds : Block → Prop} (h : graph.EveryBlock holds)
include h

theorem mono {holds' : Block → Prop} (weaker : ∀ block, holds block → holds' block) :
    graph.EveryBlock holds' :=
  fun id block hmem => weaker block (h id block hmem)

/-- A scope may get blocks that have the property. -/
theorem modify (id : ScopeId) {change : Scope → Scope}
    (hchange : ∀ scope, ∀ block ∈ (change scope).blocks, block ∈ scope.blocks ∨ holds block) :
    (graph.modify id change).EveryBlock holds := by
  intro id' block hmem
  rw [get_modify] at hmem
  split at hmem
  · rcases hchange _ block hmem with hold | hnew
    · exact h id' block hold
    · exact hnew
  · exact h id' block hmem

theorem add {scope : Scope} (hscope : scope.blocks = []) :
    (graph.add scope).1.EveryBlock holds := by
  intro id block hmem
  rw [get_add] at hmem
  split at hmem
  · simp [hscope] at hmem
  · exact h id block hmem

theorem modifyBlock (ref : BlockRef) {change : Block → Block}
    (hchange : ∀ block, holds block → holds (change block)) :
    (graph.modifyBlock ref change).EveryBlock holds := by
  intro id block hmem
  unfold ScopeGraph.modifyBlock at hmem
  rw [get_modify] at hmem
  split at hmem
  · obtain ⟨index, hindex⟩ := List.mem_iff_getElem?.1 hmem
    cases hold : (graph.get id).blocks[index]? with
    | none => simp [Scope.modifyBlock, List.getElem?_modify, hold] at hindex
    | some old =>
        have hheld : holds old := h id old (List.mem_of_getElem? hold)
        simp only [Scope.modifyBlock, List.getElem?_modify, hold] at hindex
        split at hindex
        · cases hindex
          exact hchange old hheld
        · cases hindex
          exact hheld
  · exact h id block hmem

theorem update (id : ScopeId) (name : String) (value : Int64) :
    (graph.update id name value).1.EveryBlock holds := by
  intro id' block hmem
  rw [get_update_congr graph Scope.blocks (by intro _ _ _; rfl)] at hmem
  exact h id' block hmem

theorem delete (id : ScopeId) (name : String) : (graph.delete id name).EveryBlock holds := by
  rcases graph.delete_cases id name with hsame | ⟨holder, herased⟩
  · exact hsame.symm ▸ h
  · exact herased.symm ▸ h.modify holder fun _ _ => Or.inl

theorem markInitialized (id : ScopeId) (name : String) {store : Option ScopeId}
    (hchange : ∀ block, holds block → holds { block with initialized := true, store }) :
    (graph.markInitialized id name store).EveryBlock holds := by
  rcases graph.markInitialized_cases id name store with hsame | ⟨found, -, hmarked⟩
  · exact hsame.symm ▸ h
  · exact hmarked.symm ▸ h.modifyBlock found.block hchange

/-- A block that is read from a graph has the property if a block that is not there has it. -/
theorem block (missing : holds default) (ref : BlockRef) : holds (graph.block ref) := by
  unfold ScopeGraph.block
  cases hblock : (graph.get ref.scope).blocks[ref.index]? with
  | none => exact missing
  | some found => exact h ref.scope found (List.mem_of_getElem? hblock)

end EveryBlock

end ScopeGraph

end Bir
