import Bir.Proofs.Modules
import Mathlib.Data.List.Chain
import Mathlib.Data.List.Nodup
import Mathlib.Logic.Relation

/-!
# Engine trees — how engines hang under each other

An engine keeps the engines of the modules that it imports in a map, by numbers of 32 bits, and each
of these keeps its own.  The engine that owns a block is searched for in these maps, depth first,
and nothing is said about the order in which a map is gone through.  This file defines:

* `Engine.number` — the number that an engine gets;
* `State.Forest` — no engine hangs at two places;
* `State.tree` — the engines that hang under an engine, with repetitions if there were any;
* `State.way?` — the search for a number, in a given order of each map.

`State.Forest.nodup_tree` and `State.Forest.way?_eq` are what these are for: all numbers in a tree
differ, and the search comes to the same engine in whatever order.
-/

namespace Bir

/-- The number that an engine gets, from a counter of 32 bits that wraps around. -/
def Engine.number (id : EngineId) : UInt32 := UInt32.ofNat id

theorem Engine.number_injective {id other : EngineId} (small : id < UInt32.size)
    (small' : other < UInt32.size) (h : number id = number other) : id = other := by
  have hvalues := congrArg UInt32.toNat h
  rwa [number, number, UInt32.toNat_ofNat', UInt32.toNat_ofNat', Nat.mod_eq_of_lt small,
    Nat.mod_eq_of_lt small'] at hvalues

namespace State

/-- An engine uses the engine of a module. -/
def Uses (state : State) (id used : EngineId) : Prop := used ∈ (state.engine id).uses

/-- An engine hangs under another one, or is the same. -/
abbrev Reaches (state : State) : EngineId → EngineId → Prop := Relation.ReflTransGen state.Uses

/-- A module is younger than the engine that uses it, and no other engine uses it, nor does that one
use it twice. -/
structure Forest (state : State) : Prop where
  younger : ∀ {id used}, state.Uses id used → id < used
  single : ∀ {id other used}, state.Uses id used → state.Uses other used → id = other
  nodup : ∀ id, (state.engine id).uses.Nodup

/-- The engines that hang under an engine, the engine itself first, no deeper than `depth`. -/
def treeWithin (state : State) : Nat → EngineId → List EngineId
  | 0, _ => []
  | depth + 1, id => id :: (state.engine id).uses.flatMap fun used => treeWithin state depth used

/-- The engines that hang under an engine, the engine itself first. -/
def tree (state : State) (id : EngineId) : List EngineId := state.treeWithin state.engines.size id

/-- A way of going through the maps of all engines. -/
def Orders (state : State) (order : EngineId → List EngineId) : Prop :=
  ∀ id, (order id).Perm (state.engine id).uses

/-- The way down to an engine with a number: it is asked for in the map of the engine, and then
below each engine of the map, no deeper than `depth`. -/
def wayWithin (order : EngineId → List EngineId) (number : UInt32) :
    Nat → EngineId → Option (List EngineId)
  | 0, _ => none
  | depth + 1, id =>
    match (order id).find? fun used => Engine.number used == number with
    | some used => some [used]
    | none => (order id).findSome? fun used => (wayWithin order number depth used).map (used :: ·)

/-- The way down to an engine with a number, from another engine. -/
def way? (state : State) (order : EngineId → List EngineId) (number : UInt32) (id : EngineId) :
    Option (List EngineId) :=
  wayWithin order number state.engines.size id

variable {state : State} {id used target : EngineId}

/-! ## Places -/

namespace UsesExist

theorem lt_of_reaches (h : state.UsesExist) (exists' : id < state.engines.size)
    (reaches : state.Reaches id target) : target < state.engines.size := by
  induction reaches with
  | refl => exact exists'
  | tail _ uses _ => exact h _ _ uses

end UsesExist

/-- What is found below an engine hangs under it. -/
theorem transGen_of_usesWithin {depth : Nat} (h : state.usesWithin target depth id = true) :
    Relation.TransGen state.Uses id target := by
  induction depth generalizing id with
  | zero => simp [usesWithin] at h
  | succ depth ih =>
      simp only [usesWithin, Bool.or_eq_true, List.contains_iff_mem, List.any_eq_true] at h
      rcases h with hmem | ⟨used, hused, hbelow⟩
      · exact .single hmem
      · exact .head hused (ih hbelow)

namespace Forest

variable (h : state.Forest)
include h

theorem le_of_reaches (reaches : state.Reaches id target) : id ≤ target := by
  induction reaches with
  | refl => exact Nat.le_refl _
  | tail _ uses ih => exact ih.trans (h.younger uses).le

theorem lt_of_transGen (below : Relation.TransGen state.Uses id target) : id < target := by
  obtain ⟨used, huses, hreaches⟩ := Relation.TransGen.head'_iff.1 below
  exact (h.younger huses).trans_le (h.le_of_reaches hreaches)

/-- An engine hangs under one of the modules that an engine uses, and not under two. -/
theorem eq_of_reaches {other : EngineId} (uses : state.Uses id used) (uses' : state.Uses id other)
    (reaches : state.Reaches used target) (reaches' : state.Reaches other target) :
    used = other := by
  -- The engine that uses either module is older than both, so neither hangs under the other one.
  have hapart : ∀ {first second}, state.Uses id first → state.Uses id second →
      state.Reaches first second → first = second := by
    intro first second hfirst hsecond hreaches
    rcases hreaches.cases_tail with rfl | ⟨parent, hparent, huses⟩
    · rfl
    · rw [h.single huses hsecond] at hparent
      exact absurd (h.le_of_reaches hparent) (Nat.not_le_of_lt (h.younger hfirst))
  have hunique : Relator.RightUnique (Function.swap state.Uses) :=
    fun _ _ _ first second => h.single first second
  rcases Relation.ReflTransGen.total_of_right_unique hunique
    (Relation.reflTransGen_swap.2 reaches) (Relation.reflTransGen_swap.2 reaches') with hother | hused
  · exact (hapart uses' uses (Relation.reflTransGen_swap.1 hother)).symm
  · exact hapart uses uses' (Relation.reflTransGen_swap.1 hused)

/-- Below a module there is one level less to come to. -/
theorem size_le_of_uses {depth : Nat} (uses : state.Uses id used)
    (deep : state.engines.size ≤ id + (depth + 1)) : state.engines.size ≤ used + depth := by
  calc state.engines.size ≤ id + (depth + 1) := deep
    _ = (id + 1) + depth := by rw [Nat.add_comm depth, Nat.add_assoc]
    _ ≤ used + depth := Nat.add_le_add_right (h.younger uses) depth

/-! ## Trees -/

omit h in
theorem reaches_of_mem_treeWithin {depth : Nat} (hmem : target ∈ state.treeWithin depth id) :
    state.Reaches id target := by
  induction depth generalizing id with
  | zero => cases hmem
  | succ depth ih =>
      rcases List.mem_cons.1 hmem with rfl | hmem
      · exact .refl
      · obtain ⟨used, hused, hbelow⟩ := List.mem_flatMap.1 hmem
        exact .head hused (ih hbelow)

theorem nodup_treeWithin (depth : Nat) (id : EngineId) : (state.treeWithin depth id).Nodup := by
  induction depth generalizing id with
  | zero => exact List.nodup_nil
  | succ depth ih =>
      refine List.nodup_cons.2 ⟨fun hmem => ?_, ?_⟩
      · obtain ⟨used, hused, hbelow⟩ := List.mem_flatMap.1 hmem
        have hle := h.le_of_reaches (reaches_of_mem_treeWithin hbelow)
        exact Nat.not_le_of_lt (h.younger hused) hle
      · refine List.nodup_flatMap.2 ⟨fun used _ => ih used, ?_⟩
        refine (h.nodup id).pairwise_of_forall_ne fun used hused other hother hne => ?_
        intro target hmem hmem'
        exact hne (h.eq_of_reaches hused hother (reaches_of_mem_treeWithin hmem)
          (reaches_of_mem_treeWithin hmem'))

/-- An engine is older than those that hang under it, so there is no depth that a listing misses. -/
theorem mem_treeWithin (exist : state.UsesExist) {depth : Nat} (exists' : id < state.engines.size)
    (deep : state.engines.size ≤ id + depth) (reaches : state.Reaches id target) :
    target ∈ state.treeWithin depth id := by
  induction depth generalizing id with
  | zero => exact absurd exists' (Nat.not_lt_of_le deep)
  | succ depth ih =>
      rcases reaches.cases_head with rfl | ⟨used, huses, hreaches⟩
      · exact List.mem_cons_self
      · have hbelow := ih (exist _ _ huses) (h.size_le_of_uses huses deep) hreaches
        exact List.mem_cons_of_mem _ (List.mem_flatMap.2 ⟨used, huses, hbelow⟩)

theorem mem_tree_iff (exist : state.UsesExist) (exists' : id < state.engines.size) :
    target ∈ state.tree id ↔ state.Reaches id target :=
  ⟨reaches_of_mem_treeWithin, h.mem_treeWithin exist exists' (Nat.le_add_left _ _)⟩

/-- All engines of a tree have different numbers, as long as the counter has not wrapped around. -/
theorem nodup_tree (exist : state.UsesExist) (small : state.engines.size < UInt32.size)
    (exists' : id < state.engines.size) : ((state.tree id).map Engine.number).Nodup := by
  refine (h.nodup_treeWithin _ _).map_on fun first hfirst second hsecond hnumber => ?_
  have hlt : ∀ target ∈ state.tree id, target < UInt32.size := fun target hmem =>
    (exist.lt_of_reaches exists' (reaches_of_mem_treeWithin hmem)).trans small
  exact Engine.number_injective (hlt first hfirst) (hlt second hsecond) hnumber

theorem usesWithin_of_transGen (exist : state.UsesExist) {depth : Nat}
    (exists' : id < state.engines.size) (deep : state.engines.size ≤ id + depth)
    (below : Relation.TransGen state.Uses id target) : state.usesWithin target depth id = true := by
  induction depth generalizing id with
  | zero => exact absurd exists' (Nat.not_lt_of_le deep)
  | succ depth ih =>
      simp only [usesWithin, Bool.or_eq_true, List.contains_iff_mem, List.any_eq_true]
      obtain ⟨used, huses, hreaches⟩ := Relation.TransGen.head'_iff.1 below
      rcases Relation.reflTransGen_iff_eq_or_transGen.1 hreaches with rfl | hbelow
      · exact Or.inl huses
      · exact Or.inr ⟨used, huses, ih (exist _ _ huses) (h.size_le_of_uses huses deep) hbelow⟩

theorem isLoadedBelow_iff (exist : state.UsesExist) (exists' : id < state.engines.size) :
    state.isLoadedBelow id target = true ↔ Relation.TransGen state.Uses id target :=
  ⟨transGen_of_usesWithin, h.usesWithin_of_transGen exist exists' (Nat.le_add_left _ _)⟩

/-! ## Ways -/

omit h in
theorem reaches_of_isChain {path : List EngineId} (chain : (id :: path).IsChain state.Uses)
    (last : (id :: path).getLast? = some target) : state.Reaches id target := by
  induction path generalizing id with
  | nil =>
      cases last
      exact .refl
  | cons used rest ih =>
      obtain ⟨huses, hrest⟩ := List.isChain_cons_cons.1 chain
      exact .head huses (ih hrest last)

omit h in
theorem transGen_of_isChain {path : List EngineId} (chain : (id :: path).IsChain state.Uses)
    (last : path.getLast? = some target) : Relation.TransGen state.Uses id target := by
  cases path with
  | nil => cases last
  | cons used rest =>
      obtain ⟨huses, hrest⟩ := List.isChain_cons_cons.1 chain
      exact Relation.TransGen.head'_iff.2 ⟨used, huses, reaches_of_isChain hrest last⟩

/-- No way comes back to where it begins. -/
theorem last_ne {path : List EngineId} (chain : (id :: used :: path).IsChain state.Uses) :
    (used :: path).getLast? ≠ some id := by
  intro last
  exact absurd (h.lt_of_transGen (transGen_of_isChain chain last)) (Nat.lt_irrefl _)

/-- There is one way from an engine to another. -/
theorem way_unique {path path' : List EngineId} (chain : (id :: path).IsChain state.Uses)
    (chain' : (id :: path').IsChain state.Uses) (last : (id :: path).getLast? = some target)
    (last' : (id :: path').getLast? = some target) : path = path' := by
  induction path generalizing id path' with
  | nil =>
      obtain rfl : id = target := by simpa using last
      cases path' with
      | nil => rfl
      | cons other rest' => exact (h.last_ne chain' last').elim
  | cons used rest ih =>
      cases path' with
      | nil =>
          obtain rfl : id = target := by simpa using last'
          exact (h.last_ne chain last).elim
      | cons other rest' =>
          obtain ⟨huses, hrest⟩ := List.isChain_cons_cons.1 chain
          obtain ⟨huses', hrest'⟩ := List.isChain_cons_cons.1 chain'
          obtain rfl := h.eq_of_reaches huses huses' (reaches_of_isChain hrest last)
            (reaches_of_isChain hrest' last')
          exact congrArg _ (ih hrest hrest' last last')

/-! ## Searches -/

variable {order : EngineId → List EngineId} {number : UInt32}

omit h in
/-- A search comes to an engine with the number, on a way down. -/
theorem wayWithin_sound (orders : state.Orders order) {depth : Nat} {path : List EngineId}
    (found : wayWithin order number depth id = some path) :
    (id :: path).IsChain state.Uses ∧
      ∃ target, path.getLast? = some target ∧ Engine.number target = number := by
  induction depth generalizing id path with
  | zero => cases found
  | succ depth ih =>
      rw [wayWithin] at found
      split at found
      · rename_i used hused
        cases found
        have hmem := (orders id).mem_iff.1 (List.mem_of_find?_eq_some hused)
        have hnumber := List.find?_some hused
        exact ⟨List.isChain_cons_cons.2 ⟨hmem, List.isChain_singleton _⟩, used, rfl,
          by simpa using hnumber⟩
      · obtain ⟨used, hused, hbelow⟩ := List.exists_of_findSome?_eq_some found
        obtain ⟨rest, hrest, rfl⟩ := Option.map_eq_some_iff.1 hbelow
        have hmem := (orders id).mem_iff.1 hused
        obtain ⟨hchain, target, hlast, hnumber⟩ := ih hrest
        refine ⟨List.isChain_cons_cons.2 ⟨hmem, hchain⟩, target, ?_, hnumber⟩
        simp [List.getLast?_cons, hlast]

/-- A search misses no engine that hangs under the one where it begins. -/
theorem wayWithin_complete (exist : state.UsesExist) (orders : state.Orders order) {depth : Nat}
    (exists' : id < state.engines.size) (deep : state.engines.size ≤ id + depth)
    (below : Relation.TransGen state.Uses id target) :
    (wayWithin order (Engine.number target) depth id).isSome = true := by
  induction depth generalizing id with
  | zero => exact absurd exists' (Nat.not_lt_of_le deep)
  | succ depth ih =>
      rw [wayWithin]
      split
      · rfl
      · rename_i hnone
        obtain ⟨used, huses, hreaches⟩ := Relation.TransGen.head'_iff.1 below
        have hused := (orders id).mem_iff.2 huses
        rcases Relation.reflTransGen_iff_eq_or_transGen.1 hreaches with rfl | hbelow
        · exact absurd (beq_self_eq_true _) (List.find?_eq_none.1 hnone _ hused)
        · refine List.findSome?_isSome_iff.2 ⟨used, hused, ?_⟩
          rw [Option.isSome_map]
          exact ih (exist _ _ huses) (h.size_le_of_uses huses deep) hbelow

/-- In whatever order maps are gone through, a search for the number of an engine comes to that
engine on the one way there, or to none if it does not hang under the first one. -/
theorem way?_eq (exist : state.UsesExist) (small : state.engines.size < UInt32.size)
    (exists' : id < state.engines.size) (target' : target < state.engines.size) :
    if state.isLoadedBelow id target then
      ∃ path, path.getLast? = some target ∧
        ∀ order, state.Orders order → state.way? order (Engine.number target) id = some path
    else ∀ order, state.Orders order → state.way? order (Engine.number target) id = none := by
  have hsound : ∀ {order path}, state.Orders order →
      state.way? order (Engine.number target) id = some path →
        (id :: path).IsChain state.Uses ∧ path.getLast? = some target := by
    intro order path horders hfound
    obtain ⟨hchain, last, hlast, hnumber⟩ := wayWithin_sound horders hfound
    have hlt := exist.lt_of_reaches exists' (transGen_of_isChain hchain hlast).to_reflTransGen
    have hlast' := Engine.number_injective (hlt.trans small) (target'.trans small) hnumber
    exact ⟨hchain, hlast' ▸ hlast⟩
  split
  · rename_i hbelow
    have hfinds : ∀ order, state.Orders order →
        ∃ path, state.way? order (Engine.number target) id = some path := fun order horders =>
      Option.isSome_iff_exists.1 (h.wayWithin_complete exist horders exists' (Nat.le_add_left _ _)
        ((h.isLoadedBelow_iff exist exists').1 hbelow))
    obtain ⟨path, hpath⟩ := hfinds _ fun _ => .refl _
    obtain ⟨hchain, hlast⟩ := hsound (fun _ => .refl _) hpath
    refine ⟨path, hlast, fun order horders => ?_⟩
    obtain ⟨path', hpath'⟩ := hfinds order horders
    obtain ⟨hchain', hlast'⟩ := hsound horders hpath'
    have hwhole : ∀ {path : List EngineId}, path.getLast? = some target →
        (id :: path).getLast? = some target := fun hlast => by simp [List.getLast?_cons, hlast]
    rw [hpath', h.way_unique hchain' hchain (hwhole hlast') (hwhole hlast)]
  · rename_i hbelow
    intro order horders
    refine Option.eq_none_iff_forall_ne_some.2 fun path hfound => hbelow ?_
    obtain ⟨hchain, hlast⟩ := hsound horders hfound
    exact (h.isLoadedBelow_iff exist exists').2 (transGen_of_isChain hchain hlast)

end Forest

end State

end Bir
