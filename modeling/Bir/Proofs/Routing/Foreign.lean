import Bir.Proofs.Exits.Misuse
import Bir.Proofs.Routing.Owners

/-!
# Foreign blocks — a call finds the engine that its block belongs to

A block counts as foreign if it was found in a scope whose flag is raised.  Then the engine that
owns it is searched for below the caller, by its number, and runs it.  This file defines:

* `State.FindsOwner` — such a search comes to the one engine that has the block in its root scope.

`foreign_blocks_are_routed_to_their_owners` is the result.
-/

namespace Bir

/-- The owner of a block is the only engine that has it in its root scope.  In whatever order maps
are gone through, a search for its number from an engine comes to it on the same way, and it comes to
none if the owner does not hang under that engine. -/
structure State.FindsOwner (state : State) (caller : EngineId) (found : FoundBlock) : Prop where
  sole : ∀ id < state.engines.size,
    (state.engine id).root = found.block.scope ↔ id = (state.graph.block found.block).owner
  way : if state.isLoadedBelow caller (state.graph.block found.block).owner then
      ∃ path, path.getLast? = some (state.graph.block found.block).owner ∧
        ∀ order, state.Orders order →
          state.way? order (Engine.number (state.graph.block found.block).owner) caller = some path
    else ∀ order, state.Orders order →
      state.way? order (Engine.number (state.graph.block found.block).owner) caller = none

namespace ScopeGraph

/-- A block that is found stands in the scope where it is found. -/
theorem block_mem_of_findBlock? {graph : ScopeGraph} {id : ScopeId} {name : String}
    {found : FoundBlock} (h : graph.findBlock? id name = some found) :
    graph.block found.block ∈ (graph.get found.block.scope).blocks := by
  obtain ⟨-, hindex, -⟩ := graph.findBlock?_eq_some h
  obtain ⟨hlt, -⟩ := List.findIdx?_eq_some_iff_getElem.1 hindex
  simp [ScopeGraph.block, hlt]

end ScopeGraph

namespace Moment.Routed

variable {moment : Moment} {scope : ScopeId} {name : String} {found : FoundBlock}

/-- A foreign block belongs to the engine in whose root scope it stands. -/
theorem owner_eq (h : moment.Routed)
    (finds : moment.state.graph.findBlock? scope name = some found) {id : EngineId}
    (exists' : id < moment.state.engines.size)
    (root : (moment.state.engine id).root = found.block.scope) :
    (moment.state.graph.block found.block).owner = id := by
  have hblock := ScopeGraph.block_mem_of_findBlock? finds
  rw [← root] at hblock
  exact h.owned id exists' _ (List.mem_map_of_mem hblock)

theorem foreign_iff (h : moment.Routed)
    (finds : moment.state.graph.findBlock? scope name = some found) :
    found.foreign = true ↔
      moment.state.Foreign (borrowers moment.pending moment.self) found.block.scope := by
  rw [(moment.state.graph.findBlock?_eq_some finds).2.2]
  exact h.flagged found.block.scope

theorem findsOwner (h : moment.Routed) (small : moment.state.engines.size < UInt32.size)
    (finds : moment.state.graph.findBlock? scope name = some found)
    (foreign : found.foreign = true) : moment.state.FindsOwner moment.self found := by
  obtain ⟨module, hexposed, hroot, -⟩ := (h.foreign_iff finds).1 foreign
  have hmodule := h.lt_of_exposed hexposed
  have howner := h.owner_eq finds hmodule hroot
  refine ⟨fun id hid => ⟨fun hother => (h.owner_eq finds hid hother).symm, ?_⟩, ?_⟩
  · rintro rfl
    exact howner ▸ hroot
  · rw [howner]
    exact h.forest.way?_eq h.manned.uses small h.manned.self hmodule

end Moment.Routed

theorem Moment.Routed.leads {moment moment' : Moment} (h : moment.Routed)
    (leads : moment.Leads moment') : moment'.Routed :=
  leads.keeps Moment.Routed h Moment.Routed.move Moment.Routed.loadMove

/-- What a script leaves behind is routed. -/
theorem State.AtRest.routed {state : State} (h : state.AtRest) :
    Moment.Routed ⟨[], Script.main, state⟩ := by
  induction h with
  | initial config files source path content => exact .initial config files source path content
  | @performed state state' bound step start ends ih =>
      have hleads := Moment.leads_of_perform start.idle.1.sound bound step
      exact ih.leads (Outcome.leaves_of_state? hleads ends)

/-- At every moment that a run comes to from a state that a script has left, as long as there are
fewer engines than numbers: the engines that hang under one have different numbers, and the blocks in
the root scope of an engine belong to it; a block that is found, from whatever scope, counts as foreign
just if it stands in the root scope of a module that is imported and runs no call lent to it; and then
a search for the owner finds the only engine that has it in its root scope. -/
theorem foreign_blocks_are_routed_to_their_owners {state : State} (rest : state.AtRest) :
    (∀ bound step self point, Script.Visits bound step state self point →
      ∃ pending, Moment.Leads ⟨[], Script.main, state⟩ ⟨pending, self, point⟩) ∧
    ∀ moment, Moment.Leads ⟨[], Script.main, state⟩ moment →
      moment.state.engines.size < UInt32.size →
      (∀ id < moment.state.engines.size,
        (∀ target, target ∈ moment.state.tree id ↔ moment.state.Reaches id target) ∧
        ((moment.state.tree id).map Engine.number).Nodup ∧
        ∀ block ∈ (moment.state.graph.get (moment.state.engine id).root).blocks,
          block.owner = id) ∧
      ∀ scope name found, moment.state.graph.findBlock? scope name = some found →
        (found.foreign = true ↔
          moment.state.Foreign (borrowers moment.pending moment.self) found.block.scope) ∧
        (found.foreign = true → moment.state.FindsOwner moment.self found) := by
  obtain ⟨hidle, hmanned⟩ := rest.idle
  constructor
  · intro bound step self point hvisits
    obtain ⟨entered, pending, hcomes⟩ := hvisits.staged hidle hmanned
    exact ⟨pending, hcomes.leads.moments⟩
  · intro moment hleads hsmall
    have hrouted := rest.routed.leads hleads
    have hexist := hrouted.manned.uses
    refine ⟨fun id hid => ⟨fun target => ?_, ?_, fun block hblock => ?_⟩,
      fun scope name found hfinds => ⟨?_, fun hforeign => ?_⟩⟩
    · exact hrouted.forest.mem_tree_iff hexist hid
    · exact hrouted.forest.nodup_tree hexist hsmall hid
    · exact hrouted.owned id hid _ (List.mem_map_of_mem hblock)
    · exact hrouted.foreign_iff hfinds
    · exact hrouted.findsOwner hsmall hfinds hforeign

/-- A block of a module that a module imports, as an instance: before it is called, it is foreign to
the program and found two engines further down, and while its engine runs the call, it is not. -/
theorem foreign_blocks_are_routed_to_their_owners_of_import :
    ∃ state : State, state.AtRest ∧
      (∃ found, state.graph.findBlock? (state.currentScope Script.main) "g" = some found ∧
        (state.graph.block found.block).owner = 2 ∧ state.FindsOwner Script.main found ∧
        ∀ order, state.Orders order →
          state.way? order (Engine.number 2) Script.main = some [1, 2]) ∧
      ∃ pending point found, Moment.Leads ⟨[], Script.main, state⟩ ⟨pending, 2, point⟩ ∧
        point.graph.findBlock? (point.currentScope 2) "g" = some found ∧
        ¬ point.Foreign (borrowers pending 2) found.block.scope := by
  let files := FileTree.putFile (FileTree.putFile {} ["bir", "m.bir"] (.file "use \"n\"".toUTF8))
    ["bir", "n.bir"] (.file "g[] { return 7 }".toUTF8)
  let start := State.initial {} files (.prepared []) "main.bir" "use \"m\"\ng()"
  let finds : State → EngineId → Option FoundBlock := fun state self =>
    state.graph.findBlock? (state.currentScope self) "g"
  let watch : Watch := fun self _ state =>
    decide (self = 2 ∧ state.engines.size = 3 ∧ (finds state self).map FoundBlock.foreign = some false)
  let facts : State → Prop := fun state =>
    (Script.performUnder watch 20 .run state).isStopped = true ∧ state.engines.size = 3 ∧
      ((finds state Script.main).map fun found =>
        (found.foreign, (state.graph.block found.block).owner)) = some (true, 2) ∧
      state.way? (fun id => (state.engine id).uses) (Engine.number 2) Script.main = some [1, 2]
  have hload : ((Script.perform 20 .load start).state?.map fun state => decide (facts state)) =
      some true := by decide +kernel
  obtain ⟨state, hstate, hfacts⟩ := Option.map_eq_some_iff.1 hload
  simp only [facts, decide_eq_true_eq, Option.map_eq_some_iff, Prod.mk.injEq] at hfacts
  obtain ⟨hstopped, hsize, ⟨found, hfound, hforeign, howner⟩, hway⟩ := hfacts
  have hrest : state.AtRest := .performed (.initial ..) hstate
  obtain ⟨hcomes, hroutes⟩ := foreign_blocks_are_routed_to_their_owners hrest
  have hfinds := ((hroutes _ .refl (by simp [hsize, UInt32.size])).2 _ _ _ hfound).2 hforeign
  refine ⟨state, hrest, ⟨found, hfound, howner, hfinds, fun order horders => ?_⟩, ?_⟩
  · have hsearch := hfinds.way
    rw [howner] at hsearch
    split at hsearch
    · obtain ⟨path, -, hpath⟩ := hsearch
      rw [hpath order horders, ← hpath _ fun _ => .refl _, hway]
    · rw [hsearch _ fun _ => .refl _] at hway
      cases hway
  · obtain ⟨self, code, point, hwatch, hmeets⟩ := Script.exists_meets hrest.idle.1.sound hstopped
    simp only [watch, decide_eq_true_eq, Option.map_eq_some_iff] at hwatch
    obtain ⟨rfl, hsize', found', hfound', hhome⟩ := hwatch
    obtain ⟨pending, hleads⟩ := hcomes 20 .run 2 point (.meets hmeets)
    refine ⟨pending, point, found', hleads, hfound', fun hother => ?_⟩
    have hflag := ((hroutes _ hleads (by simp [hsize', UInt32.size])).2 _ _ _ hfound').1.2 hother
    simp [hhome] at hflag

end Bir
