import Bir.Engine.Action

/-!
# Slots — the numbered state of a block

The operations `$read`, `$write` and `$delete` act on numbered slots of the block that is running.
A slot is a binding of the block's store whose name is `value_` and the number. This file defines:

* `Slot.name` — the name of a slot;
* `Slot.target?` — the block that slot operations act on: that of the innermost frame which names
  a block;
* `Slot.access` — one operation.

A slot operation never goes on from the store to its parents.
-/

namespace Bir
namespace Slot

/-- The name of a slot. -/
def name (index : Int64) : String := "value_" ++ toString index.toInt

/-- The block that slot operations of an engine act on. -/
def target? (state : State) (self : EngineId) : Option BlockRef :=
  let current := state.currentScope self
  (state.callStack self).innermostFirst.findSome? fun frame =>
    (state.graph.findBlock? current frame).map (·.block)

/-- Read a slot of a store. -/
def read (block : String) (store : ScopeId) (slot : String) : Action Int64 := fun state =>
  match (state.graph.get store).binding? slot with
  | some binding => .done binding.value state
  | none => .failed (.ofCause (.missingSlot block slot)) state

/-- Write a slot of a store, and make it if there is none. -/
def write (store : ScopeId) (slot : String) (value : Int64) : Action Int64 := fun state =>
  if (state.graph.get store).binds slot then
    let (state, outcome) := state.updateBinding store slot value
    match outcome with
    | .deniedConst => .failed (.ofCause (.constReassignment slot)) state
    | .deniedImmutable => .failed (.ofCause (.immutableReassignment slot)) state
    | .granted => .done value state
    | .unbound => .done value state
  else .done value (state.modifyScope store (fun scope => scope.push slot value .let))

/-- Remove a slot of a store. -/
def delete (block : String) (store : ScopeId) (slot : String) : Action Int64 := fun state =>
  if (state.graph.get store).binds slot then
    .done 0 (state.modifyGraph (fun graph => graph.delete store slot))
  else .failed (.ofCause (.missingSlot block slot)) state

/-- One slot operation with its arguments; `value` is what a write stores. -/
def access (self : EngineId) (op : SlotOp) (index value : Int64) : Action Int64 := fun state =>
  match target? state self with
  | none => .failed (.ofCause (.missingInstance op)) state
  | some target =>
    let block := state.graph.block target
    match block.store with
    | none => .failed (.ofCause (.missingInstance op)) state
    | some store =>
      match op with
      | .read => read block.name store (name index) state
      | .write => write store (name index) value state
      | .delete => delete block.name store (name index) state

end Slot
end Bir
