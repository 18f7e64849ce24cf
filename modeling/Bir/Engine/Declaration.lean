import Bir.Engine.Call

/-!
# Declarations — blocks come about

A declaration adds a block to the current scope and builds its store: its `init` section runs in a
fresh scope, which is the block's store from then on. This file defines:

* `Declaration.plain` — a block with a body of its own;
* `Declaration.implementing` — a block of the shape of another, with a store of its own, whose
  slots may be seeded;
* `Declaration.binding` — a binding.

The store is attached before `init` runs, so that slot operations in it find it.
-/

namespace Bir
namespace Declaration

/-- The binding of a store that is set to the number of seeded slots. -/
def indexName : String := "index"

/-- Add a block to a scope. -/
def addBlock (scope : ScopeId) (block : Block) : Action BlockRef :=
  Action.update fun state =>
    let ref : BlockRef := ⟨scope, (state.graph.get scope).blocks.length⟩
    (state.modifyScope scope (fun scope => scope.addBlock block), ref)

/-- Make a store for a block: a scope below the current one. -/
def attachStore (self : EngineId) (ref : BlockRef) : Action ScopeId :=
  Action.update fun state =>
    let (state, store) := state.addScope { parents := [state.currentScope self] }
    let attach (block : Block) : Block := { block with store := some store }
    (state.modifyGraph (fun graph => graph.modifyBlock ref attach), store)

/-- The name of the frame of an `init` section. -/
def initFrame (name : String) : String := "$" ++ name

/-- Run the `init` section of a block, if it has one, and yield the store that it made. -/
def runInit (run : Runner) (self : EngineId) (ref : BlockRef) (name : String)
    (init : Option (List Statement)) : Action (Option ScopeId) :=
  match init with
  | none => pure none
  | some statements => do
    let store ← attachStore self ref
    let _ ← Action.withScope self store
      (Action.inCallFrame self (initFrame name) (Action.reporting self (run self statements)))
    return some store

/-- Mark a block as initialized, with its store. -/
def finish (scope : ScopeId) (name : String) (store : Option ScopeId) : Action Unit :=
  Action.change fun state =>
    state.modifyGraph (fun graph => graph.markInitialized scope name store)

/-- Declare a block with a body of its own. -/
def plain (run : Runner) (self : EngineId) (name : Identifier) (verbs arguments : List Identifier)
    (init : Option (List Statement)) (program : List Statement) : Action Unit := fun state =>
  let scope := state.currentScope self
  if (state.graph.get scope).declares name.name then
    Action.failAt (.duplicateDeclaration name.name) name.position state
  else
    (do
      let ref ← addBlock scope
        (.declared self name.name (verbs.map (·.name)) (arguments.map (·.name)) init program)
      let store ← runInit run self ref name.name init
      finish scope name.name store : Action Unit) state

/-! ## Implementing blocks -/

/-- The values that seed slots: the codes of characters, or the values of expressions. -/
def populateValues (evaluate : Evaluator) (self : EngineId) : Populate → Action (List Int64)
  | .string text => pure (text.toList.map fun c => Int64.ofNat c.toNat)
  | .array elements => evaluate.all self elements

/-- The slots that values seed. -/
def seededSlots (values : List Int64) : List Binding :=
  values.zipIdx.map fun (value, index) =>
    { name := Slot.name (Int64.ofNat index), value, kind := .const }

/-- A store with its slots seeded; `index` is set even if `init` made it constant. -/
def seed (values : List Int64) (store : Scope) : Scope :=
  { store with bindings := store.bindings ++ seededSlots values }.overwrite indexName
    (Int64.ofNat values.length)

/-- Seed the slots of a store, which is made below `scope` if there is none. -/
def populate (evaluate : Evaluator) (self : EngineId) (scope : ScopeId) (source : Populate)
    (store : Option ScopeId) : Action ScopeId := do
  let values ← populateValues evaluate self source
  let store ←
    match store with
    | some store => pure store
    | none => Action.update fun state => state.addScope { parents := [scope] }
  Action.change fun state => state.modifyScope store (seed values)
  return store

/-- Declare a block that implements another. The other block is looked for before the name is asked
about. -/
def implementing (evaluate : Evaluator) (run : Runner) (self : EngineId) (name parent : Identifier)
    (source : Option Populate) : Action Unit := fun state =>
  let scope := state.currentScope self
  match state.graph.findBlock? scope parent.name with
  | none => Action.fail (.undefinedBlock parent.name) state
  | some found =>
    if (state.graph.get scope).declares name.name then
      Action.failAt (.duplicateDeclaration name.name) name.position state
    else
      let block := Block.implementing self name.name (state.graph.block found.block)
      (do
        let ref ← addBlock scope block
        let store ← runInit run self ref name.name block.init?
        let store ←
          match source with
          | none => pure store
          | some source => do
            let store ← populate evaluate self scope source store
            pure (some store)
        finish scope name.name store : Action Unit) state

/-! ## Bindings -/

/-- Declare a binding. The name is asked about before the value is evaluated. -/
def binding (evaluate : Evaluator) (self : EngineId) (kind : BindingKind) (name : Identifier)
    (value : Expression) : Action Unit := fun state =>
  let scope := state.currentScope self
  if (state.graph.get scope).binds name.name then
    Action.failAt (.duplicateDeclaration name.name) name.position state
  else
    (do
      let value ← evaluate self value
      Action.change fun state =>
        state.modifyScope scope (fun scope => scope.push name.name value kind) : Action Unit) state

end Declaration
end Bir
