import Bir.Engine.Loading
import Bir.Proofs.Layout.Basic
import Bir.Proofs.State

/-!
# Layout — states without positions

Programs are kept in engines and bodies in the blocks of scopes, so that positions are everywhere in
a state.  This file takes them away, the source texts that they point into with them, and shows that
each operation on a state leads from what is left to what is left.  This file defines:

* `Scope.unplaced` and `ScopeGraph.unplaced`;
* `Failure.unplaced`, which keeps the cause and the names of the frames;
* `State.unplaced`.
-/

namespace Bir

/-! ## Arrays -/

/-- A change after a map is a map after a change. -/
theorem map_modify_of_commutes {α : Type} (part : α → α) {change change' : α → α}
    (commutes : ∀ value, change' (part value) = part (change value)) (values : Array α)
    (i : Nat) :
    (values.map part).modify i change' = (values.modify i change).map part := by
  apply Array.ext
  · simp
  · intro j _ _
    simp only [Array.getElem_modify, Array.getElem_map]
    split
    · exact commutes _
    · rfl

/-! ## Scopes -/

/-- The body of a block without its positions. -/
def BlockBody.unplaced : BlockBody → BlockBody
  | .interpreted init program =>
    .interpreted (init.map (List.map Statement.unplaced)) (program.map Statement.unplaced)
  | .native => .native

/-- A block without the positions of its body. -/
def Block.unplaced (block : Block) : Block := { block with body := block.body.unplaced }

namespace Block

@[simp]
theorem name_unplaced (block : Block) : block.unplaced.name = block.name := rfl

@[simp]
theorem isNative_unplaced (block : Block) : block.unplaced.isNative = block.isNative := by
  obtain ⟨_, _, _, _, body, _, _, _⟩ := block
  cases body <;> rfl

@[simp]
theorem init?_unplaced (block : Block) :
    block.unplaced.init? = block.init?.map (List.map Statement.unplaced) := by
  obtain ⟨_, _, _, _, body, _, _, _⟩ := block
  cases body <;> rfl

end Block

/-- A scope without the positions of its blocks. -/
def Scope.unplaced (scope : Scope) : Scope :=
  { scope with blocks := scope.blocks.map Block.unplaced }

namespace Scope

variable (scope : Scope)

@[simp]
theorem bindings_unplaced : scope.unplaced.bindings = scope.bindings := rfl

@[simp]
theorem binds_unplaced (name : String) : scope.unplaced.binds name = scope.binds name := rfl

@[simp]
theorem binding?_unplaced (name : String) : scope.unplaced.binding? name = scope.binding? name :=
  rfl

@[simp]
theorem permission_unplaced (binding : Binding) :
    scope.unplaced.permission binding = scope.permission binding := rfl

@[simp]
theorem declares_unplaced (name : String) : scope.unplaced.declares name = scope.declares name := by
  simp [declares, unplaced, List.any_map, Function.comp_def]

@[simp]
theorem blockIndex?_unplaced (name : String) :
    scope.unplaced.blockIndex? name = scope.blockIndex? name := by
  simp [blockIndex?, unplaced, List.findIdx?_map, Function.comp_def]

theorem addBlock_unplaced (block : Block) :
    scope.unplaced.addBlock block.unplaced = (scope.addBlock block).unplaced := by
  simp [addBlock, unplaced]

theorem modifyBlock_unplaced (index : Nat) {change change' : Block → Block}
    (commutes : ∀ block, change' block.unplaced = (change block).unplaced) :
    scope.unplaced.modifyBlock index change' = (scope.modifyBlock index change).unplaced := by
  have hblocks : (scope.blocks.map Block.unplaced).modify index change' =
      (scope.blocks.modify index change).map Block.unplaced := by
    apply List.ext_getElem?
    intro place
    simp only [List.getElem?_map, List.getElem?_modify]
    cases scope.blocks[place]? with
    | none => rfl
    | some block => split <;> simp [commutes]
  simp [modifyBlock, unplaced, hblocks]

end Scope

/-! ## Graphs -/

/-- A graph without the positions of its blocks. -/
def ScopeGraph.unplaced (graph : ScopeGraph) : ScopeGraph where
  scopes := graph.scopes.map Scope.unplaced

namespace ScopeGraph

variable (graph : ScopeGraph)

@[simp]
theorem size_unplaced : graph.unplaced.scopes.size = graph.scopes.size := by
  simp [unplaced]

@[simp]
theorem get_unplaced (id : ScopeId) : graph.unplaced.get id = (graph.get id).unplaced := by
  simp only [get, unplaced, Array.getD_eq_getD_getElem?, Array.getElem?_map]
  cases graph.scopes[id]? <;> rfl

@[simp]
theorem block_unplaced (ref : BlockRef) :
    graph.unplaced.block ref = (graph.block ref).unplaced := by
  simp only [block, get_unplaced, Scope.unplaced, List.getElem?_map]
  cases (graph.get ref.scope).blocks[ref.index]? <;> rfl

/-! ### Lookups -/

section Walks

variable {holds : Scope → Bool} (same : ∀ scope, holds scope.unplaced = holds scope)
include same

theorem resolve?_unplaced (id : ScopeId) :
    graph.unplaced.resolve? holds id = graph.resolve? holds id := by
  have hwithin : ∀ depth id, graph.unplaced.resolveWithin holds depth id =
      graph.resolveWithin holds depth id := by
    intro depth
    induction depth with
    | zero =>
        intro id
        rfl
    | succ depth ih =>
        intro id
        simp only [resolveWithin, get_unplaced, same, ih]
        rfl
  rw [resolve?, resolve?, size_unplaced, hwithin]

theorem holders_unplaced (id : ScopeId) :
    graph.unplaced.holders holds id = graph.holders holds id := by
  have hwithin : ∀ depth id, graph.unplaced.holdersWithin holds depth id =
      graph.holdersWithin holds depth id := by
    intro depth
    induction depth with
    | zero =>
        intro id
        rfl
    | succ depth ih =>
        intro id
        simp only [holdersWithin, get_unplaced, same, ih]
        rfl
  rw [holders, holders, size_unplaced, hwithin]

end Walks

@[simp]
theorem find?_unplaced (id : ScopeId) (name : String) :
    graph.unplaced.find? id name = graph.find? id name := by
  unfold find?
  rw [resolve?_unplaced graph fun scope => scope.binds_unplaced name]
  cases graph.resolve? (fun scope => scope.binds name) id with
  | none => rfl
  | some holder => simp

@[simp]
theorem findBlock?_unplaced (id : ScopeId) (name : String) :
    graph.unplaced.findBlock? id name = graph.findBlock? id name := by
  unfold findBlock?
  simp only
  rw [resolve?_unplaced graph fun scope => scope.declares_unplaced (unmarked name)]
  cases graph.resolve? (fun scope => scope.declares (unmarked name)) id with
  | none => rfl
  | some holder => simp only [get_unplaced, Scope.blockIndex?_unplaced]; rfl

/-! ### Changes -/

theorem modify_unplaced (id : ScopeId) {change change' : Scope → Scope}
    (commutes : ∀ scope, change' scope.unplaced = (change scope).unplaced) :
    graph.unplaced.modify id change' = (graph.modify id change).unplaced := by
  simp only [modify, unplaced, map_modify_of_commutes Scope.unplaced commutes]

theorem modifyBlock_unplaced (ref : BlockRef) {change change' : Block → Block}
    (commutes : ∀ block, change' block.unplaced = (change block).unplaced) :
    graph.unplaced.modifyBlock ref change' = (graph.modifyBlock ref change).unplaced :=
  graph.modify_unplaced ref.scope fun scope => scope.modifyBlock_unplaced ref.index commutes

theorem add_unplaced (scope : Scope) :
    graph.unplaced.add scope.unplaced = ((graph.add scope).1.unplaced, (graph.add scope).2) := by
  simp [add, unplaced]

theorem write_unplaced (holder : ScopeId) (name : String) (value : Int64) :
    graph.unplaced.write holder name value =
      ((graph.write holder name value).1.unplaced, (graph.write holder name value).2) := by
  unfold write
  simp only [get_unplaced, Scope.binding?_unplaced, Scope.permission_unplaced]
  cases (graph.get holder).binding? name with
  | none => rfl
  | some binding =>
      have hgranted : graph.unplaced.modify holder (fun scope => scope.overwrite name value) =
          (graph.modify holder fun scope => scope.overwrite name value).unplaced :=
        graph.modify_unplaced holder fun _ => rfl
      simp only
      cases (graph.get holder).permission binding with
      | granted => simp only [hgranted]
      | deniedConst => rfl
      | deniedImmutable => rfl

theorem update_unplaced (id : ScopeId) (name : String) (value : Int64) :
    graph.unplaced.update id name value =
      ((graph.update id name value).1.unplaced, (graph.update id name value).2) := by
  rw [update_eq, update_eq, holders_unplaced graph fun scope => scope.binds_unplaced name]
  -- The writes go from holder to holder, with any graph and any outcome so far.
  generalize graph.holders (fun scope => scope.binds name) id = holders
  generalize UpdateOutcome.unbound = outcome
  induction holders generalizing graph outcome with
  | nil => rfl
  | cons holder holders ih =>
      rw [writeEach_cons, writeEach_cons, write_unplaced]
      exact ih _ _

theorem delete_unplaced (id : ScopeId) (name : String) :
    graph.unplaced.delete id name = (graph.delete id name).unplaced := by
  rw [delete_eq, delete_eq, resolve?_unplaced graph fun scope => scope.binds_unplaced name]
  cases graph.resolve? (fun scope => scope.binds name) id with
  | none => rfl
  | some holder => exact graph.modify_unplaced holder fun _ => rfl

theorem markInitialized_unplaced (id : ScopeId) (name : String) (store : Option ScopeId) :
    graph.unplaced.markInitialized id name store =
      (graph.markInitialized id name store).unplaced := by
  unfold markInitialized
  rw [findBlock?_unplaced]
  cases graph.findBlock? id name with
  | none => rfl
  | some found => exact graph.modifyBlock_unplaced found.block fun _ => rfl

end ScopeGraph

/-! ## Failures -/

namespace Failure

/-- A cause without the positions that it names. -/
def Cause.unplaced : Cause → Cause
  | .malformed cause => .malformed cause.unplaced
  | cause => cause

/-- A report without the source text. -/
def Report.unplaced (report : Report) : Report := { report with content := "" }

/-- A failure without its position, those that it names and the source text. -/
def unplaced (failure : Failure) : Failure where
  cause := failure.cause.unplaced
  report := failure.report.map Report.unplaced

@[simp]
theorem unplaced_ofCause (cause : Cause) : (ofCause cause).unplaced = ofCause cause.unplaced := rfl

@[simp]
theorem unplaced_place (failure : Failure) (position : Position) :
    (failure.place position).unplaced = failure.unplaced := by
  unfold place
  split <;> rfl

/-- What was taken away is no position. -/
@[simp]
theorem place_synthetic (failure : Failure) : failure.place .synthetic = failure := by
  simp [place, Position.isSynthetic, Position.synthetic]

@[simp]
theorem unplaced_attach (failure : Failure) (report : Unit → Report) :
    (failure.attach report).unplaced = failure.unplaced.attach fun _ => (report ()).unplaced := by
  unfold attach
  cases h : failure.report <;> simp [unplaced, h]

end Failure

/-! ## Engines -/

/-- An engine without its source text and the positions of its program. -/
def Engine.unplaced (engine : Engine) : Engine :=
  { engine with content := "", program := engine.program.unplaced }

/-- A state without source texts and the positions in them. -/
def State.unplaced (state : State) : State :=
  { state with graph := state.graph.unplaced, engines := state.engines.map Engine.unplaced }

namespace State

variable (state : State)

@[simp]
theorem graph_unplaced : state.unplaced.graph = state.graph.unplaced := rfl

@[simp]
theorem config_unplaced : state.unplaced.config = state.config := rfl

@[simp]
theorem engine_unplaced (id : EngineId) :
    state.unplaced.engine id = (state.engine id).unplaced := by
  simp only [engine, unplaced, Array.getD_eq_getD_getElem?, Array.getElem?_map]
  cases state.engines[id]? <;> rfl

@[simp]
theorem callStack_unplaced (id : EngineId) : state.unplaced.callStack id = state.callStack id := by
  rw [callStack, engine_unplaced]
  rfl

@[simp]
theorem currentScope_unplaced (id : EngineId) :
    state.unplaced.currentScope id = state.currentScope id := by
  rw [currentScope, engine_unplaced]
  rfl

theorem report_unplaced (id : EngineId) :
    state.unplaced.report id = (state.report id).unplaced := by
  simp only [report, engine_unplaced]
  rfl

@[simp]
theorem global?_unplaced (id : EngineId) (name : String) :
    state.unplaced.global? id name = state.global? id name := by
  rw [global?, engine_unplaced, graph_unplaced, ScopeGraph.find?_unplaced]
  rfl

@[simp]
theorem isLoadedBelow_unplaced (id target : EngineId) :
    state.unplaced.isLoadedBelow id target = state.isLoadedBelow id target := by
  have hwithin : ∀ depth id, state.unplaced.usesWithin target depth id =
      state.usesWithin target depth id := by
    intro depth
    induction depth with
    | zero =>
        intro id
        rfl
    | succ depth ih =>
        intro id
        simp only [usesWithin, engine_unplaced, ih]
        rfl
  rw [isLoadedBelow, isLoadedBelow, hwithin]
  simp [unplaced]

/-! ### Changes -/

theorem modifyEngine_unplaced (id : EngineId) {change change' : Engine → Engine}
    (commutes : ∀ engine, change' engine.unplaced = (change engine).unplaced) :
    state.unplaced.modifyEngine id change' = (state.modifyEngine id change).unplaced := by
  simp only [modifyEngine, unplaced, map_modify_of_commutes Engine.unplaced commutes]

@[simp]
theorem setCallStack_unplaced (id : EngineId) (callStack : CallStack) :
    state.unplaced.setCallStack id callStack = (state.setCallStack id callStack).unplaced :=
  state.modifyEngine_unplaced id fun _ => rfl

@[simp]
theorem modifyCallStack_unplaced (id : EngineId) (change : CallStack → CallStack) :
    state.unplaced.modifyCallStack id change = (state.modifyCallStack id change).unplaced :=
  state.modifyEngine_unplaced id fun _ => rfl

@[simp]
theorem pushScope_unplaced (id : EngineId) (scope : ScopeId) :
    state.unplaced.pushScope id scope = (state.pushScope id scope).unplaced :=
  state.modifyEngine_unplaced id fun _ => rfl

@[simp]
theorem popScope_unplaced (id : EngineId) :
    state.unplaced.popScope id = (state.popScope id).unplaced :=
  state.modifyEngine_unplaced id fun _ => rfl

/-- What an engine puts aside while it borrows stacks has no positions. -/
theorem restoreStacks_unplaced (id : EngineId) (callStack : CallStack) (scopes : Nat) :
    (state.unplaced.modifyEngine id fun engine =>
      { engine with callStack, scopeStack := engine.scopeStack.take scopes }) =
      (state.modifyEngine id fun engine =>
        { engine with callStack, scopeStack := engine.scopeStack.take scopes }).unplaced :=
  state.modifyEngine_unplaced id fun _ => rfl

theorem modifyGraph_unplaced {change change' : ScopeGraph → ScopeGraph}
    (commutes : ∀ graph, change' graph.unplaced = (change graph).unplaced) :
    state.unplaced.modifyGraph change' = (state.modifyGraph change).unplaced := by
  simp only [modifyGraph, unplaced, commutes]

theorem modifyScope_unplaced (id : ScopeId) {change change' : Scope → Scope}
    (commutes : ∀ scope, change' scope.unplaced = (change scope).unplaced) :
    state.unplaced.modifyScope id change' = (state.modifyScope id change).unplaced :=
  state.modifyGraph_unplaced fun graph => graph.modify_unplaced id commutes

@[simp]
theorem setForeign_unplaced (id : ScopeId) (foreign : Bool) :
    (state.unplaced.modifyScope id fun scope => { scope with foreign }) =
      (state.modifyScope id fun scope => { scope with foreign }).unplaced :=
  state.modifyScope_unplaced id fun _ => rfl

theorem addScope_unplaced (scope : Scope) :
    state.unplaced.addScope scope.unplaced =
      ((state.addScope scope).1.unplaced, (state.addScope scope).2) := by
  simp only [addScope, updateGraph_eq, graph_unplaced, ScopeGraph.add_unplaced]
  rfl

theorem updateBinding_unplaced (id : ScopeId) (name : String) (value : Int64) :
    state.unplaced.updateBinding id name value =
      ((state.updateBinding id name value).1.unplaced, (state.updateBinding id name value).2) := by
  simp only [updateBinding, updateGraph_eq, graph_unplaced, ScopeGraph.update_unplaced]
  rfl

theorem callConsole_unplaced (verbs arguments : List Int64) :
    state.unplaced.callConsole verbs arguments =
      ((state.callConsole verbs arguments).1.unplaced, (state.callConsole verbs arguments).2) :=
  rfl

end State

end Bir
