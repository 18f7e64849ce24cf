import Bir.CallStack
import Bir.Console
import Bir.Module
import Bir.Scope.Graph

/-!
# States — all that a run can change

One engine runs one source text; each module has an engine of its own. This file defines:

* `Config` — what a run is told once;
* `Engine` — a source, its root scope, its call stack and scope stack, and the modules it uses;
* `State` — all engines, all scopes, the console and the imports being loaded;
* the access to these that evaluation needs.

The scope on top of an engine's scope stack is its current one.
-/

namespace Bir

/-! ## Configuration -/

/-- Where a block of a module runs. -/
inductive Routing where
  /-- In the engine that owns the block, which borrows the stacks of the caller. -/
  | bridged
  /-- In the engine that calls it. -/
  | flat
  deriving DecidableEq, Repr, Inhabited

/-- What a run is told once. -/
structure Config where
  /-- The depth of the call stack that leaves no room for another call. -/
  callLimit : Nat := 8000
  /-- The directory that modules are looked for in. -/
  library : Path := "bir"
  routing : Routing := .bridged
  deriving DecidableEq, Repr, Inhabited

/-! ## Engines -/

/-- What runs one source text. -/
structure Engine where
  path : Path := ""
  content : String := ""
  program : Program := {}
  callStack : CallStack := {}
  /-- The scopes of the running calls, the current one last. -/
  scopeStack : Array ScopeId := #[]
  root : ScopeId := 0
  /-- The engines of the modules that this one imports. -/
  uses : List EngineId := []
  deriving Inhabited

namespace Engine

/-- The name of the source, as messages show it. -/
def fileName (engine : Engine) : String := Path.displayName engine.path

/-- The scope that lookups start from. -/
def currentScope (engine : Engine) : ScopeId := engine.scopeStack.back?.getD engine.root

end Engine

/-! ## States -/

/-- All that a run can change, with the configuration and the files it sees. -/
structure State where
  config : Config := {}
  files : FileTree := {}
  graph : ScopeGraph := {}
  engines : Array Engine := #[]
  console : Console := {}
  /-- The files whose imports are being loaded, the outermost first. -/
  loading : List FileIdentity := []
  deriving Inhabited

namespace State

/-- The engine with a number. -/
def engine (state : State) (id : EngineId) : Engine := state.engines.getD id {}

/-- Change the engine with a number. -/
def modifyEngine (state : State) (id : EngineId) (change : Engine → Engine) : State :=
  { state with engines := state.engines.modify id change }

/-- The call stack of an engine. -/
def callStack (state : State) (id : EngineId) : CallStack := (state.engine id).callStack

/-- Set the call stack of an engine. -/
def setCallStack (state : State) (id : EngineId) (callStack : CallStack) : State :=
  state.modifyEngine id (fun engine => { engine with callStack })

/-- Change the call stack of an engine. -/
def modifyCallStack (state : State) (id : EngineId) (change : CallStack → CallStack) : State :=
  state.modifyEngine id (fun engine => { engine with callStack := change engine.callStack })

/-- The scope that lookups of an engine start from. -/
def currentScope (state : State) (id : EngineId) : ScopeId := (state.engine id).currentScope

/-- Make a scope the current one of an engine. -/
def pushScope (state : State) (id : EngineId) (scope : ScopeId) : State :=
  state.modifyEngine id (fun engine => { engine with scopeStack := engine.scopeStack.push scope })

/-- Take the current scope off the stack of an engine. -/
def popScope (state : State) (id : EngineId) : State :=
  state.modifyEngine id (fun engine => { engine with scopeStack := engine.scopeStack.pop })

/-- Change the scopes. -/
def modifyGraph (state : State) (change : ScopeGraph → ScopeGraph) : State :=
  { state with graph := change state.graph }

/-- Change the scopes and yield something of the change. The state gives the scopes away while they
are changed, so that they need not be copied. -/
@[inline]
def updateGraph {α : Type} (state : State) (change : ScopeGraph → ScopeGraph × α) : State × α :=
  let graph := state.graph
  let state := { state with graph := {} }
  let (graph, value) := change graph
  ({ state with graph }, value)

theorem updateGraph_eq {α : Type} (state : State) (change : ScopeGraph → ScopeGraph × α) :
    state.updateGraph change =
      ({ state with graph := (change state.graph).1 }, (change state.graph).2) := rfl

/-- Add a scope and yield its number. -/
def addScope (state : State) (scope : Scope) : State × ScopeId :=
  state.updateGraph (fun graph => graph.add scope)

/-- Write a value to a binding, as a scope sees it. -/
def updateBinding (state : State) (scope : ScopeId) (name : String) (value : Int64) :
    State × UpdateOutcome :=
  state.updateGraph (fun graph => graph.update scope name value)

/-- One call of the native block. The console is given away meanwhile, as the scopes are. -/
def callConsole (state : State) (verbs arguments : List Int64) :
    State × Except Failure Int64 :=
  let console := state.console
  let state := { state with console := {} }
  let (result, console) := console.call verbs arguments
  ({ state with console }, result)

/-- Change one scope. -/
def modifyScope (state : State) (id : ScopeId) (change : Scope → Scope) : State :=
  state.modifyGraph (fun graph => graph.modify id change)

/-- What an engine says about a failure in its source. -/
def report (state : State) (id : EngineId) : Failure.Report :=
  let engine := state.engine id
  { fileName := engine.fileName, path := engine.path,
    callStack := engine.callStack.outermostFirst, content := engine.content }

/-- The value of a name, seen from the root scope of an engine. -/
def global? (state : State) (id : EngineId) (name : String) : Option Int64 :=
  state.graph.find? (state.engine id).root name

/-- Whether an engine is loaded below another one, no deeper than `depth`. -/
def usesWithin (state : State) (target : EngineId) : Nat → EngineId → Bool
  | 0, _ => false
  | depth + 1, id =>
    let uses := (state.engine id).uses
    uses.contains target || uses.any (fun used => usesWithin state target depth used)

/-- Whether an engine is loaded below another one. -/
def isLoadedBelow (state : State) (id target : EngineId) : Bool :=
  state.usesWithin target state.engines.size id

/-- Add an engine for a source text, with a root scope of its own. -/
def addEngine (state : State) (path : Path) (content : String) : State × EngineId :=
  let (state, root) := state.addScope {}
  let engine : Engine :=
    { path, content, callStack := { limit := some state.config.callLimit },
      scopeStack := #[root], root }
  ({ state with engines := state.engines.push engine }, state.engines.size)

/-- A run of one source text that has not begun; its engine has the number `0`. -/
def initial (config : Config) (files : FileTree) (source : Source) (path : Path)
    (content : String) : State :=
  let empty : State := { config, files, console := { channel := { source } } }
  (empty.addEngine path content).1

end State

end Bir
