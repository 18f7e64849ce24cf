import Bir.Engine.Evaluation
import Bir.Grammar.Program

/-!
# Loading — a source text and the modules it imports

An engine loads its source in order: its text is read as a program, the native block is declared,
and each import is loaded in an engine of its own and run to its end. From then on the root scope
of the importer goes on to that of the module, which refuses assignments. This file defines:

* `runMain` — the main program of an engine;
* `Loading.importModule` — one import, given how engines below load;
* `load` — a source with all that it imports, with a bound on the nesting.

A module that imports a file which is being loaded would never be done, so that is a failure.
-/

namespace Bir

/-- Run the main program of an engine. -/
def runMain (run : Runner) (self : EngineId) : Action Unit := do
  let statements ← Action.look fun state => (state.engine self).program.statements
  let _ ← Action.inFlowFrame self .main (run self statements)
  return ()

namespace Loading

/-! ## The source itself -/

/-- Read the text of an engine as a program. -/
def readProgram (self : EngineId) : Action Unit := fun state =>
  match Program.ofSource (state.engine self).content with
  | .ok program => .done () (state.modifyEngine self (fun engine => { engine with program }))
  | .error error => Action.reporting self (.ofExcept (.error (.ofSyntaxError error))) state

/-- Declare the native block. -/
def declareConsole (self : EngineId) : Action Unit :=
  Action.change fun state =>
    state.modifyScope (state.engine self).root
      (fun root => root.addBlock (.native self Console.blockName))

/-! ## Imports -/

/-- Refuse a module whose file is being loaded. -/
def refuseCycle (name : String) (path : Path) : Action Unit := fun state =>
  if state.loading.contains (state.files.identity path) then
    Action.fail (.cyclicImport name (state.loading.map FileIdentity.moduleName ++ [name])) state
  else .done () state

/-- A failure of a module, as its importer sees it: the text of a module that is no program is a
reason not to load it. -/
def ofModule (name : String) (failure : Failure) : Failure :=
  match failure.cause with
  | .malformed cause =>
    let place := (failure.position.getD .synthetic).text
    { failure with cause := .moduleLoad name (cause.message ++ " at " ++ place) }
  | _ => failure

/-- Load the source of a module. -/
def loadModule (load : EngineId → Action Unit) (name : String) (module : EngineId) :
    Action Unit := fun state =>
  match load module state with
  | .done value state => .done value state
  | .failed failure state => .failed (ofModule name failure) state
  | .exhausted => .exhausted

/-- Let an engine see the bindings and blocks of a module, which refuses assignments from now on
and whose blocks count as foreign. -/
def expose (self module : EngineId) : Action Unit :=
  Action.change fun state =>
    let top := state.currentScope module
    let state := state.modifyScope top (fun scope => { scope with immutable := true, foreign := true })
    let state := state.modifyScope (state.engine self).root (fun root => root.addParent top)
    state.modifyEngine self (fun engine => { engine with uses := engine.uses ++ [module] })

/-- Import a module: find its file, load and run it in an engine of its own, and expose it. -/
def importModule (load : EngineId → Action Unit) (run : Runner) (self : EngineId)
    (name : String) : Action Unit := do
  let (files, library) ← Action.look fun state => (state.files, state.config.library)
  let path ← Action.ofExcept (Module.resolve files library name)
  refuseCycle name path
  let content ← Action.ofExcept (Module.read files path name)
  let module ← Action.update fun state => state.addEngine path content
  loadModule load name module
  runMain run module
  expose self module

/-- Import modules in order, up to the first that fails. -/
def importAll (load : EngineId → Action Unit) (run : Runner) (self : EngineId) :
    List Import → Action Unit
  | [] => pure ()
  | request :: rest => do
    Action.reporting self
      (Action.locate (fun _ => request.position) (importModule load run self request.module))
    importAll load run self rest

/-- Run an action while the file of an engine counts as being loaded. -/
def whileLoading (self : EngineId) (action : Action Unit) : Action Unit := fun state =>
  let file := state.files.identity (state.engine self).path
  match action { state with loading := state.loading ++ [file] } with
  | .done value state => .done value { state with loading := state.loading.dropLast }
  | .failed failure state => .failed failure { state with loading := state.loading.dropLast }
  | .exhausted => .exhausted

/-- Load the imports of an engine. -/
def imports (load : EngineId → Action Unit) (run : Runner) (self : EngineId) :
    Action Unit := fun state =>
  match (state.engine self).program.imports with
  | [] => .done () state
  | requests => whileLoading self (importAll load run self requests) state

end Loading

/-! ## All levels -/

/-- Load the source of an engine with all that it imports, nested no deeper than `bound`. -/
def load : Nat → EngineId → Action Unit
  | 0, _ => Action.exhausted
  | bound + 1, self => do
    Loading.readProgram self
    Loading.declareConsole self
    Loading.imports (load bound) (execute bound) self

end Bir
