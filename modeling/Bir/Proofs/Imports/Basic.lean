import Bir.Proofs.Outcome
import Bir.Script

/-!
# Imports — where in a run a module is asked for

The imports of a source are loaded in a loop, and each of them loads a source with imports of its
own.  So a module is asked for while the loops of several engines run, one inside the other.  This
file defines:

* `Loading.openModule` and `Loading.enterModule` — the two halves of an import, before and after the
  engine of the module is there;
* `Loading.Opening` — all that the first half can come to;
* `Loading.Attempt` — an import that is about to be made, with the loops that run around it;
* `Loading.Reaches` — the loop of an engine comes to a request;
* `Loading.Importing` — in the course of loading an engine, an import is about to be made.

The chain of an attempt is read off the loops that run.  What the run itself notes about them, the
list of the files that are being loaded, plays no part in it.
-/

namespace Bir

/-- What recognises the file of an engine. -/
def State.fileOf (state : State) (id : EngineId) : FileIdentity :=
  state.files.identity (state.engine id).path

namespace Loading

/-! ## The halves of an import -/

/-- Find the file of a module, refuse it if it is being loaded, and open an engine for it. -/
def openModule (name : String) : Action EngineId := do
  let (files, library) ← Action.look fun state => (state.files, state.config.library)
  let path ← Action.ofExcept (Module.resolve files library name)
  refuseCycle name path
  let content ← Action.ofExcept (Module.read files path name)
  Action.update fun state => state.addEngine path content

/-- Load and run a module in the engine that is open for it, and expose it. -/
def enterModule (load : EngineId → Action Unit) (run : Runner) (self : EngineId) (name : String)
    (module : EngineId) : Action Unit := do
  loadModule load name module
  runMain run module
  expose self module

theorem importModule_eq (load : EngineId → Action Unit) (run : Runner) (self : EngineId)
    (name : String) :
    importModule load run self name = openModule name >>= enterModule load run self name := by
  simp only [openModule, Action.bind_assoc]
  rfl

section Opening

variable (name : String) (state : State)

/-- What a cycle is reported as: the files that are being loaded, and the name that leads back. -/
def cycleFailure : Failure :=
  .ofCause (.cyclicImport name (state.loading.map FileIdentity.moduleName ++ [name]))

/-- What opening a module comes to, and why. -/
inductive Opening : Outcome EngineId → Prop where
  | missing (absent : Module.resolve state.files state.config.library name =
        .error (.ofCause (.missingModule name state.config.library))) :
      Opening (.failed (.ofCause (.missingModule name state.config.library)) state)
  | cyclic {path : Path} (found : Module.resolve state.files state.config.library name = .ok path)
      (running : state.files.identity path ∈ state.loading) :
      Opening (.failed (cycleFailure name state) state)
  | unread {path : Path} {reason : String}
      (found : Module.resolve state.files state.config.library name = .ok path)
      (fresh : state.files.identity path ∉ state.loading)
      (unreadable : Module.read state.files path name =
        .error (.ofCause (.moduleLoad name reason))) :
      Opening (.failed (.ofCause (.moduleLoad name reason)) state)
  | opened {path : Path} {content : String}
      (found : Module.resolve state.files state.config.library name = .ok path)
      (fresh : state.files.identity path ∉ state.loading)
      (read : Module.read state.files path name = .ok content) :
      Opening (.done state.engines.size (state.addEngine path content).1)

theorem opening : Opening name state (openModule name state) := by
  cases hfound : Module.resolve state.files state.config.library name with
  | error failure =>
      have hmissing : failure = .ofCause (.missingModule name state.config.library) := by
        unfold Module.resolve at hfound
        split at hfound <;> cases hfound
        rfl
      have hopen : openModule name state = .failed failure state := by
        simp [openModule, Action.bind_apply, Action.look, Action.ofExcept, hfound]
      rw [hopen, hmissing]
      exact .missing (hmissing ▸ hfound)
  | ok path =>
      by_cases hrunning : state.files.identity path ∈ state.loading
      · have hopen : openModule name state = .failed (cycleFailure name state) state := by
          simp [openModule, Action.bind_apply, Action.look, Action.ofExcept, hfound, refuseCycle,
            hrunning, Action.fail, cycleFailure]
        rw [hopen]
        exact .cyclic hfound hrunning
      · cases hread : Module.read state.files path name with
        | error failure =>
            obtain ⟨reason, hreason⟩ :
                ∃ reason, failure = .ofCause (.moduleLoad name reason) := by
              unfold Module.read at hread
              split at hread <;> cases hread
              exact ⟨_, rfl⟩
            have hopen : openModule name state = .failed failure state := by
              simp [openModule, Action.bind_apply, Action.look, Action.ofExcept, hfound,
                refuseCycle, hrunning, hread]
            rw [hopen, hreason]
            exact .unread hfound hrunning (hreason ▸ hread)
        | ok content =>
            have hopen : openModule name state =
                .done state.engines.size (state.addEngine path content).1 := by
              simp [openModule, Action.bind_apply, Action.look, Action.ofExcept, hfound,
                refuseCycle, hrunning, hread, Action.update]
              rfl
            rw [hopen]
            exact .opened hfound hrunning hread

variable {name state}

theorem openModule_eq_done {module : EngineId} {opened : State} :
    openModule name state = .done module opened ↔
      ∃ path content, Module.resolve state.files state.config.library name = .ok path ∧
        state.files.identity path ∉ state.loading ∧
        Module.read state.files path name = .ok content ∧
        module = state.engines.size ∧ opened = (state.addEngine path content).1 := by
  have hopening := opening name state
  generalize openModule name state = outcome at hopening ⊢
  constructor
  · rintro rfl
    cases hopening with
    | opened found fresh read => exact ⟨_, _, found, fresh, read, rfl, rfl⟩
  · rintro ⟨path, content, found, fresh, read, rfl, rfl⟩
    cases hopening with
    | missing absent => cases found.symm.trans absent
    | cyclic found' running =>
        cases found.symm.trans found'
        exact absurd running fresh
    | unread found' fresh' unreadable =>
        cases found.symm.trans found'
        cases read.symm.trans unreadable
    | opened found' fresh' read' =>
        cases found.symm.trans found'
        cases read.symm.trans read'
        rfl

end Opening

/-! ## Attempts -/

/-- An import that is about to be made. -/
structure Attempt where
  /-- How deep sources may nest below the importer. -/
  bound : Nat
  /-- The files of the engines whose imports are being loaded, the outermost first. -/
  chain : List FileIdentity
  /-- The innermost of these engines. -/
  importer : EngineId
  /-- The name of the module that it asks for. -/
  name : String
  state : State

/-- What an attempt comes to. -/
def Attempt.outcome (attempt : Attempt) : Outcome Unit :=
  importModule (load attempt.bound) (execute attempt.bound) attempt.importer attempt.name
    attempt.state

/-- The loop over the imports of an engine comes to a request: those before it have been made. -/
inductive Reaches (bound : Nat) (self : EngineId) :
    List Import → State → Import → State → Prop where
  | first {request : Import} {rest : List Import} {state : State} :
      Reaches bound self (request :: rest) state request state
  | later {request last : Import} {rest : List Import} {state between point : State}
      (made : importModule (load bound) (execute bound) self request.module state =
        .done () between)
      (reaches : Reaches bound self rest between last point) :
      Reaches bound self (request :: rest) state last point

/-- While an engine is loaded from a state, the loop over its imports comes to a request. -/
def Requests (bound : Nat) (self : EngineId) (state : State) (request : Import) (point : State) :
    Prop :=
  ∃ ready : State,
    (do readProgram self; declareConsole self : Action Unit) state = .done () ready ∧
      Reaches bound self (ready.engine self).program.imports
        { ready with loading := ready.loading ++ [ready.fileOf self] } request point

/-- In the course of loading an engine from a state, an import is about to be made: by the engine
itself, or while a module that it has asked for is loaded. -/
inductive Importing : Nat → EngineId → State → Attempt → Prop where
  | own {bound : Nat} {self : EngineId} {state point : State} {request : Import}
      (requests : Requests bound self state request point) :
      Importing (bound + 1) self state ⟨bound, [state.fileOf self], self, request.module, point⟩
  | nested {bound : Nat} {self module : EngineId} {state point opened : State} {request : Import}
      {attempt : Attempt} (requests : Requests bound self state request point)
      (opens : openModule request.module point = .done module opened)
      (importing : Importing bound module opened attempt) :
      Importing (bound + 1) self state
        { attempt with chain := state.fileOf self :: attempt.chain }

end Loading

end Bir
