import Bir.Proofs.Discipline.Causes
import Bir.Proofs.Layout.Evaluation
import Bir.Proofs.Layout.Grammar
import Bir.Script

/-!
# Layout — what a script does does not depend on its layout

Two texts whose tokens are of the same kinds differ in nothing but blanks, line breaks and the
spelling of literals.  Their runs are compared side by side: the modules that they import have the
same texts, so that a message about such a text is the same on both sides.  This file defines:

* `Program.SameKinds` — texts with tokens of the same kinds;
* `State.Alike` — states of two such runs;
* `Outcome.Alike` and `Action.Alike`, for outcomes and actions that keep states alike;
* `Script.Agree` — outcomes of whole runs that show the same but for positions.

`layout_never_matters` is the result.
-/

namespace Bir

/-! ## Texts -/

/-- Two texts have tokens, and these are of the same kinds. -/
def Program.SameKinds (source source' : String) : Prop :=
  ∃ tokens tokens', Token.scan source = .ok tokens ∧ Token.scan source' = .ok tokens' ∧
    tokens.map Token.kind = tokens'.map Token.kind

/-- Texts with tokens of the same kinds are the same program, or no program for the same reason. -/
theorem Program.SameKinds.ofSource {source source' : String} (h : SameKinds source source') :
    resultUnplaced (Program.ofSource source) = resultUnplaced (Program.ofSource source') := by
  obtain ⟨tokens, tokens', hscan, hscan', kinds⟩ := h
  simp only [Program.ofSource, hscan, hscan']
  exact ofTokens_unplaced kinds

/-! ## States side by side -/

/-- Two states are the same but for positions; the scripts have texts with tokens of the same kinds
and the modules have the same texts. -/
structure State.Alike (state state' : State) : Prop where
  unplaced : state.unplaced = state'.unplaced
  started : Script.main < state.engines.size
  script : Program.SameKinds (state.engine Script.main).content (state'.engine Script.main).content
  modules : ∀ id, id ≠ Script.main → (state.engine id).content = (state'.engine id).content

namespace State.Alike

variable {state state' : State}

/-- What no position decides is the same for states that are alike. -/
theorem part {β : Type} (h : state.Alike state') (view : State → β)
    (free : ∀ state, view state.unplaced = view state) : view state = view state' := by
  rw [← free state, h.unplaced, free state']

theorem size (h : state.Alike state') : state.engines.size = state'.engines.size :=
  h.part (fun state => state.engines.size) fun _ => by simp [State.unplaced]

theorem engine {β : Type} (h : state.Alike state') (id : EngineId) (view : Engine → β)
    (free : ∀ engine, view engine.unplaced = view engine) :
    view (state.engine id) = view (state'.engine id) :=
  h.part (fun state => view (state.engine id)) fun state => by rw [engine_unplaced, free]

theorem path (h : state.Alike state') (id : EngineId) :
    (state.engine id).path = (state'.engine id).path :=
  h.engine id Engine.path fun _ => rfl

theorem requests (h : state.Alike state') (id : EngineId) :
    (state.engine id).program.imports.map Import.unplaced =
      (state'.engine id).program.imports.map Import.unplaced := by
  have hprogram : (state.engine id).program.unplaced = (state'.engine id).program.unplaced := by
    have hengine := congrArg (fun state => (State.engine state id).program) h.unplaced
    simpa only [engine_unplaced, Engine.unplaced] using hengine
  exact congrArg Program.imports hprogram

theorem report_unplaced (h : state.Alike state') (id : EngineId) :
    (state.report id).unplaced = (state'.report id).unplaced := by
  rw [← State.report_unplaced, ← State.report_unplaced, h.unplaced]

/-- The report of a module is the same on both sides. -/
theorem report (h : state.Alike state') {id : EngineId} (module : id ≠ Script.main) :
    state.report id = state'.report id := by
  have hpath := h.path id
  have hstack : (state.engine id).callStack = (state'.engine id).callStack :=
    h.engine id Engine.callStack fun _ => rfl
  simp only [State.report, Engine.fileName, hpath, hstack, h.modules id module]

/-- Texts are kept where the engines keep theirs. -/
theorem of_contents {after after' : State} (h : state.Alike state')
    (unplaced : after.unplaced = after'.unplaced)
    (size : state.engines.size ≤ after.engines.size)
    (left : ∀ id, (after.engine id).content = (state.engine id).content)
    (right : ∀ id, (after'.engine id).content = (state'.engine id).content) :
    after.Alike after' where
  unplaced := unplaced
  started := Nat.lt_of_lt_of_le h.started size
  script := by
    rw [left, right]
    exact h.script
  modules id hid := by rw [left, right, h.modules id hid]

theorem withLoading (h : state.Alike state') (loading : List FileIdentity) :
    State.Alike { state with loading } { state' with loading } :=
  h.of_contents (congrArg (fun state => { state with loading }) h.unplaced) (Nat.le_refl _)
    (fun _ => rfl) fun _ => rfl

theorem addEngine_unplaced (state : State) (path : Path) (content : String) :
    (state.addEngine path content).1.unplaced = (state.unplaced.addEngine path "").1 := by
  have hscope : state.unplaced.addScope {} =
      ((state.addScope {}).1.unplaced, (state.addScope {}).2) :=
    state.addScope_unplaced {}
  simp only [State.addEngine, hscope]
  simp [State.unplaced, Engine.unplaced, Program.unplaced]

/-- An engine for a module is added on both sides. -/
theorem addEngine (h : state.Alike state') (path : Path) (content : String) :
    State.Alike (state.addEngine path content).1 (state'.addEngine path content).1 where
  unplaced := by rw [addEngine_unplaced, addEngine_unplaced, h.unplaced]
  started := by
    rw [size_addEngine]
    exact Nat.lt_succ_of_lt h.started
  script := by
    rw [engine_addEngine_of_lt path content h.started,
      engine_addEngine_of_lt path content (h.size ▸ h.started)]
    exact h.script
  modules id hid := by
    rw [State.engine_addEngine, State.engine_addEngine, h.size]
    split
    · rfl
    · exact h.modules id hid

/-- An engine takes a program, on both sides. -/
theorem withProgram (h : state.Alike state') (id : EngineId) {program program' : Program}
    (same : program.unplaced = program'.unplaced) :
    State.Alike (state.modifyEngine id fun engine => { engine with program })
      (state'.modifyEngine id fun engine => { engine with program := program' }) := by
  refine h.of_contents ?_ (by simp) ?_ ?_
  · have hwith : ∀ (state : State) (program : Program),
        (state.modifyEngine id fun engine => { engine with program }).unplaced =
          state.unplaced.modifyEngine id fun engine =>
            { engine with program := program.unplaced } := by
      intro state program
      rw [state.modifyEngine_unplaced]
      exact fun _ => rfl
    rw [hwith, hwith, h.unplaced, same]
  · exact state.engine_modifyEngine_congr id Engine.content fun _ => rfl
  · exact state'.engine_modifyEngine_congr id Engine.content fun _ => rfl

end State.Alike

/-! ## Failures side by side -/

/-- Whether a cause is that a text is no program. -/
def Failure.Cause.isMalformed : Failure.Cause → Bool
  | .malformed _ => true
  | _ => false

theorem Failure.Cause.isMalformed_of_isEvaluation {cause : Failure.Cause}
    (h : cause.isEvaluation = true) : cause.isMalformed = false := by
  cases cause <;> first | rfl | cases h

namespace Failure

/-- Failures that an importer passes on: they are the same but for positions, and no text that is no
program is their cause. -/
structure Passed (failure failure' : Failure) : Prop where
  unplaced : failure.unplaced = failure'.unplaced
  wellFormed : failure.cause.isMalformed = false

/-- Failures of a source: they are the same but for positions.  Those of a module are the same
altogether if its text is no program. -/
structure Told (source : EngineId) (failure failure' : Failure) : Prop where
  unplaced : failure.unplaced = failure'.unplaced
  ofModule : source ≠ Script.main → failure = failure' ∨ failure.cause.isMalformed = false

variable {failure failure' : Failure}

theorem ofModule_of_wellFormed (h : failure.cause.isMalformed = false) (name : String) :
    Loading.ofModule name failure = failure := by
  unfold Loading.ofModule
  split
  · rename_i hcause
    rw [hcause] at h
    cases h
  · rfl

theorem isMalformed_ofModule (name : String) (failure : Failure) :
    (Loading.ofModule name failure).cause.isMalformed = false := by
  unfold Loading.ofModule
  split
  · rfl
  · rename_i hcause
    cases hfailure : failure.cause with
    | malformed cause => exact absurd hfailure (hcause cause)
    | _ => rfl

/-- Positions decide nothing about whether a text is a program. -/
theorem isMalformed_of_unplaced (h : failure.unplaced = failure'.unplaced) :
    failure.cause.isMalformed = failure'.cause.isMalformed := by
  have hfree : ∀ cause : Cause, cause.unplaced.isMalformed = cause.isMalformed := by
    intro cause
    cases cause <;> rfl
  rw [← hfree failure.cause, ← hfree failure'.cause]
  exact congrArg (fun failure => failure.cause.isMalformed) h

namespace Passed

theorem told (h : Passed failure failure') (self : EngineId) : Told self failure failure' :=
  ⟨h.unplaced, fun _ => .inr h.wellFormed⟩

theorem place (h : Passed failure failure') (position position' : Position) :
    Passed (failure.place position) (failure'.place position') where
  unplaced := by rw [unplaced_place, unplaced_place, h.unplaced]
  wellFormed := by simpa using h.wellFormed

theorem attach (h : Passed failure failure') {report report' : Report}
    (same : report.unplaced = report'.unplaced) :
    Passed (failure.attach fun _ => report) (failure'.attach fun _ => report') where
  unplaced := by rw [unplaced_attach, unplaced_attach, h.unplaced, same]
  wellFormed := by simpa using h.wellFormed

end Passed

/-- An importer makes the same of the failures of a module, as the text of the module is the
same. -/
theorem Told.passed {source : EngineId} (h : Told source failure failure')
    (module : source ≠ Script.main) (name : String) :
    Passed (Loading.ofModule name failure) (Loading.ofModule name failure') := by
  refine ⟨?_, isMalformed_ofModule name failure⟩
  rcases h.ofModule module with rfl | hwell
  · rfl
  · rw [ofModule_of_wellFormed hwell,
      ofModule_of_wellFormed (isMalformed_of_unplaced h.unplaced ▸ hwell), h.unplaced]

end Failure

/-! ## Actions side by side -/

/-- Two outcomes are alike: both are values, both are failures that are related, or both were cut
short. -/
inductive Outcome.Alike {α : Type} (fails : Failure → Failure → Prop) :
    Outcome α → Outcome α → Prop where
  | done {value : α} {state state' : State} (states : state.Alike state') :
      Alike fails (.done value state) (.done value state')
  | failed {failure failure' : Failure} {state state' : State} (failures : fails failure failure')
      (states : state.Alike state') : Alike fails (.failed failure state) (.failed failure' state')
  | exhausted : Alike fails .exhausted .exhausted

/-- Two actions come to the same but for positions, from states that are. -/
def Action.Alike {α : Type} (fails : Failure → Failure → Prop) (action action' : Action α) :
    Prop :=
  ∀ state state' : State, state.Alike state' → (action state).Alike fails (action' state')

namespace Action.Alike

open Failure

variable {α β : Type} {fails fails' : Failure → Failure → Prop} {action action' : Action α}

theorem pure {value : α} : Action.Alike fails (pure value) (pure value) :=
  fun _ _ h => .done h

theorem exhausted : Action.Alike fails (Action.exhausted : Action α) Action.exhausted :=
  fun _ _ _ => .exhausted

theorem bind {next next' : α → Action β} (haction : action.Alike fails action')
    (hnext : ∀ value, (next value).Alike fails (next' value)) :
    (action >>= next).Alike fails (action' >>= next') := by
  intro state state' h
  have hstep := haction state state' h
  rw [bind_apply, bind_apply]
  generalize action state = outcome, action' state' = outcome' at hstep ⊢
  cases hstep with
  | done states => exact hnext _ _ _ states
  | failed failures states => exact .failed failures states
  | exhausted => exact .exhausted

theorem mono (haction : action.Alike fails action')
    (weaker : ∀ failure failure', fails failure failure' → fails' failure failure') :
    action.Alike fails' action' := by
  intro state state' h
  have hstep := haction state state' h
  generalize action state = outcome, action' state' = outcome' at hstep ⊢
  cases hstep with
  | done states => exact .done states
  | failed failures states => exact .failed (weaker _ _ failures) states
  | exhausted => exact .exhausted

theorem look {view : State → α} (same : ∀ state state' : State, state.Alike state' →
    view state = view state') : Action.Alike fails (Action.look view) (Action.look view) := by
  intro state state' h
  have hview : Action.look view state' = .done (view state) state' := by
    rw [same state state' h]
    rfl
  rw [hview]
  exact .done h

theorem ofExcept {result : Except Failure α}
    (wellFormed : ∀ failure, result = .error failure → failure.cause.isMalformed = false) :
    Action.Alike Passed (Action.ofExcept result) (Action.ofExcept result) := by
  intro state state' h
  cases result with
  | ok value => exact .done h
  | error failure => exact .failed ⟨rfl, wellFormed failure rfl⟩ h

theorem locate (haction : action.Alike Passed action') (position position' : Unit → Position) :
    Action.Alike Passed (Action.locate position action) (Action.locate position' action') := by
  intro state state' h
  have hstep := haction state state' h
  unfold Action.locate
  generalize action state = outcome, action' state' = outcome' at hstep ⊢
  cases hstep with
  | done states => exact .done states
  | failed failures states => exact .failed (failures.place _ _) states
  | exhausted => exact .exhausted

theorem reporting (haction : action.Alike Passed action') (self : EngineId) :
    Action.Alike Passed (Action.reporting self action) (Action.reporting self action') := by
  intro state state' h
  have hstep := haction state state' h
  unfold Action.reporting
  generalize action state = outcome, action' state' = outcome' at hstep ⊢
  cases hstep with
  | done states => exact .done states
  | failed failures states => exact .failed (failures.attach (states.report_unplaced self)) states
  | exhausted => exact .exhausted

/-- What looks at no positions, keeps the texts and finds the causes of its failures by itself comes
to the same on both sides. -/
theorem of_unplaced (blind : action.Unplaced action)
    (ends : ∀ state, (action state).Ends
      (fun _ after => state.engines.size ≤ after.engines.size ∧
        ∀ id, (after.engine id).content = (state.engine id).content)
      fun failure after => (state.engines.size ≤ after.engines.size ∧
        ∀ id, (after.engine id).content = (state.engine id).content) ∧
          failure.cause.isMalformed = false) :
    action.Alike Passed action := by
  intro state state' h
  have hunplaced : (action state).unplaced = (action state').unplaced := by
    rw [← blind, ← blind, h.unplaced]
  have hends := ends state
  have hends' := ends state'
  cases hleft : action state <;> cases hright : action state' <;>
    rw [hleft, hright] at hunplaced <;> rw [hleft] at hends <;> rw [hright] at hends' <;>
    simp only [Outcome.unplaced, Outcome.done.injEq, Outcome.failed.injEq,
      reduceCtorEq] at hunplaced
  · obtain ⟨rfl, hafter⟩ := hunplaced
    exact .done (h.of_contents hafter hends.1 hends.2 hends'.2)
  · obtain ⟨hfailure, hafter⟩ := hunplaced
    exact .failed ⟨hfailure, hends.2⟩ (h.of_contents hafter hends.1.1 hends.1.2 hends'.1.2)
  · exact .exhausted

end Action.Alike

/-! ## Main programs -/

theorem runMain_unplaced (bound : Nat) (self : EngineId) :
    (runMain (execute bound) self).Unplaced (runMain (execute bound) self) := by
  intro state
  have hbody := (runner_unplaced bound).2 self (state.engine self).program.statements
  have hprogram : (state.unplaced.engine self).program.statements =
      (state.engine self).program.statements.map Statement.unplaced := by
    rw [State.engine_unplaced]
    rfl
  simp only [runMain, Action.bind_apply, Action.look, hprogram,
    hbody.inFlowFrame self .main state]
  cases Action.inFlowFrame self .main
    (execute bound self (state.engine self).program.statements) state <;> rfl

theorem runMain_alike (bound : Nat) (self : EngineId) :
    Action.Alike Failure.Passed (runMain (execute bound) self) (runMain (execute bound) self) := by
  refine .of_unplaced (runMain_unplaced bound self) fun state => ?_
  refine (runMain_ends bound self state).mono ?_ ?_
  · intro _ after same
    exact ⟨Nat.le_of_eq same.size.symm, same.content⟩
  · intro failure after ⟨same, hcause⟩
    exact ⟨⟨Nat.le_of_eq same.size.symm, same.content⟩,
      Failure.Cause.isMalformed_of_isEvaluation hcause⟩

/-! ## Imports -/

namespace Loading

open Failure

theorem refuseCycle_alike (name : String) (path : Path) :
    Action.Alike Passed (refuseCycle name path) (refuseCycle name path) := by
  intro state state' h
  have hloading : state'.loading = state.loading := (h.part State.loading fun _ => rfl).symm
  have hfiles : state'.files = state.files := (h.part State.files fun _ => rfl).symm
  simp only [refuseCycle, hloading, hfiles]
  split
  · exact .failed ⟨rfl, rfl⟩ h
  · exact .done h

theorem expose_unplaced (self module : EngineId) :
    (expose self module).Unplaced (expose self module) := by
  refine .change fun state => ?_
  have hfreeze : ∀ top : ScopeId,
      (state.unplaced.modifyScope top fun scope =>
        { scope with immutable := true, foreign := true }) =
        (state.modifyScope top fun scope =>
          { scope with immutable := true, foreign := true }).unplaced :=
    fun top => state.modifyScope_unplaced top fun _ => rfl
  have hparent : ∀ (state : State) (root top : ScopeId),
      state.unplaced.modifyScope root (fun scope => scope.addParent top) =
        (state.modifyScope root fun scope => scope.addParent top).unplaced :=
    fun state root top => state.modifyScope_unplaced root fun _ => rfl
  simp only [State.currentScope_unplaced, hfreeze, State.engine_unplaced]
  rw [Engine.unplaced, hparent]
  exact State.modifyEngine_unplaced _ self fun _ => rfl

theorem expose_alike (self module : EngineId) :
    Action.Alike Passed (expose self module) (expose self module) := by
  refine .of_unplaced (expose_unplaced self module) fun state => ?_
  refine ⟨Nat.le_of_eq (state.size_expose self module).symm, ?_⟩
  exact State.engine_expose_congr Engine.content fun _ _ => rfl

theorem resolve_wellFormed {files : FileTree} {library : Path} {name : String} {failure : Failure}
    (h : Module.resolve files library name = .error failure) :
    failure.cause.isMalformed = false := by
  unfold Module.resolve at h
  split at h <;> cases h
  rfl

theorem read_wellFormed {files : FileTree} {path : Path} {name : String} {failure : Failure}
    (h : Module.read files path name = .error failure) : failure.cause.isMalformed = false := by
  unfold Module.read at h
  split at h <;> cases h
  rfl

theorem whileLoading_alike (self : EngineId) {action action' : Action Unit}
    (haction : action.Alike Passed action') :
    Action.Alike Passed (whileLoading self action) (whileLoading self action') := by
  intro state state' h
  have hloading : ∀ {after after' : State}, after.Alike after' →
      after'.loading = after.loading :=
    fun h => (h.part State.loading fun _ => rfl).symm
  have hfile : state'.files.identity (state'.engine self).path =
      state.files.identity (state.engine self).path := by
    rw [← h.path self, h.part State.files fun _ => rfl]
  have hinner := haction _ _
    (h.withLoading (state.loading ++ [state.files.identity (state.engine self).path]))
  simp only [whileLoading, hfile, hloading h]
  generalize action _ = outcome, action' _ = outcome' at hinner ⊢
  cases hinner with
  | done states =>
      simp only [hloading states]
      exact .done (states.withLoading _)
  | failed failures states =>
      simp only [hloading states]
      exact .failed failures (states.withLoading _)
  | exhausted => exact .exhausted

section Imports

variable {load : EngineId → Action Unit}
  (loads : ∀ self, Action.Alike (Told self) (load self) (load self)) (bound : Nat)
include loads

theorem loadModule_alike (name : String) {module : EngineId} (h : module ≠ Script.main) :
    Action.Alike Passed (loadModule load name module) (loadModule load name module) := by
  intro state state' halike
  have hload := loads module state state' halike
  unfold loadModule
  generalize load module state = outcome, load module state' = outcome' at hload ⊢
  cases hload with
  | done states => exact .done states
  | failed failures states => exact .failed (failures.passed h name) states
  | exhausted => exact .exhausted

theorem importModule_alike (self : EngineId) (name : String) :
    Action.Alike Passed (importModule load (execute bound) self name)
      (importModule load (execute bound) self name) := by
  refine Action.Alike.bind (.look fun state state' h => ?_) fun (files, library) => ?_
  · exact h.part (fun state => (state.files, state.config.library)) fun _ => rfl
  refine Action.Alike.bind (.ofExcept fun _ => resolve_wellFormed) fun path => ?_
  refine (refuseCycle_alike name path).bind fun _ => ?_
  refine Action.Alike.bind (.ofExcept fun _ => read_wellFormed) fun content => ?_
  -- The engine of the module is a new one on both sides, with the same number.
  intro state state' h
  have hmodule : state.engines.size ≠ Script.main := Nat.ne_of_gt h.started
  have hrest := (loadModule_alike loads name hmodule).bind fun _ =>
    (runMain_alike bound state.engines.size).bind fun _ => expose_alike self state.engines.size
  have hopened := hrest _ _ (h.addEngine path content)
  have hnumber : ∀ state : State, (state.addEngine path content).2 = state.engines.size :=
    fun _ => rfl
  simp only [Action.bind_apply, Action.update, hnumber, ← h.size] at hopened ⊢
  exact hopened

theorem importAll_alike (self : EngineId) {requests requests' : List Import}
    (same : requests.map Import.unplaced = requests'.map Import.unplaced) :
    Action.Alike Passed (importAll load (execute bound) self requests)
      (importAll load (execute bound) self requests') := by
  induction requests generalizing requests' with
  | nil =>
      obtain rfl : requests' = [] := by simpa using same.symm
      exact .pure
  | cons request rest ih =>
      obtain ⟨request', rest', rfl, hrequest, hrest⟩ := List.map_eq_cons_iff.1 same.symm
      have hmodule : request'.module = request.module :=
        congrArg (fun request => request.module) hrequest
      simp only [importAll, hmodule]
      have himport := importModule_alike loads bound self request.module
      exact ((himport.locate _ _).reporting self).bind fun _ => ih hrest.symm

theorem imports_alike (self : EngineId) :
    Action.Alike Passed (imports load (execute bound) self)
      (imports load (execute bound) self) := by
  intro state state' h
  have hrequests := h.requests self
  unfold imports
  generalize (state.engine self).program.imports = requests at hrequests ⊢
  generalize (state'.engine self).program.imports = requests' at hrequests ⊢
  cases requests <;> cases requests' <;>
    simp only [List.map_nil, List.map_cons, reduceCtorEq, List.nil_eq] at hrequests
  · exact .done h
  · refine whileLoading_alike self (importAll_alike loads bound self ?_) _ _ h
    simpa using hrequests

end Imports

/-! ## Sources -/

theorem readProgram_alike (self : EngineId) :
    Action.Alike (Told self) (readProgram self) (readProgram self) := by
  intro state state' h
  have hresult : Program.resultUnplaced (Program.ofSource (state.engine self).content) =
      Program.resultUnplaced (Program.ofSource (state'.engine self).content) := by
    by_cases hself : self = Script.main
    · rw [hself]
      exact h.script.ofSource
    · rw [h.modules self hself]
  unfold readProgram
  cases hleft : Program.ofSource (state.engine self).content <;>
    cases hright : Program.ofSource (state'.engine self).content <;>
    rw [hleft, hright] at hresult <;>
    simp only [Program.resultUnplaced, Except.ok.injEq, Except.error.injEq,
      reduceCtorEq] at hresult
  · rename_i error error'
    refine .failed ⟨?_, fun hself => .inl ?_⟩ h
    · have hcause : error.cause.unplaced = error'.cause.unplaced := congrArg (·.cause) hresult
      simp only [unplaced_attach, ofSyntaxError, unplaced_place, unplaced_ofCause, Cause.unplaced,
        hcause, h.report_unplaced self]
    · rw [h.modules self hself, hright] at hleft
      obtain rfl : error' = error := by simpa using hleft
      rw [h.report hself]
  · exact .done (h.withProgram self hresult)

theorem declareConsole_alike (self : EngineId) :
    Action.Alike Passed (declareConsole self) (declareConsole self) := by
  refine .of_unplaced (.change fun state => ?_) fun state => ⟨Nat.le_refl _, fun _ => rfl⟩
  rw [State.engine_unplaced]
  exact state.modifyScope_unplaced _ fun root =>
    root.addBlock_unplaced (.native self Console.blockName)

end Loading

theorem load_alike (bound : Nat) (self : EngineId) :
    Action.Alike (Failure.Told self) (load bound self) (load bound self) := by
  induction bound generalizing self with
  | zero => exact .exhausted
  | succ bound ih =>
      refine (Loading.readProgram_alike self).bind fun _ => ?_
      refine Action.Alike.mono ?_ fun _ _ (passed : Failure.Passed _ _) => passed.told self
      exact (Loading.declareConsole_alike self).bind fun _ => Loading.imports_alike ih bound self

/-! ## Whole runs -/

theorem State.initial_alike (config : Config) (files : FileTree) (input : Source) (path : Path)
    {source source' : String} (same : Program.SameKinds source source') :
    (initial config files input path source).Alike (initial config files input path source') := by
  let empty : State := { config, files, console := { channel := { source := input } } }
  have hengine : ∀ (content : String) (id : EngineId),
      ((initial config files input path content).engine id).content =
        if id = Script.main then content else "" := by
    intro content id
    have hinitial := empty.engine_addEngine path content id
    rw [initial, hinitial]
    split
    · rename_i hid
      exact (if_pos hid).symm
    · rename_i hid
      exact (if_neg hid).symm
  refine ⟨?_, Nat.zero_lt_one, ?_, ?_⟩
  · exact (Alike.addEngine_unplaced empty path source).trans
      (Alike.addEngine_unplaced empty path source').symm
  · simpa only [hengine, if_pos] using same
  · intro id hid
    simp only [hengine, if_neg hid]

namespace Script

/-- Two states show the same of a script: the values of its names, and what went through the
console. -/
structure ShowsSame (state state' : State) : Prop where
  globals : ∀ name, state.global? main name = state'.global? main name
  console : state.console = state'.console

theorem ShowsSame.of_alike {state state' : State} (h : state.Alike state') :
    ShowsSame state state' where
  globals name := h.part (fun state => state.global? main name) fun state =>
    state.global?_unplaced main name
  console := h.part State.console fun _ => rfl

/-- Two runs of a script show the same but for positions: they end well, they fail for the same
cause in the same frames, or they are cut short. -/
inductive Agree : Outcome Unit → Outcome Unit → Prop where
  | done {state state' : State} (shown : ShowsSame state state') :
      Agree (.done () state) (.done () state')
  | failed {failure failure' : Failure} {state state' : State}
      (cause : failure.cause.unplaced = failure'.cause.unplaced)
      (callStack : failure.report.map (·.callStack) = failure'.report.map (·.callStack))
      (shown : ShowsSame state state') : Agree (.failed failure state) (.failed failure' state')
  | exhausted : Agree .exhausted .exhausted

theorem run_alike (bound : Nat) :
    Action.Alike (Failure.Told main) (run bound) (run bound) := by
  refine (load_alike bound main).bind fun _ => ?_
  exact (runMain_alike bound main).mono fun _ _ passed => passed.told main

theorem Agree.of_alike {outcome outcome' : Outcome Unit}
    (h : outcome.Alike (Failure.Told main) outcome') : Agree outcome outcome' := by
  cases h with
  | done states => exact .done (.of_alike states)
  | @failed failure failure' _ _ failures states =>
      have hreport : failure.report.map Failure.Report.unplaced =
          failure'.report.map Failure.Report.unplaced :=
        congrArg Failure.report failures.unplaced
      refine .failed (congrArg Failure.cause failures.unplaced) ?_ (.of_alike states)
      have hframes := congrArg (Option.map fun report : Failure.Report => report.callStack) hreport
      simpa [Failure.Report.unplaced, Function.comp_def] using hframes
  | exhausted => exact .exhausted

end Script

/-- Texts with tokens of the same kinds, which differ in nothing but layout and the spelling of
literals, are the same program but for positions, or no program for the same reason.  Run with the
same modules, configuration and input, they leave the same values and the same console, and both end
well, both fail for the same cause in the same frames, or both are cut short by the same bound. -/
theorem layout_never_matters (config : Config) (files : FileTree) (input : Source) (path : Path)
    {source source' : String} (same : Program.SameKinds source source') :
    Program.resultUnplaced (Program.ofSource source) =
        Program.resultUnplaced (Program.ofSource source') ∧
      ∀ bound, Script.Agree (Script.run bound (State.initial config files input path source))
        (Script.run bound (State.initial config files input path source')) := by
  refine ⟨same.ofSource, fun bound => .of_alike ?_⟩
  exact Script.run_alike bound _ _ (State.initial_alike config files input path same)

/-- A script that imports a module and fails in a call of one of its blocks, as an instance: spread
over other lines, with an integer in another base, it fails in the same way. -/
theorem layout_never_matters_of_import :
    let files := FileTree.putFile {} ["bir", "m.bir"] (.file "split[n] { return n / 0 }".toUTF8)
    let source := "use \"m\"\nlet x = 10\nsplit(x)"
    let source' := "use   \"m\" let x =\n\n @xA split(x)"
    Program.SameKinds source source' ∧
      Script.Agree (Script.run 50 (State.initial {} files (.prepared []) "main.bir" source))
        (Script.run 50 (State.initial {} files (.prepared []) "main.bir" source')) := by
  intro files source source'
  have hkinds : (Token.scan source).toOption.isSome = true ∧
      (Token.scan source).toOption.map (List.map Token.kind) =
        (Token.scan source').toOption.map (List.map Token.kind) := by decide +kernel
  have hsame : Program.SameKinds source source' := by
    cases hscan : Token.scan source <;> cases hscan' : Token.scan source' <;>
      simp only [hscan, hscan', Except.toOption, Option.isSome, Option.map_some, Option.map_none,
        Option.some.injEq, reduceCtorEq, false_and, and_false, true_and] at hkinds
    exact ⟨_, _, hscan, hscan', hkinds⟩
  exact ⟨hsame, (layout_never_matters {} files (.prepared []) "main.bir" hsame).2 50⟩

end Bir
