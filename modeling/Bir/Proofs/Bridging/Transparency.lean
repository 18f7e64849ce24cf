import Bir.Proofs.Bridging.Evaluation
import Bir.Proofs.Monotone

/-!
# Transparency — whole runs come to the same, bridged or flat

Sources are loaded in the same engines on both sides, so between evaluations the two runs have the
same engines, and their graphs are like each other with the same flags.  This file defines:

* `State.Twins` — two states that differ in routing and in owners of blocks alone;
* `Failure.Tells` — two failures that differ in the source that their reports show alone;
* `Watch.Blind` — watches that see neither engines nor owners nor flags.
-/

namespace Bir

/-! ## Twins -/

/-- Two states are the same but for the routing of the second, which is flat, and for owners of
blocks in scopes that are not kept. -/
structure State.Twins (kept : ScopeId → Bool) (state state' : State) : Prop where
  config : state'.config = { state.config with routing := .flat }
  files : state'.files = state.files
  loading : state'.loading = state.loading
  engines : state'.engines = state.engines
  console : state'.console = state.console
  graph : state.graph.Like kept state'.graph
  foreign : ∀ id, (state'.graph.get id).foreign = (state.graph.get id).foreign

/-- The engines of a state use engines that exist, and each has a current scope on its stack. -/
structure State.Stacked (state : State) : Prop where
  exist : state.UsesExist
  stacked : ∀ id < state.engines.size, (state.engine id).scopeStack.size ≠ 0

/-- Two failures tell the same and show the same frames. -/
structure Failure.Tells (failure failure' : Failure) : Prop where
  cause : failure.cause = failure'.cause
  position : failure.position = failure'.position
  frames : failure.report.map (·.callStack) = failure'.report.map (·.callStack)

namespace Failure.Tells

variable {failure failure' : Failure}

theorem refl (failure : Failure) : Tells failure failure := ⟨rfl, rfl, rfl⟩

theorem place (h : Tells failure failure') (position : Position) :
    Tells (failure.place position) (failure'.place position) := by
  obtain ⟨hcause, hposition, hframes⟩ := h
  unfold Failure.place
  rw [hposition]
  split
  · exact ⟨hcause, rfl, hframes⟩
  · exact ⟨hcause, hposition, hframes⟩

theorem attach (h : Tells failure failure') {report report' : Unit → Report}
    (frames : (report ()).callStack = (report' ()).callStack) :
    Tells (failure.attach report) (failure'.attach report') := by
  obtain ⟨hcause, hposition, hframes⟩ := h
  refine ⟨by simpa using hcause, ?_, ?_⟩
  · unfold Failure.attach
    split <;> split <;> exact hposition
  · unfold Failure.attach
    cases hleft : failure.report with
    | none =>
        cases hright : failure'.report with
        | none => simp [frames]
        | some report => simp [hleft, hright] at hframes
    | some report =>
        cases hright : failure'.report with
        | none => simp [hleft, hright] at hframes
        | some report' => simpa [hleft, hright] using hframes

theorem ofModule (h : Tells failure failure') (name : String) :
    Tells (Loading.ofModule name failure) (Loading.ofModule name failure') := by
  obtain ⟨hcause, hposition, hframes⟩ := h
  unfold Loading.ofModule
  rw [hcause, hposition]
  split
  · exact ⟨rfl, rfl, hframes⟩
  · exact ⟨hcause, hposition, hframes⟩

/-- Failures that are alike under whatever frames show the same frames. -/
theorem of_alike (h : ∀ stack, Alike stack failure failure') : Tells failure failure' := by
  have hempty := h {}
  have hother := (h { frames := #[""] }).frames
  refine ⟨hempty.cause, hempty.position, ?_⟩
  have hframes := hempty.frames
  cases hleft : failure.report with
  | none =>
      cases hright : failure'.report with
      | none => rfl
      | some report =>
          rw [hleft, hright] at hframes hother
          simp only [Option.map_none, Option.map_some, Option.getD_none, Option.getD_some]
            at hframes hother
          rw [← hframes] at hother
          simp [CallStack.outermostFirst] at hother
  | some report =>
      cases hright : failure'.report with
      | none =>
          rw [hleft, hright] at hframes hother
          simp only [Option.map_none, Option.map_some, Option.getD_none, Option.getD_some]
            at hframes hother
          rw [hframes] at hother
          simp [CallStack.outermostFirst] at hother
      | some report' => simpa [hleft, hright] using hframes

end Failure.Tells

namespace State.Twins

variable {kept : ScopeId → Bool} {state state' : State}

theorem agree (h : Twins kept state state') (stacked : state.Stacked) {self : EngineId}
    (exists' : self < state.engines.size) : Agree kept self state self state' where
  graph := h.graph
  console := h.console.symm
  callStack := by rw [callStack_congr h.engines]
  current := by rw [currentScope_congr h.engines]
  stacked := stacked.stacked self exists'
  stacked' := by
    rw [engine_congr h.engines]
    exact stacked.stacked self exists'
  exist := stacked.exist
  flat := by rw [h.config]
  bridged := Or.inl rfl

/-- Twins stay twins where both sides are in step and undisturbed. -/
theorem undisturbed {after after' : State} (h : Twins kept state state')
    (step : InStep kept state state' after after') (left : Undisturbed state after)
    (right : Undisturbed state' after') : Twins kept after after' where
  config := by rw [right.config, left.config, h.config]
  files := by rw [right.files, left.files, h.files]
  loading := by rw [right.loading, left.loading, h.loading]
  engines := by rw [right.engines, left.engines, h.engines]
  console := step.console.symm
  graph := step.graph
  foreign id := by rw [right.foreign, left.foreign, h.foreign]

theorem modifyScope (h : Twins kept state state') (id : ScopeId) {change : Scope → Scope}
    (like : ∀ scope scope' : Scope, scope.Like (kept id) scope' →
      (change scope).Like (kept id) (change scope'))
    (foreign : ∀ scope scope' : Scope, scope'.foreign = scope.foreign →
      (change scope').foreign = (change scope).foreign) :
    Twins kept (state.modifyScope id change) (state'.modifyScope id change) := by
  refine { h with graph := h.graph.modify id like, foreign := ?_ }
  intro id'
  simp only [graph_modifyScope, ScopeGraph.get_modify, h.graph.size]
  split
  · exact foreign _ _ (h.foreign id')
  · exact h.foreign id'

theorem withLoading (h : Twins kept state state')
    (change : List FileIdentity → List FileIdentity) :
    Twins kept { state with loading := change state.loading }
      { state' with loading := change state'.loading } :=
  { h with loading := congrArg change h.loading }

theorem modifyEngine (h : Twins kept state state') (id : EngineId) (change : Engine → Engine) :
    Twins kept (state.modifyEngine id change) (state'.modifyEngine id change) :=
  { h with engines := by simp [h.engines] }

theorem addEngine (h : Twins kept state state') (path : Path) (content : String) :
    Twins kept (state.addEngine path content).1 (state'.addEngine path content).1 where
  config := h.config
  files := h.files
  loading := h.loading
  engines := by
    have hlimit : (state'.addScope {}).1.config.callLimit =
        (state.addScope {}).1.config.callLimit := by
      change state'.config.callLimit = state.config.callLimit
      rw [h.config]
    simp [State.addEngine, h.engines, h.graph.size, hlimit]
  console := h.console
  graph := h.graph.add (.refl _ {})
  foreign id := by
    change ((state'.graph.add {}).1.get id).foreign = ((state.graph.add {}).1.get id).foreign
    rw [ScopeGraph.get_add, ScopeGraph.get_add, h.graph.size]
    split
    · rfl
    · exact h.foreign id

theorem expose (h : Twins kept state state') (importer module : EngineId) :
    Twins kept (state.expose importer module) (state'.expose importer module) := by
  have htop : state'.currentScope module = state.currentScope module :=
    currentScope_congr h.engines module
  have hroot : (state'.engine importer).root = (state.engine importer).root := by
    rw [engine_congr h.engines]
  unfold State.expose
  rw [htop, hroot]
  refine modifyEngine (modifyScope (modifyScope h _ ?_ ?_) _ ?_ ?_) importer _
  · exact fun _ _ hlike => hlike.freeze
  · exact fun _ _ _ => rfl
  · exact fun _ _ hlike => hlike.addParent _
  · exact fun _ _ hforeign => hforeign

end State.Twins

/-! ## Stacks of loaded sources -/

namespace State.Stacked

variable {state : State}

theorem of_engines {after : State} (h : state.Stacked) (engines : after.engines = state.engines) :
    after.Stacked where
  exist := (SameUses.of_engines engines).usesExist h.exist
  stacked id hid := by
    rw [engines] at hid
    rw [engine_congr engines]
    exact h.stacked id hid

theorem modifyEngine (h : state.Stacked) (id : EngineId) {change : Engine → Engine}
    (uses : ∀ engine, (change engine).uses = engine.uses)
    (scopes : ∀ engine, (change engine).scopeStack = engine.scopeStack) :
    (state.modifyEngine id change).Stacked where
  exist := (SameUses.modifyEngine id uses).usesExist h.exist
  stacked id' hid := by
    rw [size_modifyEngine] at hid
    rw [state.engine_modifyEngine_congr id Engine.scopeStack scopes]
    exact h.stacked id' hid

theorem addEngine (h : state.Stacked) (path : Path) (content : String) :
    (state.addEngine path content).1.Stacked where
  exist := h.exist.addEngine path content
  stacked id hid := by
    rcases lt_addEngine path content hid with hlt | rfl
    · rw [engine_addEngine_of_lt path content hlt]
      exact h.stacked id hlt
    · simp [engine_addEngine]

theorem expose (h : state.Stacked) {importer module : EngineId}
    (exists' : module < state.engines.size) : (state.expose importer module).Stacked where
  exist := h.exist.expose exists'
  stacked id hid := by
    rw [size_expose] at hid
    rw [engine_expose_congr Engine.scopeStack (by intro _ _; rfl)]
    exact h.stacked id hid

end State.Stacked

/-! ## Steps of both sides -/

namespace Coupling

variable (C : Coupling) {α β : Type}

/-- Two outcomes of steps between evaluations; engines are only ever added. -/
inductive Comes (size : Nat) : Outcome α → Outcome α → Prop where
  | done {value after after'} (twins : State.Twins C.kept after after') (stacked : after.Stacked)
      (grows : size ≤ after.engines.size) : Comes size (.done value after) (.done value after')
  | failed {failure failure' after after'} (tells : Failure.Tells failure failure')
      (twins : State.Twins C.kept after after') (stacked : after.Stacked)
      (grows : size ≤ after.engines.size) :
      Comes size (.failed failure after) (.failed failure' after')
  | lost {failure after outcome'} (lost : C.Lost failure) :
      Comes size (.failed failure after) outcome'
  | exhausted : Comes size .exhausted .exhausted

/-- Two steps of an engine come to the same from twins. -/
def Steps (self : EngineId) (action action' : Action α) : Prop :=
  ∀ state state', State.Twins C.kept state state' → state.Stacked → self < state.engines.size →
    C.Comes state.engines.size (action state) (action' state')

variable {C} {self : EngineId} {action action' : Action α}

theorem Steps.pure (value : α) : C.Steps self (pure value) (pure value) :=
  fun _ _ h stacked _ => .done h stacked (Nat.le_refl _)

theorem Comes.bind {size : Nat} {state state' : State} {next next' : α → Action β}
    (h : C.Comes size (action state) (action' state'))
    (hnext : ∀ value after after', State.Twins C.kept after after' → after.Stacked →
      size ≤ after.engines.size → C.Comes size (next value after) (next' value after')) :
    C.Comes size ((action >>= next) state) ((action' >>= next') state') := by
  rw [Action.bind_apply, Action.bind_apply]
  generalize action state = outcome at h
  generalize action' state' = outcome' at h
  cases h with
  | done htwins hstacked hgrows => exact hnext _ _ _ htwins hstacked hgrows
  | failed htells htwins hstacked hgrows => exact .failed htells htwins hstacked hgrows
  | lost hlost => exact .lost hlost
  | exhausted => exact .exhausted

theorem Comes.weaken {size size' : Nat} {outcome outcome' : Outcome α} (hsize : size ≤ size')
    (h : C.Comes size' outcome outcome') : C.Comes size outcome outcome' := by
  cases h with
  | done htwins hstacked hgrows => exact .done htwins hstacked (Nat.le_trans hsize hgrows)
  | failed htells htwins hstacked hgrows =>
      exact .failed htells htwins hstacked (Nat.le_trans hsize hgrows)
  | lost hlost => exact .lost hlost
  | exhausted => exact .exhausted

theorem Steps.bind {next next' : α → Action β} (hfirst : C.Steps self action action')
    (hnext : ∀ value, C.Steps self (next value) (next' value)) :
    C.Steps self (action >>= next) (action' >>= next') := by
  intro state state' h stacked exists'
  refine Comes.bind (hfirst state state' h stacked exists') ?_
  intro value after after' htwins hstacked hgrows
  have hlater := hnext value after after' htwins hstacked (Nat.lt_of_lt_of_le exists' hgrows)
  exact hlater.weaken hgrows

theorem Steps.look {view : State → α} (same : ∀ {state state'}, State.Twins C.kept state state' →
    view state' = view state) : C.Steps self (Action.look view) (Action.look view) := by
  intro state state' twins stacked _
  simp only [Action.look, same twins]
  exact .done twins stacked (Nat.le_refl _)

theorem Steps.ofExcept (result : Except Failure α) :
    C.Steps self (Action.ofExcept result) (Action.ofExcept result) := by
  cases result with
  | ok value => exact Steps.pure value
  | error failure => exact fun _ _ h stacked _ => .failed (.refl _) h stacked (Nat.le_refl _)

theorem Steps.locate (h : C.Steps self action action') (position : Unit → Position) :
    C.Steps self (Action.locate position action) (Action.locate position action') := by
  intro state state' htwins stacked exists'
  have hcomes := h state state' htwins stacked exists'
  unfold Action.locate
  generalize action state = outcome at hcomes
  generalize action' state' = outcome' at hcomes
  cases hcomes with
  | done htwins hstacked hgrows => exact .done htwins hstacked hgrows
  | failed htells htwins hstacked hgrows => exact .failed (htells.place _) htwins hstacked hgrows
  | lost hlost => exact .lost ⟨hlost.1, by simpa using hlost.2⟩
  | exhausted => exact .exhausted

theorem Steps.reporting (h : C.Steps self action action') :
    C.Steps self (Action.reporting self action) (Action.reporting self action') := by
  intro state state' htwins stacked exists'
  have hcomes := h state state' htwins stacked exists'
  unfold Action.reporting
  generalize action state = outcome at hcomes
  generalize action' state' = outcome' at hcomes
  cases hcomes with
  | done htwins hstacked hgrows => exact .done htwins hstacked hgrows
  | failed htells htwins hstacked hgrows =>
      refine .failed (htells.attach ?_) htwins hstacked hgrows
      change (State.callStack _ self).outermostFirst = (State.callStack _ self).outermostFirst
      rw [State.callStack_congr htwins.engines]
  | lost hlost => exact .lost ⟨hlost.1, by simpa using hlost.2⟩
  | exhausted => exact .exhausted

/-! ## Loading -/

/-- Where both sides are in step under whatever frames and neither is disturbed, twins stay
twins. -/
theorem Comes.of_pairs {state state' : State} {outcome outcome' : Outcome α}
    (h : ∀ stack, C.Pairs stack state state' outcome outcome')
    (twins : State.Twins C.kept state state') (stacked : state.Stacked)
    (left : outcome.Leaves fun after => State.Undisturbed state after)
    (right : outcome'.Leaves fun after => State.Undisturbed state' after) :
    C.Comes state.engines.size outcome outcome' := by
  have hgrows : ∀ {after : State}, after.engines = state.engines →
      state.engines.size ≤ after.engines.size := by
    intro after hengines
    exact Nat.le_of_eq (by rw [hengines])
  have hpairs := h {}
  cases hpairs with
  | done hstep =>
      exact .done (twins.undisturbed hstep left right) (stacked.of_engines hstep.engines)
        (hgrows hstep.engines)
  | @failed failure failure' after after' _ hstep =>
      by_cases hlost : C.Lost failure
      · exact .lost hlost
      · refine .failed (.of_alike fun stack => ?_) (twins.undisturbed hstep left right)
          (stacked.of_engines hstep.engines) (hgrows hstep.engines)
        cases h stack with
        | failed halike _ => exact halike
        | lost hlost' => exact absurd hlost' hlost
  | lost hlost => exact .lost hlost
  | exhausted => exact .exhausted

theorem mainFrame_steps (bound : Nat) (statements : List Statement) :
    C.Steps self (Action.inFlowFrame self .main (executeUnder C.watch bound self statements))
      (Action.inFlowFrame self .main (executeUnder C.watch' bound self statements)) := by
  intro state state' twins stacked exists'
  have hagree := twins.agree stacked exists'
  have exist' : state'.UsesExist :=
    (State.SameUses.of_engines twins.engines).usesExist stacked.exist
  refine Comes.of_pairs ?_ twins stacked
    (inFlowFrame_undisturbed stacked.exist C.watch bound self .main statements)
    (inFlowFrame_undisturbed exist' C.watch' bound self .main statements)
  intro stack
  exact ((C.knot bound).runs statements).framed FlowFrame.main.name hagree stack

theorem runMain_steps (bound : Nat) :
    C.Steps self (runMain (executeUnder C.watch bound) self)
      (runMain (executeUnder C.watch' bound) self) := by
  refine Steps.bind (Steps.look ?_) fun statements => ?_
  · intro state state' twins
    rw [State.engine_congr twins.engines]
  · exact Steps.bind (mainFrame_steps bound statements) fun _ => Steps.pure ()

theorem refuseCycle_steps (name : String) (path : Path) :
    C.Steps self (Loading.refuseCycle name path) (Loading.refuseCycle name path) := by
  intro state state' twins stacked _
  simp only [Loading.refuseCycle, twins.loading, twins.files]
  split
  · exact .failed (.refl _) twins stacked (Nat.le_refl _)
  · exact .done twins stacked (Nat.le_refl _)

theorem loadModule_steps {load load' : EngineId → Action Unit} {module : EngineId}
    (h : C.Steps module (load module) (load' module)) (name : String) :
    C.Steps module (Loading.loadModule load name module)
      (Loading.loadModule load' name module) := by
  intro state state' twins stacked exists'
  have hcomes := h state state' twins stacked exists'
  unfold Loading.loadModule
  generalize load module state = outcome at hcomes
  generalize load' module state' = outcome' at hcomes
  cases hcomes with
  | done htwins hstacked hgrows => exact .done htwins hstacked hgrows
  | failed htells htwins hstacked hgrows =>
      exact .failed (htells.ofModule name) htwins hstacked hgrows
  | lost hlost =>
      refine .lost ?_
      rw [Failure.ofModule_of_stopped hlost.2]
      exact hlost
  | exhausted => exact .exhausted

theorem expose_steps (importer module : EngineId) :
    C.Steps module (Loading.expose importer module) (Loading.expose importer module) := by
  intro state state' twins stacked exists'
  refine .done (twins.expose importer module) (stacked.expose exists') ?_
  change _ ≤ (state.expose importer module).engines.size
  simp [State.expose]

/-- A module gets an engine of the same number on both sides. -/
theorem importModule_steps {load load' : EngineId → Action Unit} {bound : Nat}
    (h : ∀ self, C.Steps self (load self) (load' self)) (name : String) :
    C.Steps self (Loading.importModule load (executeUnder C.watch bound) self name)
      (Loading.importModule load' (executeUnder C.watch' bound) self name) := by
  refine Steps.bind (Steps.look ?_) fun place => ?_
  · intro state state' twins
    rw [twins.files, twins.config]
  · refine Steps.bind (Steps.ofExcept _) fun path => ?_
    refine Steps.bind (refuseCycle_steps name path) fun _ => ?_
    refine Steps.bind (Steps.ofExcept _) fun content => ?_
    intro state state' twins stacked _
    have hsize : state'.engines.size = state.engines.size := by rw [twins.engines]
    have hgrows := state.size_addEngine path content
    have hmodule : C.Steps state.engines.size
        (do
          Loading.loadModule load name state.engines.size
          runMain (executeUnder C.watch bound) state.engines.size
          Loading.expose self state.engines.size)
        (do
          Loading.loadModule load' name state.engines.size
          runMain (executeUnder C.watch' bound) state.engines.size
          Loading.expose self state.engines.size) := by
      refine Steps.bind (loadModule_steps (h _) name) fun _ => ?_
      exact Steps.bind (runMain_steps bound) fun _ => expose_steps self _
    have hcomes := hmodule _ _ (twins.addEngine path content) (stacked.addEngine path content)
      (hgrows ▸ Nat.lt_succ_self _)
    rw [Action.bind_apply, Action.bind_apply]
    change C.Comes _ _ ((do
      Loading.loadModule load' name state'.engines.size
      runMain (executeUnder C.watch' bound) state'.engines.size
      Loading.expose self state'.engines.size : Action Unit) (state'.addEngine path content).1)
    rw [hsize]
    exact hcomes.weaken (hgrows ▸ Nat.le_succ _)

theorem importAll_steps {load load' : EngineId → Action Unit} {bound : Nat}
    (h : ∀ self, C.Steps self (load self) (load' self)) (requests : List Import) :
    C.Steps self (Loading.importAll load (executeUnder C.watch bound) self requests)
      (Loading.importAll load' (executeUnder C.watch' bound) self requests) := by
  induction requests with
  | nil => exact Steps.pure ()
  | cons request rest ih =>
      refine Steps.bind ?_ fun _ => ih
      exact ((importModule_steps h request.module).locate fun _ => request.position).reporting

theorem whileLoading_steps {action action' : Action Unit} (h : C.Steps self action action') :
    C.Steps self (Loading.whileLoading self action) (Loading.whileLoading self action') := by
  intro state state' twins stacked exists'
  have hfile : state'.files.identity (state'.engine self).path =
      state.files.identity (state.engine self).path := by
    rw [twins.files, State.engine_congr twins.engines]
  have hcomes := h _ _ (twins.withLoading (· ++ [state.files.identity (state.engine self).path]))
    (stacked.of_engines rfl) exists'
  unfold Loading.whileLoading
  simp only [hfile]
  generalize action { state with loading := _ } = outcome at hcomes
  generalize action' { state' with loading := _ } = outcome' at hcomes
  cases hcomes with
  | done htwins hstacked hgrows =>
      exact .done (htwins.withLoading List.dropLast) (hstacked.of_engines rfl) hgrows
  | failed htells htwins hstacked hgrows =>
      exact .failed htells (htwins.withLoading List.dropLast) (hstacked.of_engines rfl) hgrows
  | lost hlost => exact .lost hlost
  | exhausted => exact .exhausted

theorem imports_steps {load load' : EngineId → Action Unit} {bound : Nat}
    (h : ∀ self, C.Steps self (load self) (load' self)) :
    C.Steps self (Loading.imports load (executeUnder C.watch bound) self)
      (Loading.imports load' (executeUnder C.watch' bound) self) := by
  intro state state' twins stacked exists'
  unfold Loading.imports
  rw [State.engine_congr twins.engines]
  split
  · exact .done twins stacked (Nat.le_refl _)
  · exact whileLoading_steps (importAll_steps h _) state state' twins stacked exists'

theorem look_steps : C.Steps self (C.watch.look self) (C.watch'.look self) := by
  intro state state' twins stacked exists'
  have hagree := twins.agree stacked exists'
  unfold Watch.look
  cases hleft : C.watch self .source state with
  | true =>
      cases hright : C.watch' self .source state' with
      | true => exact .failed (.refl _) twins stacked (Nat.le_refl _)
      | false => exact .lost ⟨C.alone hagree hleft hright, rfl⟩
  | false =>
      have hright : C.watch' self .source state' = false := by
        rw [← Bool.not_eq_true]
        intro hstops
        rw [C.stops hagree hstops] at hleft
        cases hleft
      simpa [hright] using .done twins stacked (Nat.le_refl _)

theorem readProgram_steps :
    C.Steps self (Loading.readProgram self) (Loading.readProgram self) := by
  intro state state' twins stacked exists'
  unfold Loading.readProgram
  rw [State.engine_congr twins.engines]
  cases Program.ofSource (state.engine self).content with
  | error error =>
      exact Steps.reporting (Steps.ofExcept _) state state' twins stacked exists'
  | ok program =>
      refine .done (twins.modifyEngine self _)
        (stacked.modifyEngine self (fun _ => rfl) fun _ => rfl) ?_
      simp

theorem declareConsole_steps :
    C.Steps self (Loading.declareConsole self) (Loading.declareConsole self) := by
  intro state state' twins stacked _
  have hroot : (state'.engine self).root = (state.engine self).root := by
    rw [State.engine_congr twins.engines]
  simp only [Loading.declareConsole, Action.change, hroot]
  refine .done (twins.modifyScope _ ?_ fun _ _ hforeign => hforeign) (stacked.of_engines rfl)
    (Nat.le_refl _)
  exact fun _ _ hlike => hlike.addBlock rfl fun _ => rfl

variable (C) in
theorem loadUnder_steps (bound : Nat) (self : EngineId) :
    C.Steps self (loadUnder C.watch bound self) (loadUnder C.watch' bound self) := by
  induction bound generalizing self with
  | zero => exact fun _ _ _ _ _ => .exhausted
  | succ bound ih =>
      refine Steps.bind look_steps fun _ => ?_
      refine Steps.bind readProgram_steps fun _ => ?_
      exact Steps.bind declareConsole_steps fun _ => imports_steps ih

variable (C) in
theorem runUnder_steps (bound : Nat) :
    C.Steps Script.main (Script.runUnder C.watch bound) (Script.runUnder C.watch' bound) :=
  Steps.bind (loadUnder_steps C bound Script.main) fun _ => runMain_steps bound

end Coupling

/-! ## Watches for both sides -/

/-- A watch that sees frames, the current scope, the console and all scopes, but neither engines
nor owners nor flags. -/
def Watch.Blind (watch : Watch) : Prop :=
  ∀ left state right state' code, state.callStack left = state'.callStack right →
    state.currentScope left = state'.currentScope right → state.console = state'.console →
    state.graph.Like (fun _ => false) state'.graph →
    watch left code state = watch right code state'

theorem Watch.blind_silent : Watch.silent.Blind := by
  intro left state right state' code _ _ _ _
  rfl

/-- The watch that finds a frame which is run on borrowed stacks in a scope. -/
def Watch.borrowing (scope : ScopeId) : Watch := fun self code state =>
  match code with
  | .frame _ => state.lends && state.currentScope self == scope
  | _ => false

namespace Coupling

/-- Both sides under a watch that cannot tell them apart. -/
def ofBlind (watch : Watch) (blind : watch.Blind) : Coupling where
  kept _ := false
  watch := watch
  watch' := watch
  loose := False
  stops h hstops := by
    rwa [blind _ _ _ _ _ h.callStack h.current h.console h.graph]
  alone h hleft hright := by
    rw [blind _ _ _ _ _ h.callStack h.current h.console h.graph, hright] at hleft
    cases hleft
  declares _ _ := Or.inr rfl

/-- The left side is stopped where a block might be declared in a scope by a borrower. -/
def keeping (scope : ScopeId) : Coupling where
  kept id := id == scope
  watch := Watch.borrowing scope
  watch' := Watch.silent
  loose := True
  stops _ hstops := by cases hstops
  alone _ _ _ := trivial
  declares h hsilent := by
    rcases h.bridged with heq | hlends
    · exact Or.inl heq
    · exact Or.inr (by simpa [Watch.borrowing, hlends] using hsilent)

end Coupling

/-! ## The two routings -/

/-- Two outcomes match: the same value, or failures that tell the same, in states that are
related. -/
inductive Outcome.Matches (related : State → State → Prop) {α : Type} :
    Outcome α → Outcome α → Prop where
  | done {value after after'} (states : related after after') :
      Matches related (.done value after) (.done value after')
  | failed {failure failure' after after'} (tells : Failure.Tells failure failure')
      (states : related after after') :
      Matches related (.failed failure after) (.failed failure' after')
  | exhausted : Matches related .exhausted .exhausted

theorem Coupling.Comes.matches {C : Coupling} {α : Type} {size : Nat} {outcome outcome' : Outcome α}
    (h : C.Comes size outcome outcome') (kept : C.loose → outcome.isStopped = false) :
    outcome.Matches (State.Twins C.kept) outcome' := by
  cases h with
  | done htwins => exact .done htwins
  | failed htells htwins => exact .failed htells htwins
  | lost hlost =>
      have hstopped := kept hlost.1
      simp [Outcome.isStopped, hlost.2] at hstopped
  | exhausted => exact .exhausted

section Initial

variable (config : Config) (files : FileTree) (source : Source) (path : Path) (content : String)

theorem State.twins_initial (kept : ScopeId → Bool) :
    State.Twins kept (State.initial { config with routing := .bridged } files source path content)
      (State.initial { config with routing := .flat } files source path content) where
  config := rfl
  files := rfl
  loading := rfl
  engines := rfl
  console := rfl
  graph := .refl kept _
  foreign _ := rfl

theorem State.stacked_initial : (State.initial config files source path content).Stacked := by
  have hempty : ({ config, files, console := { channel := { source } } } : State).Stacked :=
    ⟨fun _ _ hused => (by cases hused), fun _ hid => (by cases hid)⟩
  exact hempty.addEngine path content

end Initial

/-- A run whose blocks run in the engines that own them comes to the same as one whose blocks run
in the engines that call them: under every watch that is blind to the difference, and so at every
point, they yield the same value, or failures with the same cause, the same position and the same
frames, and leave states that differ in owners of blocks alone; and a scope in which no frame runs
on borrowed stacks has blocks with the same owners. -/
theorem bridging_is_transparent (config : Config) (files : FileTree) (source : Source) (path : Path)
    (content : String) (bound : Nat) :
    let bridged := State.initial { config with routing := .bridged } files source path content
    let flat := State.initial { config with routing := .flat } files source path content
    (∀ watch : Watch, watch.Blind → (Script.runUnder watch bound bridged).Matches
      (State.Twins fun _ => false) (Script.runUnder watch bound flat)) ∧
    ∀ scope, (Script.runUnder (Watch.borrowing scope) bound bridged).isStopped = false →
      (Script.run bound bridged).Matches (State.Twins fun id => id == scope)
        (Script.run bound flat) := by
  intro bridged flat
  have hstacked := State.stacked_initial { config with routing := .bridged } files source path
    content
  have hmain : Script.main < bridged.engines.size := by
    simp [bridged, State.initial, State.addEngine, Script.main]
  constructor
  · intro watch blind
    have hcomes := (Coupling.ofBlind watch blind).runUnder_steps bound bridged flat
      (State.twins_initial config files source path content _) hstacked hmain
    exact hcomes.matches fun hloose => hloose.elim
  · intro scope hsilent
    have hcomes := (Coupling.keeping scope).runUnder_steps bound bridged flat
      (State.twins_initial config files source path content _) hstacked hmain
    have hmatches := hcomes.matches fun _ => hsilent
    rw [← Script.runUnder_eq hsilent, ← Script.runUnder_silent]
    exact hmatches

/-- A script that calls a block of a module, as an instance: the block declares another one on
borrowed stacks, so owners differ somewhere, but not in the root scope of the script. -/
theorem bridging_is_transparent_of_call :
    let files := FileTree.putFile {} ["bir", "m.bir"] (.file "deep[] { inner[] { } }".toUTF8)
    let run (routing : Routing) := Script.run 30
      (State.initial { routing } files (.prepared []) "main.bir" "use \"m\"\ndeep()")
    (run .bridged).Matches (State.Twins fun _ => false) (run .flat) ∧
      (run .bridged).Matches (State.Twins fun id => id == 0) (run .flat) := by
  intro files run
  have htransparent := bridging_is_transparent {} files (.prepared []) "main.bir"
    "use \"m\"\ndeep()" 30
  constructor
  · have hmatches := htransparent.1 Watch.silent Watch.blind_silent
    rwa [Script.runUnder_silent] at hmatches
  · exact htransparent.2 0 (by decide +kernel)

end Bir
