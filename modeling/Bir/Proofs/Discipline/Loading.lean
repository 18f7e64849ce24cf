import Bir.Proofs.Discipline.Basic

/-!
# Disciplined loading — whole runs keep a discipline

Sources are loaded between evaluations: each module by an engine of its own, which runs it to its
end before its importer goes on.  This file defines:

* `LoadDiscipline` — a discipline that the moves of loading keep as well;
* `LoadDiscipline.Reports` — an action keeps it and reports its failures.

`LoadDiscipline.performs` is what they are for: a step of a script under a watch keeps every such
discipline.
-/

namespace Bir

/-- What is known of a run that loads sources, and why each step of it keeps this. -/
structure LoadDiscipline (watch : Watch) where
  /-- The moments that a run comes to. -/
  holds : Moment → Prop
  /-- The failures that leave an engine, and the states that they leave. -/
  reports : Failure → State → Prop
  main : ∀ {pending self} {state : State} [Framed pending] (bound : Nat),
    holds ⟨pending, self, state⟩ →
    (runMain (executeUnder watch bound) self state).Ends
      (fun _ state' => holds ⟨pending, self, state'⟩)
      (fun failure state' => holds ⟨pending, self, state'⟩ ∧ reports failure state')
  halt : ∀ {pending self state}, holds ⟨pending, self, state⟩ → watch self .source state = true →
    reports Watch.stop state
  loadMove : ∀ {moment moment'}, holds moment → LoadMove moment moment' → holds moment'
  unread : ∀ {pending self} {state : State} {error}, holds ⟨pending, self, state⟩ →
    Program.ofSource (state.engine self).content = .error error →
    reports ((Failure.ofSyntaxError error).attach fun _ => state.report self) state
  missing : ∀ {pending self requests request} {state : State} {cause},
    holds ⟨.imports self requests :: pending, self, state⟩ → request ∈ requests →
    (∀ reason, cause ≠ .console reason) →
    reports (((Failure.ofCause cause).place request.position).attach fun _ => state.report self)
      state
  returned : ∀ {name failure position report state}, reports failure state →
    reports (((Loading.ofModule name failure).place position).attach report) state
  passed : ∀ {failure position report state}, reports failure state →
    reports ((failure.place position).attach report) state
  still : ∀ {failure} {state state' : State}, reports failure state →
    state'.engines = state.engines → reports failure state'

namespace LoadDiscipline

open Outcome Bir.Action

variable {watch : Watch} (D : LoadDiscipline watch) {α : Type}
variable {pending : List Bracket} {self : EngineId}

/-- An action of the engine in control keeps a discipline and reports its failures. -/
def Reports (pending : List Bracket) (self : EngineId) (action : Action α) : Prop :=
  ∀ state, D.holds ⟨pending, self, state⟩ →
    (action state).Ends (fun _ state' => D.holds ⟨pending, self, state'⟩)
      (fun failure state' => D.holds ⟨pending, self, state'⟩ ∧ D.reports failure state')

variable {D}

theorem Reports.bind {β : Type} {first : Action α} {next : α → Action β}
    (hfirst : D.Reports pending self first) (hnext : ∀ value, D.Reports pending self (next value)) :
    D.Reports pending self (first >>= next) := by
  intro state h
  apply ends_bind
  refine (hfirst state h).mono ?_ ?_
  · intro value state' h'
    exact hnext value state' h'
  · intro failure state' h'
    exact h'

theorem Reports.pure (value : α) : D.Reports pending self (pure value : Action α) := by
  intro state h
  exact h

/-! ## Modules -/

theorem ends_loadModule {good : Unit → State → Prop} {bad : Failure → State → Prop}
    {load : EngineId → Action Unit} {name : String} {module : EngineId} {state : State}
    (h : (load module state).Ends good
      (fun failure state' => bad (Loading.ofModule name failure) state')) :
    (Loading.loadModule load name module state).Ends good bad := by
  unfold Loading.loadModule
  cases hload : load module state with
  | done value state' => simpa [hload] using h
  | failed failure state' => simpa [hload] using h
  | exhausted => exact trivial

theorem ends_whileLoading {good : Unit → State → Prop} {bad : Failure → State → Prop}
    {action : Action Unit} {state : State}
    (h : (action { state with
        loading := state.loading ++ [state.files.identity (state.engine self).path] }).Ends
      (fun _ state' => good () { state' with loading := state'.loading.dropLast })
      (fun failure state' => bad failure { state' with loading := state'.loading.dropLast })) :
    (Loading.whileLoading self action state).Ends good bad := by
  unfold Loading.whileLoading
  cases haction : action { state with
      loading := state.loading ++ [state.files.identity (state.engine self).path] } with
  | done value state' => simpa [haction] using h
  | failed failure state' => simpa [haction] using h
  | exhausted => simp [haction]

/-- What is known of a failure to import a module, before the importer places and reports it: its
cause was found by the importer, or it has left the module. -/
def Unplaced (D : LoadDiscipline watch) (failure : Failure) (state : State) : Prop :=
  (∃ cause, (∀ reason, cause ≠ .console reason) ∧ failure = .ofCause cause) ∨
    D.reports failure state ∨
    ∃ name reported, D.reports reported state ∧ failure = Loading.ofModule name reported

theorem Unplaced.ofCause {cause : Failure.Cause} {state : State}
    (natural : ∀ reason, cause ≠ .console reason) : D.Unplaced (.ofCause cause) state :=
  Or.inl ⟨cause, natural, rfl⟩

/-- A module is loaded and run by an engine of its own; the importer goes on with what it
exposes. -/
theorem ends_importModule {load : EngineId → Action Unit} {bound : Nat}
    (loads : ∀ {pending self}, D.Reports pending self (load self)) (name : String) {state : State}
    (h : D.holds ⟨pending, self, state⟩) :
    (Loading.importModule load (executeUnder watch bound) self name state).Ends
      (fun _ state' => D.holds ⟨pending, self, state'⟩)
      (fun failure state' => D.holds ⟨pending, self, state'⟩ ∧ D.Unplaced failure state') := by
  apply ends_bind
  change ((do
    let path ← Action.ofExcept (Module.resolve state.files state.config.library name)
    Loading.refuseCycle name path
    let content ← Action.ofExcept (Module.read state.files path name)
    let module ← Action.update fun state => state.addEngine path content
    Loading.loadModule load name module
    runMain (executeUnder watch bound) module
    Loading.expose self module : Action Unit) state).Ends _ _
  apply ends_bind
  cases hpath : Module.resolve state.files state.config.library name with
  | error failure =>
      refine ⟨h, ?_⟩
      unfold Module.resolve at hpath
      split at hpath <;> cases hpath
      exact .ofCause (by simp)
  | ok path =>
      simp only [Action.ofExcept, ends_done]
      apply ends_bind
      unfold Loading.refuseCycle
      split
      · exact ⟨h, .ofCause (by simp)⟩
      · apply ends_bind
        cases hcontent : Module.read state.files path name with
        | error failure =>
            refine ⟨h, ?_⟩
            unfold Module.read at hcontent
            split at hcontent <;> cases hcontent
            exact .ofCause (by simp)
        | ok content =>
            change (Outcome.done content state).Ends _ _
            apply ends_bind
            have hopen := D.loadMove h (.openModule path content)
            change ((do
              Loading.loadModule load name state.engines.size
              runMain (executeUnder watch bound) state.engines.size
              Loading.expose self state.engines.size : Action Unit)
                (state.addEngine path content).1).Ends _ _
            apply ends_bind
            apply ends_loadModule
            refine (loads _ hopen).mono ?_ ?_
            · intro _ state' h'
              apply ends_bind
              refine (D.main bound h').mono ?_ ?_
              · intro _ state'' h''
                exact D.loadMove h'' .expose
              · rintro failure state'' ⟨h'', hreports⟩
                exact ⟨D.loadMove h'' .dropModule, Or.inr (Or.inl hreports)⟩
            · rintro failure state' ⟨h', hreports⟩
              exact ⟨D.loadMove h' .dropModule, Or.inr (Or.inr ⟨name, failure, hreports, rfl⟩)⟩

theorem importAll_reports {load : EngineId → Action Unit} {bound : Nat}
    (loads : ∀ {pending self}, D.Reports pending self (load self)) {requests : List Import}
    (left : List Import) (hleft : ∀ request ∈ left, request ∈ requests) :
    D.Reports (.imports self requests :: pending) self
      (Loading.importAll load (executeUnder watch bound) self left) := by
  induction left with
  | nil => exact Reports.pure ()
  | cons request rest ih =>
      refine Reports.bind ?_ fun _ => ih fun other hmem => hleft other (by simp [hmem])
      intro state h
      apply ends_reporting
      apply ends_locate
      refine (ends_importModule loads request.module h).mono (fun _ _ h' => h') ?_
      rintro failure state' ⟨h', hunplaced⟩
      refine ⟨h', ?_⟩
      rcases hunplaced with ⟨cause, natural, rfl⟩ | hreports | ⟨name, reported, hreports, rfl⟩
      · exact D.missing h' (hleft request (by simp)) natural
      · exact D.passed hreports
      · exact D.returned hreports

/-! ## Sources -/

theorem look_reports : D.Reports pending self (watch.look self) := by
  intro state h
  unfold Watch.look
  split
  · rename_i hstops
    exact ⟨h, D.halt h hstops⟩
  · exact h

theorem readProgram_reports : D.Reports pending self (Loading.readProgram self) := by
  intro state h
  unfold Loading.readProgram
  cases hprogram : Program.ofSource (state.engine self).content with
  | ok program => exact D.loadMove h (.read hprogram)
  | error error => exact ⟨h, D.unread h hprogram⟩

theorem imports_reports {load : EngineId → Action Unit} {bound : Nat}
    (loads : ∀ {pending self}, D.Reports pending self (load self)) :
    D.Reports pending self (Loading.imports load (executeUnder watch bound) self) := by
  intro state h
  unfold Loading.imports
  split
  · exact h
  · apply ends_whileLoading
    have hbegin := D.loadMove h
      (.beginImports (state.files.identity (state.engine self).path))
    refine (importAll_reports loads _ (fun _ hmem => hmem) _ hbegin).mono ?_ ?_
    · intro _ state' h'
      exact D.loadMove h' .endImports
    · rintro failure state' ⟨h', hreports⟩
      exact ⟨D.loadMove h' .endImports, D.still hreports rfl⟩

theorem loadUnder_reports (bound : Nat) : D.Reports pending self (loadUnder watch bound self) := by
  induction bound generalizing pending self with
  | zero =>
      intro state _
      exact trivial
  | succ bound ih =>
      refine Reports.bind look_reports fun _ => ?_
      refine Reports.bind readProgram_reports fun _ => ?_
      refine Reports.bind ?_ fun _ => imports_reports ih
      intro state h
      exact D.loadMove h .native

variable (D)

/-- A step of a script under a watch keeps a discipline and reports its failures. -/
theorem performs (bound : Nat) (step : Script.Step) :
    D.Reports [] Script.main (Script.performUnder watch bound step) := by
  cases step with
  | load => exact loadUnder_reports bound
  | run => exact fun _ h => D.main bound h

end LoadDiscipline

end Bir
