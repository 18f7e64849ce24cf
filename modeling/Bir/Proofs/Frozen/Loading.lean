import Bir.Proofs.Frozen.Modules

/-!
# Frozen modules — whole sessions leave the tops of modules as they are

What is in the top scope of a module is settled when its import is done, so no record of tops can be
written before a run.  But the state that a run leaves shows what was settled, and a record of it is
right about all that was imported earlier.  This file defines:

* `Outcome.Recorded` — under every record that is right in the end, a watch for changes finds none;
* `Action.Records` — an action of loading comes to such an outcome;
* `Script.session` — steps of a script in any order, after failures as well.
-/

namespace Bir

/-! ## Outcomes on record -/

/-- A watched action comes to the same as without its watch, under every record that is right about
the state that it comes to. -/
def Outcome.Recorded {α : Type} (known : EngineId → Prop) (chain : List EngineId) (start : State)
    (watched : (EngineId → Scope) → Outcome α) (outcome : Outcome α) : Prop :=
  ∃ after : State, start.Keeps after ∧
    (∀ tops, after.Shows known tops → watched tops = outcome) ∧
    outcome.Leaves fun state => state = after ∧ state.Poised known chain

/-- An action of loading comes to what is on record, from wherever the engines of a chain are being
loaded. -/
def Action.Records {α : Type} (known : EngineId → Prop) (chain : List EngineId)
    (watched : (EngineId → Scope) → Action α) (action : Action α) : Prop :=
  ∀ start : State, start.Poised known chain →
    Outcome.Recorded known chain start (fun tops => watched tops start) (action start)

namespace Outcome.Recorded

variable {α β : Type} {known : EngineId → Prop} {chain chain' : List EngineId} {start : State}
variable {watched : (EngineId → Scope) → Outcome α} {outcome : Outcome α}

/-- What happens within one evaluation was on record when it began. -/
theorem of_leaves (imported : ∀ module, known module → start.Exposed module)
    (same : ∀ tops, start.Shows known tops → watched tops = outcome)
    (leaves : outcome.Leaves fun after => start.Keeps after ∧ after.Poised known chain) :
    Recorded known chain start watched outcome := by
  cases outcome with
  | done value after =>
      refine ⟨after, leaves.1, fun tops shows => ?_, rfl, leaves.2⟩
      exact same tops (leaves.1.shows imported shows)
  | failed failure after =>
      refine ⟨after, leaves.1, fun tops shows => ?_, rfl, leaves.2⟩
      exact same tops (leaves.1.shows imported shows)
  | exhausted => exact ⟨start, .refl start, same, trivial⟩

theorem mono {earlier : State} (h : Recorded known chain start watched outcome)
    (keeps : earlier.Keeps start)
    (poised : ∀ state : State, state.Poised known chain → state.Poised known chain') :
    Recorded known chain' earlier watched outcome := by
  rcases h with ⟨after, hkeeps, hsame, hleaves⟩
  refine ⟨after, keeps.trans hkeeps, hsame, hleaves.mono ?_ ?_⟩
  · exact fun _ state hstate => ⟨hstate.1, poised state hstate.2⟩
  · exact fun _ state hstate => ⟨hstate.1, poised state hstate.2⟩

theorem bind {first : Action α} {first' : (EngineId → Scope) → Action α} {next : α → Action β}
    {next' : (EngineId → Scope) → α → Action β}
    (h : Recorded known chain start (fun tops => first' tops start) (first start))
    (hnext : ∀ value (after : State), after.Poised known chain →
      Recorded known chain' after (fun tops => next' tops value after) (next value after))
    (poised : ∀ state : State, state.Poised known chain → state.Poised known chain') :
    Recorded known chain' start (fun tops => (first' tops >>= next' tops) start)
      ((first >>= next) start) := by
  rcases h with ⟨between, hkeeps, hsame, hleaves⟩
  simp only [Action.bind_apply]
  generalize first start = outcome at hsame hleaves
  cases outcome with
  | done value state =>
      rcases hleaves with ⟨rfl, hpoised⟩
      rcases hnext value state hpoised with ⟨after, hkeeps', hsame', hleaves'⟩
      refine ⟨after, hkeeps.trans hkeeps', fun tops shows => ?_, hleaves'⟩
      have hfirst : first' tops start = .done value state :=
        hsame tops (hkeeps'.shows hpoised.imported shows)
      simpa only [hfirst] using hsame' tops shows
  | failed failure state =>
      rcases hleaves with ⟨rfl, hpoised⟩
      refine ⟨state, hkeeps, fun tops shows => ?_, rfl, poised state hpoised⟩
      have hfirst : first' tops start = .failed failure state := hsame tops shows
      simp only [hfirst]
  | exhausted =>
      refine ⟨between, hkeeps, fun tops shows => ?_, trivial⟩
      have hfirst : first' tops start = .exhausted := hsame tops shows
      simp only [hfirst]

end Outcome.Recorded

namespace Action.Records

open Outcome

variable {α β : Type} {known : EngineId → Prop} {chain : List EngineId} {self : EngineId}
variable {watched : (EngineId → Scope) → Action α} {action : Action α}

theorem bind {next : α → Action β} {next' : (EngineId → Scope) → α → Action β}
    (h : Records known chain watched action)
    (hnext : ∀ value, Records known chain (fun tops => next' tops value) (next value)) :
    Records known chain (fun tops => watched tops >>= next' tops) (action >>= next) :=
  fun start hstart => (h start hstart).bind hnext fun _ hstate => hstate

/-- An action without evaluations in it. -/
theorem of_leaves (h : ∀ start : State, start.Poised known chain →
      (action start).Leaves fun after => start.Keeps after ∧ after.Poised known chain) :
    Records known chain (fun _ => action) action :=
  fun start hstart => .of_leaves hstart.imported (fun _ _ => rfl) (h start hstart)

theorem ofExcept (result : Except Failure α) :
    Records known chain (fun _ => Action.ofExcept result) (Action.ofExcept result) := by
  apply of_leaves
  intro start hstart
  cases result with
  | ok value => exact ⟨.refl start, hstart⟩
  | error failure => exact ⟨.refl start, hstart⟩

theorem locate (h : Records known chain watched action) (position : Unit → Position) :
    Records known chain (fun tops => Action.locate position (watched tops))
      (Action.locate position action) := by
  intro start hstart
  rcases h start hstart with ⟨after, hkeeps, hsame, hleaves⟩
  refine ⟨after, hkeeps, fun tops shows => ?_, Action.ends_locate hleaves⟩
  simp only [Action.locate, hsame tops shows]

theorem reporting (h : Records known chain watched action) :
    Records known chain (fun tops => Action.reporting self (watched tops))
      (Action.reporting self action) := by
  intro start hstart
  rcases h start hstart with ⟨after, hkeeps, hsame, hleaves⟩
  refine ⟨after, hkeeps, fun tops shows => ?_, Action.ends_reporting hleaves⟩
  simp only [Action.reporting, hsame tops shows]

/-! ## Sources and main programs -/

theorem look (self : EngineId) :
    Records known chain (fun tops => (Watch.changed known tops).look self) (Pure.pure ()) := by
  intro start hstart
  refine .of_leaves hstart.imported (fun tops shows => ?_) ⟨.refl start, hstart⟩
  simp [Watch.look, Watch.changed, shows]

theorem readProgram (self : EngineId) :
    Records known chain (fun _ => Loading.readProgram self) (Loading.readProgram self) := by
  apply of_leaves
  intro start hstart
  unfold Loading.readProgram
  cases hparsed : Program.ofSource (start.engine self).content with
  | ok program => exact hstart.readProgram hparsed
  | error error => exact ⟨.refl start, hstart⟩

theorem declareConsole (mem : self ∈ chain) :
    Records known chain (fun _ => Loading.declareConsole self) (Loading.declareConsole self) :=
  of_leaves fun _ hstart => hstart.declareConsole mem

theorem runMain (mem : self ∈ chain) (bound : Nat) :
    Records known chain
      (fun tops => Bir.runMain (executeUnder (Watch.changed known tops) bound) self)
      (Bir.runMain (execute bound) self) := by
  intro start hstart
  have hshown : start.Shows known fun module => start.top module :=
    ⟨hstart.imported, fun _ _ => rfl⟩
  have hends := hstart.endsIn mem
  have hsealed := (runMain_sealed hstart.sealed hstart.sound hends hshown bound).2
  have hundisturbed := runMain_undisturbed hstart.sealed.exist Watch.silent bound self
  rw [(evaluateUnder_silent bound).2] at hundisturbed
  refine .of_leaves hstart.imported (fun tops shows => ?_) ?_
  · exact (runMain_sealed hstart.sealed hstart.sound hends shows bound).1
  · refine (hsealed.and hundisturbed).mono ?_ ?_
    · rintro _ after ⟨⟨hended, hsound⟩, hrest⟩
      exact hstart.runMain hended hsound hrest.engines
    · rintro _ after ⟨⟨hended, hsound⟩, hrest⟩
      exact hstart.runMain hended hsound hrest.engines

/-! ## Imports -/

section Imports

variable {load : EngineId → Action Unit} {load' : (EngineId → Scope) → EngineId → Action Unit}

theorem refuseCycle (name : String) (path : Path) :
    Records known chain (fun _ => Loading.refuseCycle name path)
      (Loading.refuseCycle name path) := by
  apply of_leaves
  intro start hstart
  unfold Loading.refuseCycle
  split
  · exact ⟨.refl start, hstart⟩
  · exact ⟨.refl start, hstart⟩

theorem loadModule (h : Records known chain (fun tops => load' tops self) (load self))
    (name : String) :
    Records known chain (fun tops => Loading.loadModule (load' tops) name self)
      (Loading.loadModule load name self) := by
  intro start hstart
  rcases h start hstart with ⟨after, hkeeps, hsame, hleaves⟩
  refine ⟨after, hkeeps, fun tops shows => ?_, LoadDiscipline.ends_loadModule hleaves⟩
  simp only [Loading.loadModule, hsame tops shows]

/-- The engine of a module is being loaded until it is exposed. -/
theorem importModule
    (loads : ∀ module, Records known (module :: self :: chain) (fun tops => load' tops module)
      (load module)) (bound : Nat) (name : String) :
    Records known (self :: chain)
      (fun tops =>
        Loading.importModule (load' tops) (executeUnder (Watch.changed known tops) bound) self name)
      (Loading.importModule load (execute bound) self name) := by
  refine bind (of_leaves fun start hstart => ⟨.refl start, hstart⟩) fun place => ?_
  refine bind (ofExcept _) fun path => ?_
  refine bind (refuseCycle name path) fun _ => ?_
  refine bind (ofExcept _) fun content => ?_
  intro start hstart
  rcases hstart.addEngine path content with ⟨hkeeps, hadded⟩
  have hmem : start.engines.size ∈ start.engines.size :: self :: chain := List.mem_cons_self
  have hloaded : Recorded known (start.engines.size :: self :: chain)
      (start.addEngine path content).1
      (fun tops => Loading.loadModule (load' tops) name start.engines.size
        (start.addEngine path content).1)
      (Loading.loadModule load name start.engines.size (start.addEngine path content).1) :=
    loadModule (loads start.engines.size) name _ hadded
  refine Recorded.mono ?_ hkeeps fun _ hstate => hstate
  refine hloaded.bind (fun _ after hafter => ?_) fun _ hstate => hstate.tail
  refine Recorded.bind (runMain hmem bound after hafter) (fun _ state hstate => ?_)
    fun _ hstate => hstate.tail
  exact .of_leaves hstate.imported (fun _ _ => rfl) hstate.expose

theorem importAll
    (loads : ∀ module, Records known (module :: self :: chain) (fun tops => load' tops module)
      (load module)) (bound : Nat) (requests : List Import) :
    Records known (self :: chain)
      (fun tops => Loading.importAll (load' tops) (executeUnder (Watch.changed known tops) bound)
        self requests)
      (Loading.importAll load (execute bound) self requests) := by
  induction requests with
  | nil => exact of_leaves fun start hstart => ⟨.refl start, hstart⟩
  | cons request rest ih =>
      have hmodule := importModule loads bound request.module
      exact bind (hmodule.locate fun _ => request.position).reporting fun _ => ih

theorem whileLoading {action : Action Unit} {watched : (EngineId → Scope) → Action Unit}
    (h : Records known chain watched action) :
    Records known chain (fun tops => Loading.whileLoading self (watched tops))
      (Loading.whileLoading self action) := by
  intro start hstart
  rcases hstart.withLoading
    (start.loading ++ [start.files.identity (start.engine self).path]) with ⟨hbegun, hpoised⟩
  rcases h _ hpoised with ⟨between, hkeeps, hsame, hleaves⟩
  let after := { between with loading := between.loading.dropLast }
  have hended : between.Keeps after := State.SameLayout.keeps (.of_engines rfl) (.refl _)
  refine ⟨after, (hbegun.trans hkeeps).trans hended, fun tops shows => ?_, ?_⟩
  · have hwatched := hsame tops ⟨shows.exposed, shows.top⟩
    simp only [Loading.whileLoading, hwatched]
  · refine LoadDiscipline.ends_whileLoading (hleaves.mono ?_ ?_)
    · rintro _ state ⟨rfl, hstate⟩
      exact ⟨rfl, (hstate.withLoading _).2⟩
    · rintro _ state ⟨rfl, hstate⟩
      exact ⟨rfl, (hstate.withLoading _).2⟩

theorem imports
    (loads : ∀ module, Records known (module :: self :: chain) (fun tops => load' tops module)
      (load module)) (bound : Nat) :
    Records known (self :: chain)
      (fun tops => Loading.imports (load' tops) (executeUnder (Watch.changed known tops) bound) self)
      (Loading.imports load (execute bound) self) := by
  intro start hstart
  cases himports : (start.engine self).program.imports with
  | nil =>
      simp only [Loading.imports, himports]
      exact .of_leaves hstart.imported (fun _ _ => rfl) ⟨.refl start, hstart⟩
  | cons request rest =>
      simp only [Loading.imports, himports]
      exact (importAll loads bound (request :: rest)).whileLoading start hstart

end Imports

/-! ## Steps and sessions -/

theorem loadUnder (bound : Nat) (self : EngineId) (chain : List EngineId) :
    Records known (self :: chain) (fun tops => Bir.loadUnder (Watch.changed known tops) bound self)
      (load bound self) := by
  induction bound generalizing self chain with
  | zero => exact fun start hstart => .of_leaves hstart.imported (fun _ _ => rfl) trivial
  | succ bound ih =>
      have hmem : self ∈ self :: chain := List.mem_cons_self
      have himports := imports (fun module => ih module (self :: chain)) bound
      have hsource := bind (readProgram self) fun _ => bind (declareConsole hmem) fun _ => himports
      have hlooked := bind (look self) fun _ => hsource
      exact hlooked

theorem performUnder (bound : Nat) (step : Script.Step) :
    Records known [Script.main]
      (fun tops => Script.performUnder (Watch.changed known tops) bound step)
      (Script.perform bound step) := by
  cases step with
  | load => exact loadUnder bound Script.main []
  | run => exact runMain List.mem_cons_self bound

end Action.Records

/-- Perform steps in order.  A step that fails ends there and the next one is performed, unless a
watch has stopped the run. -/
def Script.session (perform : Step → Action Unit) : List Step → Action Unit
  | [], state => .done () state
  | step :: rest, state =>
    if (perform step state).isStopped then perform step state
    else
      match (perform step state).state? with
      | some state => session perform rest state
      | none => .exhausted

theorem Action.Records.session {known : EngineId → Prop} (bound : Nat) (steps : List Script.Step) :
    Records known [Script.main]
      (fun tops => Script.session (Script.performUnder (Watch.changed known tops) bound) steps)
      (Script.session (Script.perform bound) steps) := by
  induction steps with
  | nil => exact of_leaves fun start hstart => ⟨.refl start, hstart⟩
  | cons step rest ih =>
      intro start hstart
      rcases performUnder bound step start hstart with ⟨between, hkeeps, hsame, hleaves⟩
      simp only [Script.session]
      generalize Script.perform bound step start = outcome at hsame hleaves
      cases hstopped : outcome.isStopped with
      | true =>
          refine ⟨between, hkeeps, fun tops shows => ?_, by simpa [hstopped] using hleaves⟩
          have hstep : Script.performUnder (Watch.changed known tops) bound step start = outcome :=
            hsame tops shows
          simp [hstep, hstopped]
      | false =>
          cases hstate : outcome.state? with
          | none =>
              refine ⟨between, hkeeps, fun tops shows => ?_, trivial⟩
              have hstep : Script.performUnder (Watch.changed known tops) bound step start =
                  outcome := hsame tops shows
              simp [hstep, hstopped, hstate]
          | some state =>
              rcases Outcome.leaves_of_state? hleaves hstate with ⟨rfl, hpoised⟩
              rcases ih state hpoised with ⟨after, hkeeps', hsame', hleaves'⟩
              refine ⟨after, hkeeps.trans hkeeps', fun tops shows => ?_, by simpa using hleaves'⟩
              have hstep : Script.performUnder (Watch.changed known tops) bound step start =
                  outcome := hsame tops (hkeeps'.shows hpoised.imported shows)
              simpa [hstep, hstopped, hstate] using hsame' tops shows

/-! ## Frozen modules -/

/-- A run that has not begun is poised: its only engine is yet to be loaded. -/
theorem State.initial_poised (config : Config) (files : FileTree) (source : Source) (path : Path)
    (content : String) :
    (State.initial config files source path content).Poised (fun _ => False) [Script.main] := by
  let empty : State := { config, files, console := { channel := { source } } }
  have hhidden : ∀ module, ¬ empty.Exposed module := by
    rintro module ⟨importer, hmem⟩
    cases hmem
  have hsealed : empty.Sealed :=
    { exist := fun id used hused => by cases hused
      guards := fun scope htop => by
        rcases htop with ⟨module, hexposed, -⟩
        exact absurd hexposed (hhidden module)
      roots := fun id hid => by cases hid
      stores := fun id block hmem => by simp [empty, ScopeGraph.get] at hmem }
  have hempty : empty.Poised (fun _ => False) [] :=
    { sealed := hsealed
      sound := ⟨fun id block hmem => by simp [empty, ScopeGraph.get] at hmem,
        fun id statement hmem => by cases hmem⟩
      imported := fun module hknown => hknown.elim
      rested := fun id hid => by cases hid
      distinct := fun id hid => by cases hid
      loading := fun id hmem => by cases hmem
      nodup := List.nodup_nil }
  exact (hempty.addEngine path content).2

/-- A session without a watch is not stopped. -/
theorem State.Poised.isStopped_session {known : EngineId → Prop} {start : State}
    (h : start.Poised known [Script.main]) (bound : Nat) (steps : List Script.Step) :
    (Script.session (Script.perform bound) steps start).isStopped = false := by
  induction steps generalizing start with
  | nil => rfl
  | cons step rest ih =>
      have hstopped := h.sound.isStopped_perform bound step
      rcases Action.Records.performUnder bound step start h with ⟨between, -, -, hleaves⟩
      simp only [Script.session, hstopped]
      cases hstate : (Script.perform bound step start).state? with
      | none => rfl
      | some state =>
          rcases Outcome.leaves_of_state? hleaves hstate with ⟨rfl, hpoised⟩
          exact ih hpoised

/-- The tops of modules are frozen while a session goes on from a state: there is a record that is
right about the state, about every point that the session comes to and about the state that it
leaves, where the modules that were imported at first are imported all the time. -/
def State.FrozenDuring (bound : Nat) (later : List Script.Step) (state : State) : Prop :=
  ∃ tops : EngineId → Scope, state.Shows state.Exposed tops ∧
    (Script.session (Script.performUnder (Watch.changed state.Exposed tops) bound) later
      state).isStopped = false ∧
    (Script.session (Script.perform bound) later state).Leaves (State.Shows state.Exposed tops)

theorem State.Poised.frozenDuring {known : EngineId → Prop} {state : State}
    (h : state.Poised known [Script.main]) (bound : Nat) (later : List Script.Step) :
    state.FrozenDuring bound later := by
  have hpoised : state.Poised state.Exposed [Script.main] :=
    { h with imported := fun _ hexposed => hexposed }
  rcases Action.Records.session bound later state hpoised with ⟨after, hkeeps, hsame, hleaves⟩
  -- The record is that of the state in which all ends.
  let tops : EngineId → Scope := fun module => after.top module
  have hafter : after.Shows state.Exposed tops := ⟨hkeeps.exposed, fun _ _ => rfl⟩
  refine ⟨tops, hkeeps.shows (fun _ hexposed => hexposed) hafter, ?_, ?_⟩
  · have hwatched :
        Script.session (Script.performUnder (Watch.changed state.Exposed tops) bound) later state =
          Script.session (Script.perform bound) later state := hsame tops hafter
    rw [hwatched]
    exact hpoised.isStopped_session bound later
  · refine hleaves.mono ?_ ?_
    · rintro _ last ⟨rfl, -⟩
      exact hafter
    · rintro _ last ⟨rfl, -⟩
      exact hafter

/-- The top scopes of modules are frozen.  Whatever a session has come to, in all that follows the
modules that were imported stay imported, and the top of each of them, and of each module that is
imported on the way, keeps its parents, its bindings and its blocks from its import on. -/
theorem module_globals_are_frozen (config : Config) (files : FileTree) (source : Source)
    (path : Path) (content : String) (bound : Nat) (earlier later : List Script.Step) :
    (Script.session (Script.perform bound) earlier
      (State.initial config files source path content)).Leaves
        (State.FrozenDuring bound later) := by
  have hinitial := State.initial_poised config files source path content
  rcases Action.Records.session bound earlier _ hinitial with ⟨between, -, -, hleaves⟩
  refine hleaves.mono ?_ ?_
  · exact fun _ state hstate => hstate.2.frozenDuring bound later
  · exact fun _ state hstate => hstate.2.frozenDuring bound later

end Bir
