import Bir.Proofs.Acyclic.Order
import Bir.Proofs.Discipline.Causes
import Bir.Proofs.Discipline.Invariant
import Bir.Proofs.Imports.Basic

/-!
# Import frames — what the loading of a module leaves alone

A module is loaded and run in an engine that is new, and so are the modules that it asks for in
turn.  These engines go on to each other, and to no engine that was there before them.  This file
defines:

* `LoadDiscipline.keeping` — an invariant of whole loads, whatever they fail of;
* `State.SameGround` — two states of one run with the same imports being loaded;
* `State.BuildsOn` — the engines and scopes of one state have their modules and parents in another;
* `Moment.Beyond` — a moment of a load that only new engines take part in;
* `State.Resumes` and `State.Forgoes` — what an import leaves of its importer, when it is made and
  when it fails.

`load_ground` shows that every load leaves the list of what is being loaded as it was, and
`Loading.importModule_ends` that an import that fails leaves nothing behind in its importer.
-/

namespace Bir

/-! ## Invariants of loads -/

/-- What every move of an evaluation keeps, a main program keeps. -/
theorem runMain_keeps {holds : State → Prop}
    (move : ∀ {moment moment' : Moment}, holds moment.state →
      Move (fun _ _ => True) moment moment' → holds moment'.state)
    (bound : Nat) (self : EngineId) {state : State} (h : holds state) :
    (runMain (execute bound) self state).Leaves holds := by
  let D := Discipline.ofInvariant Watch.silent .any (fun moment => holds moment.state) True
    (fun _ _ _ _ => trivial) (fun _ _ => ⟨fun _ _ => trivial, fun _ _ _ _ => trivial⟩) move
  have hmain := @Discipline.runMain_completes _ D self [] _ state bound (fun _ _ => trivial) h
  rw [(evaluateUnder_silent bound).2] at hmain
  exact hmain.mono (fun _ _ h' => h') fun _ _ h' => h'.1

namespace LoadDiscipline

/-- An invariant of whole loads that asks nothing of their failures. -/
def keeping (holds : Moment → Prop)
    (main : ∀ {pending self} {state : State} (bound : Nat), holds ⟨pending, self, state⟩ →
      (runMain (execute bound) self state).Leaves fun after => holds ⟨pending, self, after⟩)
    (loadMove : ∀ {moment moment'}, holds moment → LoadMove moment moment' → holds moment') :
    LoadDiscipline Watch.silent where
  holds := holds
  reports _ _ := True
  main bound h := by
    rw [(evaluateUnder_silent bound).2]
    exact (main bound h).mono (fun _ _ h' => h') fun _ _ h' => ⟨h', trivial⟩
  halt _ _ := trivial
  loadMove := loadMove
  unread _ _ := trivial
  missing _ _ _ := trivial
  returned _ := trivial
  passed _ := trivial
  still _ _ := trivial

/-- A load keeps what a discipline asks of its moments. -/
theorem load_leaves (D : LoadDiscipline Watch.silent) {self : EngineId} {state : State}
    (h : D.holds ⟨[], self, state⟩) (bound : Nat) :
    (load bound self state).Leaves fun after => D.holds ⟨[], self, after⟩ := by
  have hload := loadUnder_reports (D := D) bound state h
  rw [loadUnder_silent] at hload
  exact hload.mono (fun _ _ h' => h') fun _ _ h' => h'.1

end LoadDiscipline

/-! ## The list of what is being loaded -/

/-- Two states of one run in which the same imports are being loaded. -/
structure State.SameGround (before after : State) : Prop where
  config : after.config = before.config
  files : after.files = before.files
  loading : after.loading = before.loading

namespace State.SameGround

variable {before between after : State}

theorem refl (state : State) : SameGround state state := ⟨rfl, rfl, rfl⟩

theorem trans (h : SameGround before between) (h' : SameGround between after) :
    SameGround before after :=
  ⟨h'.config.trans h.config, h'.files.trans h.files, h'.loading.trans h.loading⟩

theorem move {allowed : EngineId → Statement → Prop} {moment moment' : Moment}
    (move : Move allowed moment moment') : SameGround moment.state moment'.state := by
  cases move <;> exact ⟨rfl, rfl, rfl⟩

end State.SameGround

/-- How many loops over imports are begun and not ended. -/
def loops : List Bracket → Nat
  | [] => 0
  | .imports _ _ :: pending => loops pending + 1
  | _ :: pending => loops pending

theorem runMain_ground (bound : Nat) (self : EngineId) (state : State) :
    (runMain (execute bound) self state).Leaves state.SameGround :=
  runMain_keeps (fun h move => h.trans (.move move)) bound self (.refl state)

/-- At every moment of a load, each loop that has begun has put one file on the list. -/
def LoadDiscipline.listing (start : State) : LoadDiscipline Watch.silent :=
  .keeping (fun moment => moment.state.config = start.config ∧ moment.state.files = start.files ∧
      ∃ files, moment.state.loading = start.loading ++ files ∧
        files.length = loops moment.pending)
    (by
      rintro pending self state bound ⟨hconfig, hfiles, files, hloading, hlength⟩
      have hkept : ∀ {after : State}, state.SameGround after → after.config = start.config ∧
          after.files = start.files ∧ ∃ files, after.loading = start.loading ++ files ∧
            files.length = loops pending := by
        intro after hground
        exact ⟨hground.config.trans hconfig, hground.files.trans hfiles, files,
          hground.loading.trans hloading, hlength⟩
      exact (runMain_ground bound self state).mono (fun _ _ => hkept) fun _ _ => hkept)
    (by
      rintro moment moment' ⟨hconfig, hfiles, files, hloading, hlength⟩ move
      refine ⟨move.config.trans hconfig, move.files.trans hfiles, ?_⟩
      cases move with
      | beginImports file =>
          refine ⟨files ++ [file], ?_, ?_⟩
          · exact (congrArg (· ++ [file]) hloading).trans (List.append_assoc ..)
          · simpa [loops] using hlength
      | @endImports pending self requests state =>
          have hsome : files ≠ [] := by
            rintro rfl
            simp [loops] at hlength
          refine ⟨files.dropLast, ?_, ?_⟩
          · exact (congrArg List.dropLast hloading).trans (List.dropLast_append_of_ne_nil hsome)
          · have hbegun : files.length = loops pending + 1 := hlength
            rw [List.length_dropLast, hbegun]
            rfl
      | _ => exact ⟨files, hloading, hlength⟩)

/-- When a load is over, in success or in failure, the list of what is being loaded is what it was
when the load began. -/
theorem load_ground (bound : Nat) (self : EngineId) (state : State) :
    (load bound self state).Leaves state.SameGround := by
  have hstart : (LoadDiscipline.listing state).holds ⟨[], self, state⟩ :=
    ⟨rfl, rfl, [], (List.append_nil _).symm, rfl⟩
  have hload := (LoadDiscipline.listing state).load_leaves hstart bound
  have hground : ∀ {after : State}, (LoadDiscipline.listing state).holds ⟨[], self, after⟩ →
      state.SameGround after := by
    rintro after ⟨hconfig, hfiles, files, hloading, hlength⟩
    -- No loop is left, so nothing is left on the list.
    rw [List.eq_nil_of_length_eq_zero hlength, List.append_nil] at hloading
    exact ⟨hconfig, hfiles, hloading⟩
  exact hload.mono (fun _ _ => hground) fun _ _ => hground

/-! ## Engines and scopes that were there -/

namespace State

/-- The engines and scopes that were there have their roots, their modules and their parents, and
engines that are new have roots that are new. -/
structure BuildsOn (start state : State) : Prop extends KeepsRoots start state where
  path : ∀ id < start.engines.size, (state.engine id).path = (start.engine id).path
  /-- No engine that was there has imported a module, -/
  uses : ∀ id < start.engines.size, (state.engine id).uses = (start.engine id).uses
  /-- and no scope that was there goes on to another one. -/
  parents : ∀ id < start.graph.scopes.size,
    (state.graph.get id).parents = (start.graph.get id).parents
  fresh : ∀ id < state.engines.size, start.engines.size ≤ id →
    start.graph.scopes.size ≤ (state.engine id).root

namespace BuildsOn

variable {start : State} {moment moment' : Moment}

theorem refl (state : State) : BuildsOn state state where
  scopes := Nat.le_refl _
  engines := Nat.le_refl _
  root _ _ := rfl
  path _ _ := rfl
  uses _ _ := rfl
  parents _ _ := rfl
  fresh _ hlt hge := absurd hlt (Nat.not_lt.2 hge)

/-- Nothing is asked of scopes but their parents, or of engines but their roots, paths and
modules. -/
theorem congr {state after : State} (h : start.BuildsOn state)
    (size : after.engines.size = state.engines.size)
    (scopes : state.graph.scopes.size ≤ after.graph.scopes.size)
    (root : ∀ id, (after.engine id).root = (state.engine id).root)
    (path : ∀ id, (after.engine id).path = (state.engine id).path)
    (uses : ∀ id < start.engines.size, (after.engine id).uses = (state.engine id).uses)
    (parents : ∀ id < start.graph.scopes.size,
      (after.graph.get id).parents = (state.graph.get id).parents) : start.BuildsOn after where
  scopes := Nat.le_trans h.scopes scopes
  engines := size ▸ h.engines
  root id hid := (root id).trans (h.root id hid)
  path id hid := (path id).trans (h.path id hid)
  uses id hid := (uses id hid).trans (h.uses id hid)
  parents id hid := (parents id hid).trans (h.parents id hid)
  fresh id hid hge := by
    rw [size] at hid
    rw [root]
    exact h.fresh id hid hge

/-- An evaluation may add scopes, and leaves the parents of all others as they are. -/
theorem move {allowed : EngineId → Statement → Prop} (h : start.BuildsOn moment.state)
    (move : Move allowed moment moment') : start.BuildsOn moment'.state := by
  have hsame := move.sameModules
  refine h.congr hsame.size move.size_le hsame.root (hsame.part Engine.path (by intro _; rfl))
    (fun id _ => hsame.uses id) fun id hid => ?_
  rcases move.parents with hkept | ⟨scope, -, -, hadded⟩
  · exact hkept id
  · calc
      (moment'.state.graph.get id).parents
          = ((moment.state.graph.add scope).1.get id).parents := hadded id
      _ = (moment.state.graph.get id).parents := by
            rw [moment.state.graph.get_add_of_lt scope (Nat.lt_of_lt_of_le hid h.scopes)]

/-- The engine of a module is opened. -/
theorem addEngine {state : State} (h : start.BuildsOn state) (path : Path) (content : String) :
    start.BuildsOn (state.addEngine path content).1 where
  scopes := by simpa using Nat.le_succ_of_le h.scopes
  engines := by simpa using Nat.le_succ_of_le h.engines
  root id hid := by
    rw [state.engine_addEngine_of_lt path content (Nat.lt_of_lt_of_le hid h.engines)]
    exact h.root id hid
  path id hid := by
    rw [state.engine_addEngine_of_lt path content (Nat.lt_of_lt_of_le hid h.engines)]
    exact h.path id hid
  uses id hid := by
    rw [uses_addEngine]
    exact h.uses id hid
  parents id hid := by
    rw [graph_addEngine, state.graph.get_add_of_lt {} (Nat.lt_of_lt_of_le hid h.scopes)]
    exact h.parents id hid
  fresh id hid hge := by
    rcases lt_addEngine path content hid with hlt | rfl
    · rw [state.engine_addEngine_of_lt path content hlt]
      exact h.fresh id hlt hge
    · rw [engine_addEngine, if_pos rfl]
      exact h.scopes

/-- A module is exposed to an engine that is new: the root that gets a parent is new as well. -/
theorem expose {state : State} (h : start.BuildsOn state) {importer : EngineId}
    (new : start.engines.size ≤ importer) (exists' : importer < state.engines.size)
    (module : EngineId) : start.BuildsOn (state.expose importer module) := by
  refine h.congr (state.size_expose importer module) (by simp [graph_expose])
    (fun id => engine_expose_congr Engine.root (by intro _ _; rfl) id)
    (fun id => engine_expose_congr Engine.path (by intro _ _; rfl) id) ?_ ?_
  · intro id hid
    rw [engine_expose, if_neg]
    rintro ⟨rfl, -⟩
    exact absurd hid (Nat.not_lt.2 new)
  · intro id hid
    have hother : (state.engine importer).root ≠ id := by
      rintro rfl
      exact absurd hid (Nat.not_lt.2 (h.fresh importer exists' new))
    rw [graph_expose, ScopeGraph.get_modify_ne _ _ hother]
    exact state.graph.get_modify_congr Scope.parents _ id (by intro _; rfl)

end BuildsOn

end State

/-- A moment of a load in which only engines are loaded that are new since its start. -/
structure Moment.Beyond (start : State) (moment : Moment) : Prop where
  builds : start.BuildsOn moment.state
  self : start.engines.size ≤ moment.self ∧ moment.self < moment.state.engines.size
  waiting : ∀ bracket ∈ moment.pending, ∀ id ∈ bracket.waiting?,
    start.engines.size ≤ id ∧ id < moment.state.engines.size

namespace Moment.Beyond

variable {start : State} {moment moment' : Moment}

theorem loadMove (h : moment.Beyond start) (move : LoadMove moment moment') :
    moment'.Beyond start := by
  cases move with
  | @read pending self state program parsed =>
      refine ⟨h.builds.congr (by simp) (Nat.le_refl _) ?_ ?_ ?_ (fun _ _ => rfl),
        by simpa using h.self, by simpa using h.waiting⟩
      · exact state.engine_modifyEngine_congr self Engine.root (by intro _; rfl)
      · exact state.engine_modifyEngine_congr self Engine.path (by intro _; rfl)
      · exact fun id _ => state.engine_modifyEngine_congr self Engine.uses (by intro _; rfl) id
  | @native pending self state =>
      refine ⟨h.builds.congr rfl (by simp) (fun _ => rfl) (fun _ => rfl) (fun _ _ => rfl) ?_,
        h.self, h.waiting⟩
      exact fun id _ => state.graph.get_modify_congr Scope.parents _ id (by intro _; rfl)
  | beginImports file =>
      refine ⟨h.builds.congr rfl (Nat.le_refl _) (fun _ => rfl) (fun _ => rfl) (fun _ _ => rfl)
        (fun _ _ => rfl), h.self, ?_⟩
      exact List.forall_mem_cons.2 ⟨by simp [Bracket.waiting?], h.waiting⟩
  | endImports =>
      exact ⟨h.builds.congr rfl (Nat.le_refl _) (fun _ => rfl) (fun _ => rfl) (fun _ _ => rfl)
        (fun _ _ => rfl), h.self, fun bracket hmem => h.waiting bracket (.tail _ hmem)⟩
  | @openModule pending self state path content =>
      have hgrown : ∀ {id : EngineId}, start.engines.size ≤ id ∧ id < state.engines.size →
          start.engines.size ≤ id ∧ id < (state.addEngine path content).1.engines.size := by
        rintro id ⟨hge, hlt⟩
        exact ⟨hge, by simpa using Nat.lt_succ_of_lt hlt⟩
      refine ⟨h.builds.addEngine path content, ⟨h.builds.engines, by simp⟩, ?_⟩
      refine List.forall_mem_cons.2 ⟨?_, fun bracket hmem id hid => hgrown ?_⟩
      · rintro id ⟨⟩
        exact hgrown h.self
      · exact h.waiting bracket hmem id hid
  | dropModule =>
      exact ⟨h.builds, h.waiting _ List.mem_cons_self _ rfl,
        fun bracket hmem => h.waiting bracket (.tail _ hmem)⟩
  | @expose pending importer module state =>
      have himporter := h.waiting _ List.mem_cons_self importer rfl
      refine ⟨h.builds.expose himporter.1 himporter.2 module, by simpa using himporter, ?_⟩
      exact fun bracket hmem => by simpa using h.waiting bracket (.tail _ hmem)

/-- A main program that runs in the course of a load links no scope and adds no engine. -/
theorem runMain {pending : List Bracket} {self : EngineId} {state : State}
    (h : Beyond start ⟨pending, self, state⟩) (bound : Nat) :
    (Bir.runMain (execute bound) self state).Leaves fun after =>
      Beyond start ⟨pending, self, after⟩ := by
  have hmain : (Bir.runMain (execute bound) self state).Leaves fun after =>
      start.BuildsOn after ∧ after.engines.size = state.engines.size :=
    runMain_keeps (fun hkept move => ⟨hkept.1.move move, move.sameModules.size.trans hkept.2⟩)
      bound self ⟨h.builds, rfl⟩
  have hbeyond : ∀ {after : State}, start.BuildsOn after ∧
      after.engines.size = state.engines.size → Beyond start ⟨pending, self, after⟩ := by
    rintro after ⟨hbuilds, hsize⟩
    refine ⟨hbuilds, ⟨h.self.1, hsize ▸ h.self.2⟩, fun bracket hmem id hid => ?_⟩
    have hwaiting := h.waiting bracket hmem id hid
    exact ⟨hwaiting.1, hsize ▸ hwaiting.2⟩
  exact hmain.mono (fun _ _ => hbeyond) fun _ _ => hbeyond

end Moment.Beyond

/-- The load of an engine that is new builds on what was there. -/
theorem load_beyond {start state : State} {self : EngineId}
    (h : Moment.Beyond start ⟨[], self, state⟩) (bound : Nat) :
    (load bound self state).Leaves fun after => Moment.Beyond start ⟨[], self, after⟩ :=
  (LoadDiscipline.keeping (Moment.Beyond start) (fun bound h => h.runMain bound)
    Moment.Beyond.loadMove).load_leaves h bound

/-! ## Imports -/

namespace State

/-- An engine goes on after an import as it was, but for the module that it has imported. -/
structure Resumes (importer : EngineId) (before after : State) : Prop extends
    SameGround before after, KeepsRoots before after where
  path : (after.engine importer).path = (before.engine importer).path

/-- An engine has imported nothing from one state to another: its root scope has the parents that
it had, and it uses the modules that it used. -/
structure Forgoes (importer : EngineId) (before after : State) : Prop where
  root : (after.engine importer).root = (before.engine importer).root
  parents : (after.graph.get (before.engine importer).root).parents =
    (before.graph.get (before.engine importer).root).parents
  uses : (after.engine importer).uses = (before.engine importer).uses

variable {self : EngineId} {before between after : State}

theorem Resumes.refl (self : EngineId) (state : State) : Resumes self state state where
  toSameGround := .refl state
  toKeepsRoots := (BuildsOn.refl state).toKeepsRoots
  path := rfl

theorem Resumes.trans (h : Resumes self before between) (h' : Resumes self between after) :
    Resumes self before after where
  toSameGround := h.toSameGround.trans h'.toSameGround
  scopes := Nat.le_trans h.scopes h'.scopes
  engines := Nat.le_trans h.engines h'.engines
  root id hid := (h'.root id (Nat.lt_of_lt_of_le hid h.engines)).trans (h.root id hid)
  path := h'.path.trans h.path

/-- What is built beside an engine is nothing that it has imported. -/
theorem BuildsOn.forgoes (h : before.BuildsOn after) (exists' : self < before.engines.size)
    (placed : (before.engine self).root < before.graph.scopes.size) : Forgoes self before after :=
  ⟨h.root self exists', h.parents _ placed, h.uses self exists'⟩

end State

namespace Loading

open Outcome Bir.Action

variable {bound : Nat} {self : EngineId} {name : String}

/-- The second half of an import builds on all that was there, up to the last step: then the
importer gets its module. -/
theorem enterModule_ends {start state : State} {module : EngineId}
    (h : Moment.Beyond start ⟨[], module, state⟩) :
    (enterModule (load bound) (execute bound) self name module state).Ends
      (fun _ after => ∃ ran : State, state.SameGround ran ∧ start.BuildsOn ran ∧
        after = ran.expose self module)
      fun _ after => start.BuildsOn after := by
  refine ends_bind (LoadDiscipline.ends_loadModule ?_)
  refine ((load_ground bound module state).and (load_beyond h bound)).mono ?_
    fun _ _ h' => h'.2.builds
  rintro _ loaded ⟨hground, hloaded⟩
  refine ends_bind ?_
  refine ((runMain_ground bound module loaded).and (hloaded.runMain bound)).mono ?_
    fun _ _ h' => h'.2.builds
  rintro _ ran ⟨hground', hran⟩
  exact ⟨ran, hground.trans hground', hran.builds, rfl⟩

/-- An import that is made leaves its importer to go on, and one that fails leaves nothing behind
in it. -/
theorem importModule_ends {state : State} (exists' : self < state.engines.size)
    (placed : (state.engine self).root < state.graph.scopes.size) :
    (importModule (load bound) (execute bound) self name state).Ends
      (fun _ after => state.Resumes self after) fun _ after => state.Forgoes self after := by
  have hself : state.Forgoes self state := (State.BuildsOn.refl state).forgoes exists' placed
  have hhalves : importModule (load bound) (execute bound) self name state =
      (openModule name >>= enterModule (load bound) (execute bound) self name) state :=
    congrFun (importModule_eq _ _ _ _) state
  rw [hhalves]
  refine ends_bind ?_
  have hopening := opening name state
  generalize openModule name state = outcome at hopening ⊢
  cases hopening with
  | missing absent => exact hself
  | cyclic found running => exact hself
  | unread found fresh unreadable => exact hself
  | @opened path content found fresh read =>
      have hopened : Moment.Beyond state
          ⟨[], state.engines.size, (state.addEngine path content).1⟩ :=
        ⟨(State.BuildsOn.refl state).addEngine path content, ⟨Nat.le_refl _, by simp⟩,
          fun bracket hmem => by cases hmem⟩
      refine (enterModule_ends hopened).mono ?_ fun _ _ h => h.forgoes exists' placed
      rintro _ after ⟨ran, hground, hbuilds, rfl⟩
      have hmove : LoadMove ⟨[.module self], state.engines.size, ran⟩
          ⟨[], self, ran.expose self state.engines.size⟩ := .expose
      have hroots := hmove.keepsRoots
      refine
        { config := hground.config
          files := hground.files
          loading := hground.loading
          scopes := Nat.le_trans hbuilds.scopes hroots.scopes
          engines := Nat.le_trans hbuilds.engines hroots.engines
          root := fun id hid => ?_
          path := ?_ }
      · exact (hroots.root id (Nat.lt_of_lt_of_le hid hbuilds.engines)).trans
          (hbuilds.root id hid)
      · exact (State.engine_expose_congr Engine.path (by intro _ _; rfl) self).trans
          (hbuilds.path self exists')

/-- A source that has been read and declares the console is loaded in the engine that it was. -/
theorem ready_resumes {state ready : State}
    (h : (do readProgram self; declareConsole self : Action Unit) state = .done () ready) :
    state.Resumes self ready := by
  rw [bind_apply] at h
  unfold readProgram at h
  cases hprogram : Program.ofSource (state.engine self).content with
  | error error =>
      rw [hprogram] at h
      cases h
  | ok program =>
      rw [hprogram] at h
      cases h
      have hread : LoadMove ⟨[], self, state⟩
          ⟨[], self, state.modifyEngine self fun engine => { engine with program }⟩ :=
        .read hprogram
      have hnative : LoadMove
          ⟨[], self, state.modifyEngine self fun engine => { engine with program }⟩ _ := .native
      refine
        { config := rfl
          files := rfl
          loading := rfl
          scopes := Nat.le_trans hread.keepsRoots.scopes hnative.keepsRoots.scopes
          engines := Nat.le_trans hread.keepsRoots.engines hnative.keepsRoots.engines
          root := fun id hid => ?_
          path := state.engine_modifyEngine_congr self Engine.path (by intro _; rfl) self }
      exact state.engine_modifyEngine_congr self Engine.root (by intro _; rfl) id

/-- Whatever requests are made before one, the importer goes on as it was. -/
theorem Reaches.resumes {requests : List Import} {request : Import} {state point : State}
    (h : Reaches bound self requests state request point) (exists' : self < state.engines.size)
    (placed : (state.engine self).root < state.graph.scopes.size) : state.Resumes self point := by
  induction h with
  | first => exact .refl self _
  | @later request last rest state between point made reaches ih =>
      have hmade : state.Resumes self between := by
        have hends : (importModule (load bound) (execute bound) self request.module state).Ends
            (fun _ after => state.Resumes self after) fun _ after => state.Forgoes self after :=
          importModule_ends exists' placed
        rw [made] at hends
        exact hends
      have hplaced : (between.engine self).root < between.graph.scopes.size := by
        rw [hmade.root self exists']
        exact Nat.lt_of_lt_of_le placed hmade.scopes
      exact hmade.trans (ih (Nat.lt_of_lt_of_le exists' hmade.engines) hplaced)

/-- When the loop of an engine comes to a request, its own file is the last one on the list, and the
engine is as it was. -/
theorem Requests.resumes {state point : State} {request : Import}
    (h : Requests bound self state request point) (exists' : self < state.engines.size)
    (placed : (state.engine self).root < state.graph.scopes.size) :
    State.Resumes self { state with loading := state.loading ++ [state.fileOf self] } point := by
  obtain ⟨ready, hready, hreaches⟩ := h
  have hresumes := ready_resumes hready
  have hfile : ready.fileOf self = state.fileOf self := by
    rw [State.fileOf, hresumes.files, hresumes.path]
    rfl
  have hbegun : State.Resumes self { state with loading := state.loading ++ [state.fileOf self] }
      { ready with loading := ready.loading ++ [ready.fileOf self] } :=
    { config := hresumes.config
      files := hresumes.files
      loading := by rw [hfile, hresumes.loading]
      scopes := hresumes.scopes
      engines := hresumes.engines
      root := hresumes.root
      path := hresumes.path }
  have hplaced : (ready.engine self).root < ready.graph.scopes.size := by
    rw [hresumes.root self exists']
    exact Nat.lt_of_lt_of_le placed hresumes.scopes
  exact hbegun.trans (hreaches.resumes (Nat.lt_of_lt_of_le exists' hresumes.engines) hplaced)

end Loading

end Bir
