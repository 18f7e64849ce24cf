import Bir.Proofs.Monotone
import Bir.Proofs.Reports.Evaluation

/-!
# Reports of whole runs — failures while sources are loaded

A failure to import a module is placed where the importer requests the module, and requests stand
in the source of the importer, because they are read from it.  This file defines:

* `Moment.Requested` — requests stand in the sources of those who make them;
* `LoadDiscipline.pointing` — what is known of the failures that leave engines.

`failures_point_into_their_reports` is what comes of it.
-/

namespace Bir

/-! ## Requests -/

/-- Requests stand in the source of the engine that makes them. -/
def State.Requests (state : State) (importer : EngineId) (requests : List Import) : Prop :=
  importer < state.engines.size ∧
    ∀ request ∈ requests, request.position ∈ Token.positions (state.sources importer)

/-- All requests stand in the sources of those who make them. -/
structure Moment.Requested (moment : Moment) : Prop where
  manned : moment.Manned
  programs : ∀ id < moment.state.engines.size,
    moment.state.Requests id (moment.state.engine id).program.imports
  pending : ∀ importer requests, .imports importer requests ∈ moment.pending →
    moment.state.Requests importer requests

/-- A source is never taken from an engine, or changed. -/
structure State.KeepsSources (state state' : State) : Prop where
  size : state.engines.size ≤ state'.engines.size
  sources : ∀ id < state.engines.size, state'.sources id = state.sources id

namespace State

variable {state state' : State} {importer : EngineId} {requests : List Import}

theorem SameModules.keepsSources (h : SameModules state state') : KeepsSources state state' where
  size := Nat.le_of_eq h.size.symm
  sources id _ := h.content id

theorem Requests.mono (h : state.Requests importer requests) (keeps : KeepsSources state state') :
    state'.Requests importer requests := by
  refine ⟨Nat.lt_of_lt_of_le h.1 keeps.size, ?_⟩
  intro request hmem
  rw [keeps.sources importer h.1]
  exact h.2 request hmem

/-- The imports of a program that a source is stand in that source. -/
theorem Requests.of_program {program : Program} (hlt : importer < state.engines.size)
    (h : Program.ofSource (state.sources importer) = .ok program) :
    state.Requests importer program.imports := by
  obtain ⟨tokens, hscan, hwritten⟩ := Program.ofSource_written h
  exact ⟨hlt, fun request hmem => Token.mem_positions hscan (hwritten.imports request hmem)⟩

end State

namespace Moment.Requested

/-- What no step changes of the sources keeps the requests in them. -/
theorem of_keepsSources {pending pending' : List Bracket} {self self' : EngineId}
    {state state' : State} (h : Requested ⟨pending, self, state⟩)
    (manned : Manned ⟨pending', self', state'⟩) (keeps : State.KeepsSources state state')
    (programs : ∀ id < state'.engines.size,
      (state'.engine id).program.imports = [] ∨
        id < state.engines.size ∧ (state'.engine id).program = (state.engine id).program)
    (hpending : ∀ bracket ∈ pending', bracket ∈ pending ∨
      ∀ importer requests, bracket ≠ .imports importer requests) :
    Requested ⟨pending', self', state'⟩ where
  manned := manned
  programs id hid := by
    rcases programs id hid with hnone | ⟨hold, hsame⟩
    · exact ⟨hid, by simp [hnone]⟩
    · have hrequests := (h.programs id hold).mono keeps
      change state'.Requests id (state'.engine id).program.imports
      rw [hsame]
      exact hrequests
  pending importer requests hmem := by
    rcases hpending _ hmem with hold | hnew
    · exact (h.pending importer requests hold).mono keeps
    · exact absurd rfl (hnew importer requests)

theorem of_sameModules {pending pending' : List Bracket} {self self' : EngineId}
    {state state' : State} (h : Requested ⟨pending, self, state⟩)
    (manned : Manned ⟨pending', self', state'⟩) (same : State.SameModules state state')
    (hpending : ∀ bracket ∈ pending', bracket ∈ pending ∨
      ∀ importer requests, bracket ≠ .imports importer requests) :
    Requested ⟨pending', self', state'⟩ :=
  h.of_keepsSources manned same.keepsSources
    (fun id hid => Or.inr ⟨same.size ▸ hid, same.program id⟩) hpending

theorem move {allowed : EngineId → Statement → Prop} {moment moment' : Moment}
    (h : moment.Requested) (move : Move allowed moment moment') : moment'.Requested := by
  have hmanned := h.manned.move move
  have same := move.sameModules
  cases move <;> exact h.of_sameModules hmanned same (by simp +contextual)

theorem loadMove {moment moment' : Moment} (h : moment.Requested) (move : LoadMove moment moment') :
    moment'.Requested := by
  have hmanned := h.manned.loadMove move
  cases move with
  | @read pending self state program parsed =>
      have keeps : State.KeepsSources state
          (state.modifyEngine self fun engine => { engine with program }) :=
        ⟨Nat.le_of_eq (state.size_modifyEngine _ _).symm, fun id _ =>
          state.engine_modifyEngine_congr self Engine.content (by intro _; rfl) id⟩
      refine ⟨hmanned, ?_, fun importer requests hmem => (h.pending _ _ hmem).mono keeps⟩
      intro id hid
      have hold : id < state.engines.size := Nat.lt_of_lt_of_le hid (by simp)
      by_cases hself : self = id
      · subst hself
        have hrequests := (State.Requests.of_program hold parsed).mono keeps
        simpa [State.engine_modifyEngine_self _ _ _ hold] using hrequests
      · have hrequests := (h.programs id hold).mono keeps
        simpa [State.engine_modifyEngine_ne _ _ hself] using hrequests
  | native => exact h.of_sameModules hmanned (.of_engines rfl) fun _ => .inl
  | @beginImports pending self state file =>
      refine ⟨hmanned, fun id hid => h.programs id hid, ?_⟩
      intro importer requests hmem
      rcases List.mem_cons.1 hmem with heq | hmem
      · cases heq
        exact h.programs self h.manned.self
      · exact h.pending importer requests hmem
  | endImports =>
      exact h.of_sameModules hmanned (.of_engines rfl) fun _ hmem =>
        .inl (List.mem_cons_of_mem _ hmem)
  | @openModule pending self state path content =>
      have keeps : State.KeepsSources state (state.addEngine path content).1 := by
        refine ⟨by simp [State.addEngine], ?_⟩
        intro id hid
        simp only [State.sources, State.engine_addEngine_of_lt path content hid]
      refine h.of_keepsSources hmanned keeps ?_ (by simp +contextual)
      intro id hid
      rcases State.lt_addEngine path content hid with hlt | rfl
      · rw [State.engine_addEngine_of_lt path content hlt]
        exact Or.inr ⟨hlt, rfl⟩
      · rw [State.engine_addEngine, if_pos rfl]
        exact Or.inl rfl
  | dropModule =>
      exact h.of_sameModules hmanned (.of_engines rfl) fun _ hmem =>
        .inl (List.mem_cons_of_mem _ hmem)
  | @expose pending importer module state =>
      have hsize := state.size_expose importer module
      refine h.of_keepsSources hmanned ⟨Nat.le_of_eq hsize.symm, fun id _ => ?_⟩ ?_ ?_
      · exact State.engine_expose_congr Engine.content (by intro _ _; rfl) id
      · intro id hid
        have hprogram : ((state.expose importer module).engine id).program =
            (state.engine id).program :=
          State.engine_expose_congr Engine.program (by intro _ _; rfl) id
        exact Or.inr ⟨hsize ▸ hid, hprogram⟩
      · exact fun _ hmem => .inl (List.mem_cons_of_mem _ hmem)

end Moment.Requested

theorem State.initial_requested (config : Config) (files : FileTree) (source : Source)
    (path : Path) (content : String) :
    Moment.Requested ⟨[], Script.main, State.initial config files source path content⟩ where
  manned := State.initial_manned config files source path content
  programs id hid := by
    refine ⟨hid, ?_⟩
    simp only [State.initial, State.engine_addEngine]
    split <;> simp [State.engine]
  pending _ _ hmem := by cases hmem

/-- In every reachable state, requests stand in the sources of those who make them, and all code is
sound. -/
theorem State.Reachable.requested {state : State} (h : state.Reachable) :
    Moment.Requested ⟨[], Script.main, state⟩ ∧ state.Sound := by
  refine of_invariant State.initial_requested (fun hrequested _ => hrequested.move)
    (fun hrequested _ => hrequested.loadMove) ?_ h
  intro pending self state hrequested
  have hmain : Script.main < state.engines.size :=
    Nat.lt_of_le_of_lt (Nat.zero_le _) hrequested.manned.self
  exact ⟨⟨hrequested.manned.uses, hmain, fun _ hmem => by cases hmem⟩, hrequested.programs,
    fun _ _ hmem => by cases hmem⟩

/-! ## Failures that leave an engine -/

namespace Failure

/-- A failure says that a source is no program, or that a module cannot be loaded. -/
def OfSource (failure : Failure) : Prop :=
  (∃ cause, failure.cause = .malformed cause) ∨ ∃ name reason, failure.cause = .moduleLoad name reason

/-- What is known of a failure that leaves an engine. -/
def Traced (aims : Position → Prop) (failure : Failure) (state : State) : Prop :=
  failure.cause = Watch.stopCause ∨ failure.OfSource ∨ failure.Pointed aims state.sources

theorem OfSource.congr {failure failure' : Failure} (h : failure.OfSource)
    (cause : failure'.cause = failure.cause) : failure'.OfSource := by
  unfold OfSource
  rw [cause]
  exact h

namespace Traced

variable {aims : Position → Prop} {failure : Failure} {state state' : State}

theorem congr (h : failure.Traced aims state) (sources : state'.sources = state.sources) :
    failure.Traced aims state' := by
  unfold Traced
  rw [sources]
  exact h

/-- A failure that is placed and reported is left as it is. -/
theorem settled (h : failure.Traced aims state) (position : Position) (report : Unit → Report) :
    ((failure.place position).attach report).Traced aims state := by
  rcases h with hstopped | hsource | hpointed
  · exact Or.inl (by simpa using hstopped)
  · exact Or.inr (Or.inl (hsource.congr (by simp)))
  · rw [place_of_position hpointed.position_isSome, attach_of_report hpointed.report_isSome]
    exact Or.inr (Or.inr hpointed)

theorem ofModule (h : failure.Traced aims state) (name : String) :
    (Loading.ofModule name failure).Traced aims state := by
  unfold Loading.ofModule
  split
  · exact Or.inr (Or.inl (Or.inr ⟨_, _, rfl⟩))
  · exact h

end Traced

end Failure

/-- What is known of the failures that leave engines, at the positions that a watch guards. -/
def LoadDiscipline.pointing {watch : Watch} {aims : Position → Prop}
    (guards : watch.Guards aims) : LoadDiscipline watch where
  holds moment := moment.Requested ∧ moment.state.Sound
  reports := Failure.Traced aims
  main := by
    intro pending self state _ bound h
    have hrest : ∀ {state'}, State.SameModules state state' →
        Moment.Requested ⟨pending, self, state'⟩ := by
      intro state' same
      refine h.1.of_sameModules ?_ same fun _ => .inl
      exact h.1.manned.of_sameUses same.sameUses fun _ => .inl
    have hstart : (Discipline.pointing guards state).holds ⟨pending, self, state⟩ :=
      ⟨.of_engines rfl, h.2⟩
    have hmain := (Discipline.pointing guards state).runMain_completes bound (h.2.programs self)
      hstart
    refine hmain.mono ?_ ?_
    · rintro _ state' ⟨same, hsound⟩
      exact ⟨hrest same, hsound⟩
    · rintro failure state' ⟨⟨same, hsound⟩, hcomplete⟩
      refine ⟨⟨hrest same, hsound⟩, ?_⟩
      have hsources : state'.sources = state.sources := funext same.content
      rcases hcomplete.2 with hstopped | hpointed
      · exact Or.inl hstopped
      · exact Or.inr (Or.inr (hsources ▸ hpointed))
  halt _ _ := Or.inl rfl
  loadMove h move := ⟨h.1.loadMove move, move.sound h.2⟩
  unread := by
    intro pending self state error _ _
    exact Or.inr (Or.inl (Or.inl ⟨error.cause, by simp [Failure.ofSyntaxError, Failure.ofCause]⟩))
  missing := by
    intro pending self requests request state cause h hmem natural
    have hposition := (h.1.pending self requests List.mem_cons_self).2 request hmem
    have hsource := Token.isSynthetic_of_mem hposition
    refine Or.inr (Or.inr ⟨request.position, state.report self, self, ?_, ?_, rfl, ?_⟩)
    · simp [Failure.position_place, Failure.ofCause, hsource]
    · simp [Failure.report_attach, Failure.ofCause]
    · exact fun _ => Or.inl hposition
  returned hreports := (hreports.ofModule _).settled _ _
  passed hreports := hreports.settled _ _
  still hreports hengines := hreports.congr (by
    funext id
    simp [State.sources, State.engine_congr hengines])

/-! ## The result -/

/-- A failure of a step under a watch that does not stop it points into the source of its report, if
the watch guards the position. -/
theorem Failure.pointed_of_guards {watch : Watch} {aims : Position → Prop}
    (guards : watch.Guards aims) {start after : State} (reachable : start.Reachable) {bound : Nat}
    {step : Script.Step} {failure : Failure}
    (unstopped : (Script.performUnder watch bound step start).isStopped = false)
    (fails : Script.perform bound step start = .failed failure after)
    (semantic : ¬ failure.OfSource) : failure.Pointed aims after.sources := by
  have hstep := (LoadDiscipline.pointing guards).performs bound step start reachable.requested
  have hstopped := unstopped
  rw [Script.performUnder_eq unstopped, fails] at hstep hstopped
  rcases hstep.2 with hcause | hsource | hpointed
  · simp [Outcome.isStopped, hcause] at hstopped
  · exact absurd hsource semantic
  · exact hpointed

/-- A step of a script that fails does so with a position and with the report of an engine.  A
token in the source that the report shows has this position, unless the engine of the report
refused a call of another one and a token in the source of the caller has it, or an engine runs a
frame with this position although no token in its source has it. -/
theorem failures_point_into_their_reports {start after : State} (reachable : start.Reachable)
    {bound : Nat} {step : Script.Step} {failure : Failure}
    (fails : Script.perform bound step start = .failed failure after)
    (semantic : ¬ failure.OfSource) :
    ∃ position report owner, failure.position = some position ∧ failure.report = some report ∧
      report.content = (after.engine owner).content ∧
      (position ∈ Token.positions report.content ∨
        (failure.cause.IsRefusal ∧ ∃ caller, caller ≠ owner ∧
          position ∈ Token.positions (after.engine caller).content) ∨
        (Script.performUnder (Watch.misplaced position) bound step start).isStopped = true) := by
  have hsilent : (Script.performUnder Watch.silent bound step start).isStopped = false := by
    rw [Script.performUnder_silent]
    exact reachable.sound.isStopped_perform bound step
  obtain ⟨position, report, owner, hposition, hreport, hcontent, -⟩ :=
    Failure.pointed_of_guards Watch.silent_guards reachable hsilent fails semantic
  cases hmisplaced : (Script.performUnder (Watch.misplaced position) bound step start).isStopped with
  | true => exact ⟨position, report, owner, hposition, hreport, hcontent,
      Or.inr (Or.inr hmisplaced)⟩
  | false =>
      obtain ⟨position', report', owner', hposition', hreport', hcontent', hpoints⟩ :=
        Failure.pointed_of_guards (Watch.misplaced_guards position) reachable hmisplaced fails semantic
      have heq : position' = position := by simpa [hposition] using hposition'.symm
      subst heq
      refine ⟨position', report', owner', hposition', hreport', hcontent', ?_⟩
      rcases hpoints rfl with hmem | hrefused
      · exact Or.inl hmem
      · exact Or.inr (Or.inl hrefused)

/-- A call that a module refuses points astray: the position is that of the call in the script, and
the report shows the source of the module, which ends before that position. -/
theorem refused_call_points_astray :
    let files := FileTree.putFile {} ["bir", "m.bir"] (.file "deep[] { }".toUTF8)
    let start := State.initial { callLimit := 1 } files (.prepared []) "main.bir"
      "use \"m\"\n\n\n   deep()"
    ((Script.run 20 start).failure?).map
        (fun failure => (failure.cause, failure.position, failure.report.map fun r => r.content)) =
      some (.callStackOverflow 1, some ⟨4, 4⟩, some "deep[] { }") ∧
    ⟨4, 4⟩ ∉ Token.positions "deep[] { }" := by
  decide +kernel

/-- A failure in a block of a module, as an instance: the script has loaded the module and runs. -/
theorem failures_point_into_their_reports_of_import :
    ∃ (start after : State) (failure : Failure), start.Reachable ∧
      Script.perform 20 .run start = .failed failure after ∧
      failure.cause = .uncaughtThrow 1 ∧
      ∃ position report owner, failure.position = some position ∧ failure.report = some report ∧
        report.content = (after.engine owner).content ∧
        (position ∈ Token.positions report.content ∨
          (failure.cause.IsRefusal ∧ ∃ caller, caller ≠ owner ∧
            position ∈ Token.positions (after.engine caller).content) ∨
          (Script.performUnder (Watch.misplaced position) 20 .run start).isStopped = true) := by
  let files := FileTree.putFile {} ["bir", "m.bir"] (.file "f[] { throw 1 }".toUTF8)
  let initial := State.initial {} files (.prepared []) "main.bir" "use \"m\"\nf()"
  have hends : ((Script.perform 20 .load initial).state?.bind fun start =>
      (Script.perform 20 .run start).failure?.map fun failure => failure.cause) =
        some (.uncaughtThrow 1) := by decide +kernel
  obtain ⟨start, hstart, hrun⟩ := Option.bind_eq_some_iff.1 hends
  obtain ⟨failure, hfailure, hcause⟩ := Option.map_eq_some_iff.1 hrun
  obtain ⟨after, hafter⟩ := Outcome.eq_failed_of_failure? hfailure
  have hreachable : start.Reachable := .performed (.initial ..) hstart
  have hsemantic : ¬ failure.OfSource := by simp [Failure.OfSource, hcause]
  exact ⟨start, after, failure, hreachable, hafter, hcause,
    failures_point_into_their_reports hreachable hafter hsemantic⟩

end Bir
