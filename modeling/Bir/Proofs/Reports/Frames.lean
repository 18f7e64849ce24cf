import Bir.Proofs.Course
import Bir.Proofs.Frames
import Bir.Proofs.Monotone

/-!
# Frames that fail — a failure leaves every frame that it arises in

Nothing catches a failure.  So if a run comes to a frame whose statements fail, then the run fails,
and its report lists the frames that were active there, with those that were entered from there
after them.  This file defines:

* `State.Fails` — the statements of a frame fail;
* `Moment.Above` — there are certain frames at the bottom of the call stack;
* `Loss.through` — the loss of a run that a watch stops where a frame is going to fail.

`Script.Meets.frames_prefix` is what comes of it, and `Script.exists_meets` tells that where a watch
stops a run there is a point that the run comes to.
-/

namespace Bir

/-! ## Points -/

/-- The loss of a run that one watch stops, as compared to those that watches for one point stop. -/
def Loss.found : Loss where
  stopped cause := cause = Watch.stopCause
  cut := False
  spent := False
  spared := False
  kept failure := failure.cause = Watch.stopCause
  passed hcause := Failure.ofModule_of_stopped hcause _
  free h := h.elim
  place _ h := by rwa [Failure.cause_place]
  attach _ h := by rwa [Failure.cause_attach]
  handed _ h := by rwa [Failure.ofModule_of_stopped h]

theorem Outcome.Answers.isStopped {α : Type} {outcome : Outcome α}
    (h : outcome.Answers Loss.found) : outcome.isStopped = true := by
  cases outcome with
  | done value state => exact h.elim
  | failed failure state =>
      have hcause : failure.cause = Watch.stopCause := h
      simp [Outcome.isStopped, hcause]
  | exhausted => exact h.elim

theorem Watch.point_self (self : EngineId) (code : Code) (state : State) :
    point self code state self code state = true := by simp [point]

/-- Among the watches for the points at which a watch stops there is one that stops as well. -/
theorem Loss.found_refines (watch : Watch) (bound : Nat) :
    Loss.found.Refines watch (fun place : { place : EngineId × Code × State //
      watch place.1 place.2.1 place.2.2 = true } => Watch.point place.1.1 place.1.2.1 place.1.2.2)
      bound bound where
  finer {place self code state} h := by
    simp only [Watch.point, decide_eq_true_eq] at h
    obtain ⟨rfl, rfl, rfl⟩ := h
    exact place.2
  stops {self code state} h := by
    refine ⟨rfl, ⟨(self, code, state), h⟩, ?_⟩
    have hpoint := Watch.point_self self code state
    cases code with
    | expression expression =>
        intro bound
        have hended : evaluateUnder (Watch.point self (.expression expression) state) (bound + 1)
            self expression state = .failed Watch.stop state := by simp [evaluateUnder, hpoint]
        rw [hended]
        rfl
    | frame statements =>
        intro bound
        have hended : executeUnder (Watch.point self (.frame statements) state) (bound + 1)
            self statements state = .failed Watch.stop state := by simp [executeUnder, hpoint]
        apply Action.within_reporting
        rw [hended]
        rfl
    | source =>
        intro bound
        have hended : loadUnder (Watch.point self .source state) (bound + 1) self state =
            .failed Watch.stop state := by
          simp [loadUnder, Action.bind_apply, Watch.look, hpoint]
        rw [hended]
        rfl
  deeper := Or.inl rfl

/-- If a watch stops a step, the step comes to a point at which the watch stops. -/
theorem Script.exists_meets {watch : Watch} {bound : Nat} {step : Step} {state : State}
    (sound : state.Sound) (stopped : (performUnder watch bound step state).isStopped = true) :
    ∃ self code point, watch self code point = true ∧
      Meets bound step state self code point := by
  have hany : ∃ self code point, watch self code point = true := by
    refine Classical.byContradiction fun hnone => ?_
    have hsilent : watch = Watch.silent := by
      funext self code point
      cases hwatch : watch self code point with
      | true => exact (hnone ⟨self, code, point, hwatch⟩).elim
      | false => rfl
    rw [hsilent, performUnder_silent, sound.isStopped_perform] at stopped
    cases stopped
  rcases (Loss.found_refines watch bound).performUnder_upTo step state with
    hsame | ⟨-, -, place, hanswers⟩ | ⟨-, hcut⟩
  · obtain ⟨self, code, point, hwatch⟩ := hany
    refine ⟨self, code, point, hwatch, ?_⟩
    have hpoint := hsame ⟨(self, code, point), hwatch⟩
    unfold Meets
    rw [← stopped, ← hpoint]
  · exact ⟨place.1.1, place.1.2.1, place.1.2.2, place.2, hanswers.isStopped⟩
  · exact hcut.elim

/-! ## Frames that fail -/

/-- The statements of a frame fail. -/
def State.Fails (state : State) (self : EngineId) (statements : List Statement) : Prop :=
  ∃ bound failure after, execute bound self statements state = .failed failure after

/-- A frame whose statements fail with one bound succeeds with none. -/
theorem State.Fails.within {state : State} {self : EngineId} {statements : List Statement}
    (h : state.Fails self statements) (bound : Nat) :
    (Action.reporting self (execute bound self statements) state).Within True
      (fun _ _ => False) (fun _ _ => True) := by
  have hsame : ∀ {less more : Nat}, less ≤ more →
      (Action.reporting self (execute less self statements) state).Within False
        (fun _ _ => True) (fun _ _ => True) →
      Action.reporting self (execute more self statements) state =
        Action.reporting self (execute less self statements) state := by
    intro less more hle hfinished
    have hknot := (Loss.short_refines hle).knot.runs self statements state
    simp only [(evaluateUnder_silent _).2] at hknot
    exact hknot.eq_of_within hfinished ()
  obtain ⟨ample, failure, after, hended⟩ := h
  have hfailed : Action.reporting self (execute ample self statements) state =
      .failed (failure.attach fun _ => after.report self) after := by
    simp [Action.reporting, hended]
  have hmore := hsame (Nat.le_max_left ample bound) (by rw [hfailed]; exact trivial)
  cases houtcome : Action.reporting self (execute bound self statements) state with
  | done value after' =>
      have hdone := hsame (Nat.le_max_right ample bound) (by rw [houtcome]; exact trivial)
      rw [hmore, hfailed, houtcome] at hdone
      cases hdone
  | failed failure' after' => exact trivial
  | exhausted => exact trivial

/-- A failure is reported by a call stack with certain frames at its bottom. -/
def Failure.ReportedAbove (base : List String) (failure : Failure) : Prop :=
  ∃ report ∈ failure.report, base <+: report.callStack

/-- Certain frames are at the bottom of the call stack, below those that the run has entered. -/
structure Moment.Above (base : List String) (moment : Moment) : Prop where
  manned : moment.Manned
  bottom : base <+: (moment.state.callStack moment.self).outermostFirst
  depth : (moment.state.callStack moment.self).depth = base.length + frames moment.pending

theorem Moment.Above.move {base : List String} {moment moment' : Moment} (h : moment.Above base)
    {allowed : EngineId → Statement → Prop} (move : Move allowed moment moment') :
    moment'.Above base := by
  suffices hstack : base <+: (moment'.state.callStack moment'.self).outermostFirst ∧
      (moment'.state.callStack moment'.self).depth = base.length + frames moment'.pending from
    ⟨h.manned.move move, hstack.1, hstack.2⟩
  have hbottom := h.bottom
  have hdepth := h.depth
  have hturn := move.turn h.manned
  revert hturn hdepth
  generalize frames moment.pending = open'
  generalize frames moment'.pending = open''
  generalize moment.state.callStack moment.self = stack at hbottom
  generalize moment'.state.callStack moment'.self = stack'
  intro hdepth hturn
  cases hturn with
  | same => exact ⟨hbottom, hdepth⟩
  | flow frame => exact ⟨by simpa using hbottom.trans (List.prefix_append _ _), by simp; omega⟩
  | call name room =>
      exact ⟨by simpa using hbottom.trans (List.prefix_append _ _), by simp; omega⟩
  | leave =>
      -- The frame that is left has been entered above those at the bottom.
      obtain ⟨entered, hentered⟩ := hbottom
      have hsome : entered ≠ [] := by
        rintro rfl
        have hlength := stack.length_outermostFirst
        rw [← hentered, List.append_nil] at hlength
        omega
      refine ⟨?_, by simp; omega⟩
      rw [CallStack.outermostFirst_pop, ← hentered, List.dropLast_append_of_ne_nil hsome]
      exact List.prefix_append _ _

/-- Reports list the frames that were there when an evaluation began. -/
def Discipline.above (base : List String) : Discipline Watch.silent where
  expression _ _ := True
  statement _ _ := True
  body _ _ := True
  holds := Moment.Above base
  blames _ failure := ∀ report ∈ failure.report, base <+: report.callStack
  settled _ failure := ∀ report ∈ failure.report, base <+: report.callStack
  complete := Failure.ReportedAbove base
  operand _ _ := trivial
  part _ _ := trivial
  nested _ _ := trivial
  opened _ _ _ _ _ := trivial
  called _ _ := ⟨trivial, fun _ _ => trivial⟩
  move h move := h.move move
  raise _ _ hreport := by cases hreport
  halt _ _ _ hstops := by cases hstops
  place h _ := by rwa [Failure.report_place]
  mark h _ _ := by rwa [Failure.report_place]
  settle h _ := by rwa [Failure.report_place]
  attach h hsettled := by
    rename_i pending self state failure
    cases hreport : failure.report with
    | none => exact ⟨_, Failure.report_attach hreport _, h.bottom⟩
    | some report =>
        rw [Failure.attach_of_report (by simp [hreport])]
        exact ⟨report, hreport, hsettled report hreport⟩
  reported h := by
    obtain ⟨report, hreport, -⟩ := h
    exact Option.isSome_iff_exists.2 ⟨report, hreport⟩
  pass h := by
    obtain ⟨report, hreport, hbottom⟩ := h
    intro report' hreport'
    cases hreport.symm.trans hreport'
    exact hbottom
  refuse h _ _ := by
    intro report hreport
    cases (Failure.report_attach rfl _).symm.trans hreport
    exact h.bottom

/-- A frame that fails does so with a report that lists the frames that were active when it was
entered. -/
theorem reporting_execute_above {self : EngineId} {state : State}
    (manned : Moment.Manned ⟨[], self, state⟩) (bound : Nat) (statements : List Statement) :
    (Action.reporting self (execute bound self statements) state).Ends (fun _ _ => True)
      fun failure _ => failure.ReportedAbove (state.report self).callStack := by
  let base := (state.report self).callStack
  have hstart : Moment.Above base ⟨[], self, state⟩ :=
    ⟨manned, List.prefix_refl _, ((state.callStack self).length_outermostFirst).symm⟩
  have hruns : (Discipline.above base).regimen.Settles [] self
      (executeUnder Watch.silent bound self statements) :=
    ((Discipline.above base).knot bound).runs trivial
  rw [(evaluateUnder_silent bound).2] at hruns
  apply Action.ends_reporting
  refine (hruns state hstart).ends.mono (fun _ _ _ => trivial) ?_
  rintro failure after ⟨hafter, hsettled⟩
  exact (Discipline.above base).attach hafter hsettled

/-- The loss of a run that a watch stops where a frame is going to fail: the run without the watch
fails as well, and its report lists the frames that are active there. -/
def Loss.through (base : List String) : Loss where
  stopped cause := cause = Watch.stopCause
  cut := False
  spent := True
  spared := False
  kept := Failure.ReportedAbove base
  passed hcause := Failure.ofModule_of_stopped hcause _
  free h := h.elim
  place _ h := by simpa [Failure.ReportedAbove] using h
  attach _ h := by
    obtain ⟨report, hreport, hbottom⟩ := h
    rw [Failure.attach_of_report (Option.isSome_iff_exists.2 ⟨report, hreport⟩)]
    exact ⟨report, hreport, hbottom⟩
  handed _ h := by simpa [Failure.ReportedAbove] using h

theorem Loss.through_refines {self : EngineId} {statements : List Statement} {point : State}
    (manned : Moment.Manned ⟨[], self, point⟩) (fails : point.Fails self statements)
    (bound : Nat) :
    (Loss.through (point.report self).callStack).Refines (Watch.point self (.frame statements) point)
      (fun _ : Unit => Watch.silent) bound bound where
  finer h := by cases h
  stops {self' code state} h := by
    simp only [Watch.point, decide_eq_true_eq] at h
    obtain ⟨rfl, rfl, rfl⟩ := h
    refine ⟨rfl, (), fun bound => ?_⟩
    rw [(evaluateUnder_silent (bound + 1)).2]
    have habove := reporting_execute_above manned (bound + 1) statements
    exact ((fails.within (bound + 1)).and_ends habove).mono (fun _ _ h => h.1) fun _ _ h => h.2
  deeper := Or.inl rfl

/-- A step that comes to a frame that fails does so with a report that lists the frames that are
active there. -/
theorem Script.Meets.frames_prefix {state after : State} (sound : state.Sound)
    (manned : Moment.Manned ⟨[], main, state⟩) {bound : Nat} {step : Step} {failure : Failure}
    (ended : perform bound step state = .failed failure after) {self : EngineId}
    {statements : List Statement} {point : State}
    (meets : Meets bound step state self (.frame statements) point)
    (fails : point.Fails self statements) :
    failure.ReportedAbove (point.report self).callStack := by
  obtain ⟨pending, -, hleads⟩ := Moment.leads_of_meets sound meets
  have hpoint : Moment.Manned ⟨pending, self, point⟩ :=
    hleads.keeps Moment.Manned manned (fun h move => h.move move) fun h move => h.loadMove move
  have hupto := (Loss.through_refines hpoint.alone fails bound).performUnder_upTo step state
  simp only [performUnder_silent] at hupto
  rcases hupto with hsame | ⟨-, -, -, hanswers⟩ | ⟨-, hcut⟩
  · have hstopped := sound.isStopped_perform bound step
    rw [hsame ()] at hstopped
    rw [Meets, hstopped] at meets
    cases meets
  · rw [ended] at hanswers
    exact hanswers
  · exact hcut.elim

end Bir
