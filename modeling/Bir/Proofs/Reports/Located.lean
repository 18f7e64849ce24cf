import Bir.Proofs.Reports.Places
import Bir.Proofs.Reports.Tracing

/-!
# Located failures — where a failure arose, and in which frames

A failure of a step has a position, which counts lines and columns from one, and a report.  The call
stack in the report lists the frames in which the failure arose, from that of a main program to the
innermost one, or nothing if no program was running.  This file defines:

* `Script.RaisedIn` — certain frames are those in which a failure of a step arose.

`failures_are_located` is the result.
-/

namespace Bir

/-! ## Main programs -/

/-- What is known of the statements of a main program is known of the run of the program. -/
theorem ends_runMain {run : Runner} {self : EngineId} {state : State} {bad : Failure → Prop}
    (h : (Action.reporting self (run self (state.engine self).program.statements)
      (state.modifyCallStack self fun stack => stack.push FlowFrame.main.name)).Ends
        (fun _ _ => True) fun failure _ => bad failure) :
    (runMain run self state).Ends (fun _ _ => True) fun failure _ => bad failure := by
  apply Action.ends_bind
  change ((do
    let _ ← Action.inFlowFrame self .main (run self (state.engine self).program.statements)
    return () : Action Unit) state).Ends _ _
  apply Action.ends_bind
  exact (Action.within_thenPop (Outcome.within_true.2 h)).ends

namespace State.Idle

variable {state : State} {self : EngineId}

/-- A main program begins on an empty call stack. -/
theorem above_main (idle : state.Idle) (manned : Moment.Manned ⟨[], self, state⟩) :
    Moment.Above [FlowFrame.main.name]
      ⟨[], self, state.modifyCallStack self fun stack => stack.push FlowFrame.main.name⟩ := by
  have hstack := State.callStack_modifyCallStack state
    (fun stack => stack.push FlowFrame.main.name) manned.self
  rw [idle.callStacks self manned.self] at hstack
  refine ⟨?_, ?_, ?_⟩
  · exact manned.of_sameUses (.modifyEngine self fun _ => rfl) fun _ => .inl
  · rw [hstack]
    exact List.prefix_refl _
  · rw [hstack]
    rfl

/-- All frames that a main program comes to are above its own. -/
theorem runMain_above (idle : state.Idle) (manned : Moment.Manned ⟨[], self, state⟩)
    {watch : Watch} {condition : Prop} (finds : ∀ self' code point,
      [FlowFrame.main.name] <+: point.active self' → watch self' code point = true → condition)
    (bound : Nat) :
    (Bir.runMain (executeUnder watch bound) self state).Ends (fun _ _ => True)
      fun failure _ => failure.StopsOnlyIf condition := by
  let D := Discipline.ofInvariant watch .any (Moment.Above [FlowFrame.main.name]) condition
    (fun h code _ => finds _ code _ h.bottom) (fun _ _ => ⟨fun _ _ => trivial, fun _ _ _ _ => trivial⟩)
    fun h move => h.move move
  apply ends_runMain
  apply Action.ends_reporting
  have hruns : D.regimen.Settles [] self
      (executeUnder watch bound self (state.engine self).program.statements) :=
    (D.knot bound).runs fun _ _ => trivial
  have hended := (hruns _ (idle.above_main manned)).ends
  exact hended.mono (fun _ _ _ => trivial) fun _ _ h => h.2.attach _

/-- A main program that fails does so with a report that lists its frame. -/
theorem runMain_reported (idle : state.Idle) (manned : Moment.Manned ⟨[], self, state⟩)
    (bound : Nat) :
    (Bir.runMain (execute bound) self state).Ends (fun _ _ => True)
      fun failure _ => failure.Lists [FlowFrame.main.name] := by
  have habove := idle.above_main manned
  apply ends_runMain
  refine (reporting_execute_above habove.manned bound _).mono (fun _ _ _ => trivial) ?_
  rintro failure after ⟨report, hreport, hprefix⟩
  exact ⟨report, hreport, habove.bottom.trans hprefix⟩

end State.Idle

/-! ## Whole runs -/

/-- A watch that stops a run at a frame finds frames that are above that of a main program. -/
def LoadDiscipline.above (self : EngineId) (statements : List Statement) (point : State) :
    LoadDiscipline (Watch.point self (.frame statements) point) where
  holds moment := moment.state.Idle ∧ moment.Manned
  reports failure _ := failure.StopsOnlyIf ([FlowFrame.main.name] <+: point.active self)
  main bound h := by
    have hfinds : ∀ self' code point', [FlowFrame.main.name] <+: point'.active self' →
        Watch.point self (.frame statements) point self' code point' = true →
          [FlowFrame.main.name] <+: point.active self := by
      intro self' code point' hactive hfound
      simp only [Watch.point, decide_eq_true_eq] at hfound
      obtain ⟨rfl, -, rfl⟩ := hfound
      exact hactive
    have habove := h.1.runMain_above h.2.alone hfinds bound
    exact ((h.1.runMain_rests h.2 _ bound).and habove).mono (fun _ _ h' => h'.1) fun _ _ h' => h'
  halt _ hstops := by simp [Watch.point] at hstops
  loadMove := Moment.idle_loadMove
  unread _ _ := (Failure.StopsOnlyIf.ofSyntaxError _).attach _
  missing _ _ natural := .missing natural
  returned h := h.returned
  passed h := h.passed
  still h _ := h

/-- All frames that a step comes to are above that of a main program. -/
theorem Script.Meets.above_main {state : State} (idle : state.Idle)
    (manned : Moment.Manned ⟨[], main, state⟩) {bound : Nat} {step : Step} {self : EngineId}
    {statements : List Statement} {point : State}
    (meets : Meets bound step state self (.frame statements) point) :
    [FlowFrame.main.name] <+: point.active self := by
  have hstep := (LoadDiscipline.above self statements point).performs bound step state
    ⟨idle, manned⟩
  obtain ⟨failure, after, ⟨-, hstops⟩, hstopped⟩ := hstep.of_isStopped meets
  exact hstops hstopped

/-! ## The result -/

/-- Certain frames, the outermost first, are those in which a failure of a step arose.  A failure
leaves every frame that it arises in, so these are the frames that the step comes to and whose
statements fail: at each of them it is active with all that are around it, and at the innermost one
all are active.  There are none if the failure did not arise in a program that runs. -/
def Script.RaisedIn (bound : Nat) (step : Step) (start : State) (frames : List String) : Prop :=
  ∀ names, (∃ self statements point, Meets bound step start self (.frame statements) point ∧
      point.Fails self statements ∧ point.active self = names) ↔
    names ≠ [] ∧ names <+: frames

/-- A step that fails, whatever steps came before it, does so with a position and a report.  The
call stack in the report lists the frames in which the failure arose.  The first of them, if there
are any, is that of a main program, and a run has one. -/
theorem failures_are_located {state after : State} (rest : state.AtRest) {bound : Nat}
    {step : Script.Step} {failure : Failure}
    (fails : Script.perform bound step state = .failed failure after) :
    ∃ position report, failure.position = some position ∧ failure.report = some report ∧
      1 ≤ position.line ∧ 1 ≤ position.column ∧
      Script.RaisedIn bound step state report.callStack ∧
      (report.callStack ≠ [] → report.callStack.head? = some "<main>") ∧
      (step = .run → report.callStack ≠ []) := by
  obtain ⟨hidle, hmanned⟩ := rest.idle
  have hlocated := LoadDiscipline.placing.performs bound step state ⟨hidle, rest.reachable.requested.1⟩
  rw [Script.performUnder_silent, fails] at hlocated
  obtain ⟨-, ⟨position, hposition, hline, hcolumn⟩, hreported⟩ := hlocated
  obtain ⟨report, hreport⟩ := Option.isSome_iff_exists.1 hreported
  refine ⟨position, report, hposition, hreport, hline, hcolumn, ?_, ?_, ?_⟩
  · intro names
    constructor
    · rintro ⟨self, statements, point, hmeets, hfails, rfl⟩
      have hmain := hmeets.above_main hidle hmanned
      obtain ⟨report', hreport', hprefix⟩ := hmeets.frames_prefix hidle.sound hmanned fails hfails
      cases hreport.symm.trans hreport'
      refine ⟨?_, hprefix⟩
      rintro hnone
      simp [hnone] at hmain
    · rintro ⟨hsome, hprefix⟩
      exact Script.exists_failing_frame hidle hmanned fails ⟨report, hreport, hprefix⟩ hsome
  · intro hsome
    obtain ⟨self, statements, point, hmeets, -, hactive⟩ := Script.exists_failing_frame hidle hmanned
      fails ⟨report, hreport, List.prefix_refl _⟩ hsome
    have hmain := hmeets.above_main hidle hmanned
    rw [hactive] at hmain
    obtain ⟨others, hothers⟩ := hmain
    rw [← hothers]
    rfl
  · rintro rfl hnone
    have hmain := hidle.runMain_reported hmanned bound
    rw [show Bir.runMain (execute bound) Script.main state = _ from fails] at hmain
    obtain ⟨report', hreport', hprefix⟩ := hmain
    cases hreport.symm.trans hreport'
    simp [hnone] at hprefix

/-- A branch in a block of a module, as an instance: the call stack goes with control into the
module, and the position is that of the statement there. -/
theorem failures_are_located_of_import :
    ∃ state after : State, ∃ failure : Failure, ∃ report : Failure.Report, state.AtRest ∧
      Script.perform 20 .run state = .failed failure after ∧
      failure.position = some ⟨1, 14⟩ ∧ failure.report = some report ∧
      report.callStack = ["<main>", "f", "<if>"] ∧
      Script.RaisedIn 20 .run state ["<main>", "f", "<if>"] := by
  let files := FileTree.putFile {} ["bir", "m.bir"] (.file "f[] { if 1 { throw 1 } }".toUTF8)
  let start := State.initial {} files (.prepared []) "main.bir" "use \"m\"\nf()"
  have hends : ((Script.perform 20 .load start).state?.bind fun state =>
      (Script.perform 20 .run state).failure?.map fun failure =>
        (failure.position, failure.report.map fun report => report.callStack)) =
      some (some ⟨1, 14⟩, some ["<main>", "f", "<if>"]) := by decide +kernel
  obtain ⟨state, hstate, hrun⟩ := Option.bind_eq_some_iff.1 hends
  obtain ⟨failure, hfailure, hknown⟩ := Option.map_eq_some_iff.1 hrun
  obtain ⟨after, hended⟩ := Outcome.eq_failed_of_failure? hfailure
  have hrest : state.AtRest := .performed (.initial ..) hstate
  obtain ⟨hplace, hreported⟩ := Prod.mk.inj hknown
  obtain ⟨report, hreport, hframes⟩ := Option.map_eq_some_iff.1 hreported
  obtain ⟨-, report', -, hreport', -, -, hraised, -, -⟩ := failures_are_located hrest hended
  cases hreport.symm.trans hreport'
  rw [hframes] at hraised
  exact ⟨state, after, failure, report, hrest, hended, hplace, hreport, hframes, hraised⟩

end Bir
