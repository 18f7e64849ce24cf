import Bir.Proofs.Reports.Frames
import Bir.Proofs.Rest

/-!
# Tracing — a report lists frames that fail

A failure gets its report where it leaves the innermost frame, or, if a call was refused on a lent
call stack, where the loan ends.  Either way it lists the frames that are active there, and it
leaves each of them.  This file defines:

* `Failure.Lists` — the report of a failure begins with certain frames;
* `State.active` and `Watch.failing` — the watch that stops a run at a frame that is going to fail
  when certain frames are active;
* `Regimen.tracing` and `LoadDiscipline.tracing` — what this watch does not stop fails with other
  reports.

So each frame in a report is one that the run has come to and that fails:
`Script.exists_failing_frame`.
-/

namespace Bir

/-! ## Reports of certain frames -/

namespace Failure

variable {names : List String} {failure : Failure}

/-- The report of a failure begins with certain frames. -/
def Lists (names : List String) (failure : Failure) : Prop :=
  ∃ report ∈ failure.report, names <+: report.callStack

/-- If a failure is not that of a stopped run, it lists certain frames only under a condition. -/
def ListsOnlyIf (names : List String) (condition : Prop) (failure : Failure) : Prop :=
  failure.cause = Watch.stopCause ∨ (failure.Lists names → condition)

variable {condition : Prop}

theorem lists_place (failure : Failure) (position : Position) :
    (failure.place position).Lists names ↔ failure.Lists names := by
  simp [Lists]

theorem lists_attach (failure : Failure) (report : Unit → Report) :
    (failure.attach report).Lists names ↔
      failure.Lists names ∨ failure.report = none ∧ names <+: (report ()).callStack := by
  cases hreport : failure.report with
  | none => simp [Lists, report_attach hreport, hreport]
  | some first => simp [attach_of_report (by simp [hreport] : failure.report.isSome)]

namespace ListsOnlyIf

theorem stop : ListsOnlyIf names condition Watch.stop := Or.inl rfl

theorem ofCause (cause : Cause) : ListsOnlyIf names condition (.ofCause cause) := by
  refine Or.inr ?_
  rintro ⟨report, hreport, -⟩
  cases hreport

theorem place (h : failure.ListsOnlyIf names condition) (position : Position) :
    (failure.place position).ListsOnlyIf names condition := by
  simpa [ListsOnlyIf, lists_place] using h

theorem attach (h : failure.ListsOnlyIf names condition) {report : Unit → Report}
    (lists : names <+: (report ()).callStack → condition) :
    (failure.attach report).ListsOnlyIf names condition := by
  rcases h with hstopped | hlists
  · exact Or.inl (by rwa [cause_attach])
  · refine Or.inr fun hattached => ?_
    rcases (lists_attach failure report).1 hattached with hfirst | ⟨-, hnew⟩
    · exact hlists hfirst
    · exact lists hnew

theorem mono {condition' : Prop} (h : failure.ListsOnlyIf names condition)
    (weaker : condition → condition') : failure.ListsOnlyIf names condition' :=
  h.imp id fun hlists hmem => weaker (hlists hmem)

theorem and {condition' : Prop} (h : failure.ListsOnlyIf names condition)
    (h' : failure.ListsOnlyIf names condition') :
    failure.ListsOnlyIf names (condition ∧ condition') := by
  rcases h, h' with ⟨hstopped | hlists, hstopped' | hlists'⟩
  · exact Or.inl hstopped
  · exact Or.inl hstopped
  · exact Or.inl hstopped'
  · exact Or.inr fun hmem => ⟨hlists hmem, hlists' hmem⟩

theorem ofModule (h : failure.ListsOnlyIf names condition) (name : String) :
    (Loading.ofModule name failure).ListsOnlyIf names condition := by
  rcases h with hstopped | hlists
  · rw [ofModule_of_stopped hstopped]
    exact Or.inl hstopped
  · refine Or.inr ?_
    unfold Loading.ofModule
    split
    · exact hlists
    · exact hlists

end ListsOnlyIf

end Failure

/-! ## Main programs -/

/-- The frames that are active where an engine is in control. -/
def State.active (state : State) (self : EngineId) : List String :=
  (state.callStack self).outermostFirst

open Classical in
/-- The watch that stops a run at a frame that is going to fail below certain frames. -/
noncomputable def Watch.failing (names : List String) : Watch := fun self code state =>
  match code with
  | .frame statements => decide (state.Fails self statements ∧ state.active self = names)
  | _ => false

theorem Watch.failing_frame {names : List String} {self : EngineId} {code : Code} {state : State}
    (h : failing names self code state = true) :
    ∃ statements, code = .frame statements ∧ state.Fails self statements ∧
      state.active self = names := by
  cases code with
  | frame statements => exact ⟨statements, rfl, by simpa [failing] using h⟩
  | expression expression => cases h
  | source => cases h

/-- Watched statements that fail and are not stopped fail without the watch as well. -/
theorem executeUnder_fails {watch : Watch} {bound : Nat} {self : EngineId}
    {statements : List Statement} {state after : State} {failure : Failure}
    (ended : executeUnder watch bound self statements state = .failed failure after)
    (unstopped : failure.cause ≠ Watch.stopCause) :
    Action.reporting self (execute bound self statements) state =
        .failed (failure.attach fun _ => after.report self) after ∧
      state.Fails self statements := by
  have hended : Action.reporting self (executeUnder watch bound self statements) state =
      .failed (failure.attach fun _ => after.report self) after := by
    simp [Action.reporting, ended]
  have hupto := (Loss.stop_refines watch bound).knot.runs self statements state
  simp only [(evaluateUnder_silent bound).2] at hupto
  have hsame := hupto.eq_of_not_stopped (by simpa [hended, Outcome.isStopped] using unstopped) ()
  rw [hended] at hsame
  refine ⟨hsame.symm, bound, ?_⟩
  cases houtcome : execute bound self statements state with
  | failed failure' after' => exact ⟨failure', after', rfl⟩
  | done value after' => simp [Action.reporting, houtcome] at hsame
  | exhausted => simp [Action.reporting, houtcome] at hsame

/-- Statements that run under the watch for frames that fail do so with the report of other frames,
if they are as many as are active. -/
theorem executeUnder_failing {names : List String} {bound : Nat} {self : EngineId}
    {statements : List Statement} {state after : State} {failure : Failure}
    (manned : Moment.Manned ⟨[], self, state⟩)
    (ended : executeUnder (Watch.failing names) bound self statements state = .failed failure after) :
    (failure.attach fun _ => after.report self).ListsOnlyIf names
      (names.length ≠ (state.callStack self).depth) := by
  refine or_iff_not_imp_left.2 fun hcause => ?_
  rw [Failure.cause_attach] at hcause
  obtain ⟨hended, hfails⟩ := executeUnder_fails ended hcause
  have habove := reporting_execute_above manned bound statements
  rw [hended] at habove
  obtain ⟨report, hreport, hactive⟩ := habove
  rintro ⟨report', hreport', hnames⟩ hmany
  cases hreport.symm.trans hreport'
  -- Both are at the bottom of the report, so the watch has seen this frame.
  rw [← CallStack.length_outermostFirst] at hmany
  have hsame : state.active self = names :=
    (List.prefix_of_prefix_length_le hactive hnames hmany.ge).eq_of_length hmany.symm
  cases bound with
  | zero => simp [executeUnder] at ended
  | succ bound =>
      have hnoticed : Watch.failing names self (.frame statements) state = true := by
        simp [Watch.failing, hfails, hsame]
      rw [executeUnder, if_pos hnoticed] at ended
      cases ended
      exact hcause rfl

/-- A report lists as many frames as are open. -/
theorem Moment.Underway.length_le {start : State} {moment : Moment}
    (h : moment.Underway start) {names : List String}
    (listed : names <+: (moment.state.report moment.self).callStack) :
    names.length ≤ frames moment.pending := by
  have hdepth := h.depth
  rw [← CallStack.length_outermostFirst] at hdepth
  exact hdepth ▸ listed.length_le

/-- Inside a frame a report may list all frames that are open, if a call was refused.  What leaves
the frame does not list that frame. -/
noncomputable def Regimen.tracing (names : List String) (start : State) :
    Regimen (Watch.failing names) where
  cut := True
  ready _ _ := True
  callable _ := True
  expression _ _ _ _ := True
  statement _ _ _ statement := statement ∈ start.statements
  body _ _ _ statements := ∀ statement ∈ statements, statement ∈ start.statements
  holds moment := moment.Underway start
  whereabouts := .unknown
  blames depth _ := Failure.ListsOnlyIf names (names.length ≤ depth)
  settled depth _ := Failure.ListsOnlyIf names (names.length ≤ depth)
  complete depth failure :=
    failure.ListsOnlyIf names (names.length < depth) ∧ failure.report.isSome
  spentExpression _ := trivial
  spentBody _ := trivial
  endless _ := trivial
  operand _ _ := trivial
  calling _ := trivial
  named _ := trivial
  part _ _ := trivial
  nested h _ hbody _ := State.mem_statements_of_body h hbody
  declaring _ _ := trivial
  opened _ h _ := h
  inits _ _ h section' hsection _ :=
    State.mem_statements_of_body h (by simp [Statement.bodies, Option.mem_def.1 hsection])
  called h _ _ hbody := h.bodies.block Block.Runs.missing _ _ _ hbody
  step h move _ _ := h.move move fun _ _ hruns => hruns.elim fun _ hstatement => hstatement
  enter _ opens h := h.enter opens
  raise _ := .ofCause _
  haltExpression _ _ _ := .stop
  haltFrame _ _ _ := .stop
  place h _ := h.place _
  mark h _ _ := h.place _
  settle h _ := h.place _
  attach {_ pending self _ state failure _} h _ ended h' hsettled := by
    refine ⟨?_, Failure.isSome_report_attach _ _⟩
    have hfew : (failure.attach fun _ => state.report self).ListsOnlyIf names
        (names.length ≤ frames pending) := hsettled.attach fun hlisted => h'.length_le hlisted
    have hother := executeUnder_failing h.manned.alone ended
    rw [h.depth] at hother
    exact (hfew.and hother).mono fun hnames => lt_of_le_of_ne hnames.1 hnames.2
  reported h := h.2
  pass h := h.1.mono Nat.le_of_lt_succ
  refuse h _ _ _ := by
    exact (Failure.ListsOnlyIf.ofCause _).attach fun hlisted => h.length_le hlisted

/-- What the watch does not stop in the run of a main program fails with the report of other
frames. -/
theorem State.Idle.runMain_tracing {start : State} (idle : start.Idle) {self : EngineId}
    (manned : Moment.Manned ⟨[], self, start⟩) {names : List String} (some : names ≠ [])
    (bound : Nat) :
    (Bir.runMain (executeUnder (Watch.failing names) bound) self start).Ends (fun _ _ => True)
      fun failure _ => failure.ListsOnlyIf names False ∧ failure.report.isSome := by
  let R := Regimen.tracing names start
  have hprogram : R.body bound 1 self (start.engine self).program.statements :=
    fun _ => State.mem_statements_of_program
  have hstart : R.holds ⟨[], self, start⟩ := .start_of_idle idle manned
  have hmain := R.runMain_completes hstart hprogram
  refine hmain.ends.mono (fun _ _ _ => trivial) ?_
  rintro failure after ⟨-, hlists, hreported⟩
  exact ⟨hlists.mono fun hnone => some (List.length_eq_zero_iff.1 (Nat.lt_one_iff.1 hnone)),
    hreported⟩

/-! ## Whole runs -/

/-- Where no program runs, a report lists nothing. -/
theorem State.Idle.eq_nil_of_listed {state : State} (idle : state.Idle) {pending : List Bracket}
    {self : EngineId} (manned : Moment.Manned ⟨pending, self, state⟩) {names : List String}
    (listed : names <+: (state.report self).callStack) : names = [] := by
  have hlength := (Moment.Underway.start_of_idle idle manned.alone).length_le listed
  exact List.length_eq_zero_iff.1 (Nat.le_zero.1 hlength)

/-- Where sources are loaded, no frame is active. -/
def LoadDiscipline.tracing {names : List String} (some : names ≠ []) :
    LoadDiscipline (Watch.failing names) where
  holds moment := moment.state.Idle ∧ moment.Manned
  reports failure _ := failure.ListsOnlyIf names False ∧ failure.report.isSome
  main bound h := by
    have htraced := h.1.runMain_tracing h.2.alone some bound
    exact ((h.1.runMain_rests h.2 _ bound).and htraced).mono (fun _ _ h' => h'.1) fun _ _ h' => h'
  halt _ hstops := by cases hstops
  loadMove := Moment.idle_loadMove
  unread h _ := ⟨((Failure.ListsOnlyIf.ofCause _).place _).attach fun hlisted =>
    some (h.1.eq_nil_of_listed h.2 hlisted), Failure.isSome_report_attach _ _⟩
  missing h _ _ := ⟨((Failure.ListsOnlyIf.ofCause _).place _).attach fun hlisted =>
    some (h.1.eq_nil_of_listed h.2 hlisted), Failure.isSome_report_attach _ _⟩
  returned h := by
    rw [Failure.attach_of_report (by simpa using h.2)]
    exact ⟨(h.1.ofModule _).place _, by simpa using h.2⟩
  passed h := by
    rw [Failure.attach_of_report (by simpa using h.2)]
    exact ⟨h.1.place _, by simpa using h.2⟩
  still h _ := h

/-- If a step fails and its report begins with certain frames, then it has come to a frame whose
statements fail and where exactly these frames are active. -/
theorem Script.exists_failing_frame {state after : State} (idle : state.Idle)
    (manned : Moment.Manned ⟨[], main, state⟩) {bound : Nat} {step : Step} {failure : Failure}
    (ended : perform bound step state = .failed failure after) {names : List String}
    (lists : failure.Lists names) (some : names ≠ []) :
    ∃ self statements point, Meets bound step state self (.frame statements) point ∧
      point.Fails self statements ∧ point.active self = names := by
  cases hstopped : (performUnder (Watch.failing names) bound step state).isStopped with
  | true =>
      obtain ⟨self, code, point, hfound, hmeets⟩ := exists_meets idle.sound hstopped
      obtain ⟨statements, rfl, hfails⟩ := Watch.failing_frame hfound
      exact ⟨self, statements, point, hmeets, hfails⟩
  | false =>
      have hstep := (LoadDiscipline.tracing some).performs bound step state ⟨idle, manned⟩
      rw [performUnder_eq hstopped, ended] at hstep
      have hsilent := idle.sound.isStopped_perform bound step
      rcases hstep.2.1 with hcause | hother
      · simp [ended, Outcome.isStopped, hcause] at hsilent
      · exact (hother lists).elim

end Bir
