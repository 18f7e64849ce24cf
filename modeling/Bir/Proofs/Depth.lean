import Bir.Proofs.Rest
import Bir.Proofs.Regimen.Evaluation

/-!
# Depth — the call stack does not outgrow its limit by much

Only calls ask whether there is room for a frame.  Below a call, branches and loops push frames
unasked, but no more than their bodies are nested, and a call that they come to is refused.  So the
limit is exceeded by the nesting of bodies at most, in every state of a run and in every report of a
failure.  This file defines:

* `Outcome.Overflows` and `State.RefusesCalls` — no call is entered;
* `State.CallsBounded` — what the limit grants the call stack of an engine;
* `Regimen.deep` — how deep frames may be when a statement with nested bodies is run.
-/

namespace Bir

/-! ## Full call stacks -/

/-- A call is refused, and the attempt leaves the stacks as they are. -/
def Outcome.Overflows {α : Type} (limit : Nat) (start : State) (outcome : Outcome α) : Prop :=
  outcome.Within False (fun _ _ => False) fun failure after =>
    failure.cause = .callStackOverflow limit ∧ after.engines = start.engines

/-- No block and no `init` section is run, whatever its statements are. -/
structure State.RefusesCalls (state : State) (id : EngineId) (limit : Nat) : Prop where
  route : ∀ run found called verbs arguments,
    (Call.route run id found called verbs arguments state).Overflows limit state
  runInit : ∀ run ref name section',
    (Declaration.runInit run id ref name (some section') state).Overflows limit state

/-- What the limit grants the call stack of an engine.  A state with the same engines is one in
which verbs, arguments or other statements of the same frame have been evaluated. -/
structure State.CallsBounded (state : State) (id : EngineId) : Prop where
  limit : (state.callStack id).limit = some state.config.callLimit
  depth : (state.callStack id).depth ≤ max state.config.callLimit 1 + state.nesting
  calls : (state.callStack id).calls ≤ state.config.callLimit
  refuses : state.config.callLimit ≤ (state.callStack id).depth →
    ∀ state' : State, state'.engines = state.engines →
      state'.RefusesCalls id state.config.callLimit

section Full

open Bir.Action

variable {state : State} {self : EngineId} {limit : Nat}

theorem Action.inCallFrame_overflows {α : Type} {start : State}
    (full : (state.callStack self).exceeded? = some limit) (same : state.engines = start.engines)
    (name : String) (action : Action α) :
    (inCallFrame self name action state).Overflows limit start := by
  simpa [inCallFrame, full] using ⟨rfl, same⟩

/-- What is pushed for a call that is refused is popped again. -/
theorem Action.withScope_overflows {α : Type} {action : Action α} {scope : ScopeId}
    (h : (action (state.pushScope self scope)).Overflows limit (state.pushScope self scope)) :
    (withScope self scope action state).Overflows limit state := by
  apply within_withScope
  refine h.mono (fun _ _ hnever => hnever) ?_
  rintro failure after ⟨hcause, hengines⟩
  exact ⟨hcause, State.engines_popScope hengines⟩

/-- A block is not run by an engine whose call stack is full. -/
theorem Call.invoke_overflows (full : (state.callStack self).exceeded? = some limit)
    (run : Runner) (ref : BlockRef) (called : String) (verbs arguments : List Int64) :
    (Call.invoke run self ref called verbs arguments state).Overflows limit state := by
  unfold Call.invoke
  cases hbody : (state.graph.block ref).body with
  | native =>
      simp only [hbody]
      exact inCallFrame_overflows full rfl called _
  | interpreted init program =>
      simp only [hbody]
      refine withScope_overflows (inCallFrame_overflows ?_ rfl called _)
      rw [State.callStack_pushScope]
      exact full

theorem State.refusesCalls (exist : state.UsesExist)
    (full : (state.callStack self).exceeded? = some limit) : state.RefusesCalls self limit where
  route run found called verbs arguments := by
    unfold Call.route
    split
    · rename_i hlent
      -- The owner is refused on the call stack of the caller, which gets it back.
      have hother := State.owner_ne_of_isLent hlent
      have hexists := exist.lt_of_isLent hlent
      have hfull : ((Loan.take self (state.graph.block found.block).owner state).2.callStack
          (state.graph.block found.block).owner).exceeded? = some limit := by
        rw [State.callStack, Loan.engine_take_owner hother hexists]
        exact full
      apply within_lending
      refine (Call.invoke_overflows hfull run found.block called verbs arguments).mono
        (fun _ _ hnever => hnever) ?_
      rintro failure after ⟨hcause, hengines⟩
      refine ⟨by rw [Failure.cause_attach, hcause], ?_⟩
      rw [Loan.engines_giveBack_congr hengines, (Loan.giveBack_take hother hexists).engines]
    · exact Call.invoke_overflows full run found.block called verbs arguments
  runInit run ref name section' := by
    apply within_bind
    change ((do
      let _ ← withScope self state.graph.scopes.size
        (inCallFrame self (Declaration.initFrame name) (reporting self (run self section')))
      return some state.graph.scopes.size : Action (Option ScopeId))
        (state.attachStore self ref)).Within _ _ _
    apply within_bind
    have hinit : (withScope self state.graph.scopes.size
        (inCallFrame self (Declaration.initFrame name) (reporting self (run self section')))
          (state.attachStore self ref)).Overflows limit (state.attachStore self ref) := by
      refine withScope_overflows (inCallFrame_overflows ?_ rfl _ _)
      rw [State.callStack_pushScope]
      exact full
    exact hinit.mono (fun _ _ hnever => hnever.elim) fun _ _ hfailed => hfailed

end Full

/-! ## Failures with short reports -/

/-- A report of the failure, if there is one, has no more frames than a bound. -/
def Failure.Short (bound : Nat) (failure : Failure) : Prop :=
  ∀ report ∈ failure.report, report.callStack.length ≤ bound

/-- A failure that leaves an engine has a short report, unless the run was stopped. -/
def Failure.ShortlyReported (bound : Nat) (failure : Failure) : Prop :=
  failure.cause = Watch.stopCause ∨ failure.report.isSome ∧ failure.Short bound

namespace Failure

variable {bound : Nat} {failure : Failure}

theorem Short.ofCause (cause : Cause) : Short bound (.ofCause cause) := by
  intro report hreport
  cases hreport

theorem Short.place (h : failure.Short bound) (position : Position) :
    (failure.place position).Short bound := by
  unfold Short
  rw [report_place]
  exact h

/-- A report that is attached is short if the call stack that it is made of is. -/
theorem Short.attach (h : failure.Short bound) {report : Unit → Report}
    (short : (report ()).callStack.length ≤ bound) : (failure.attach report).Short bound := by
  intro attached hattached
  cases hreport : failure.report with
  | none =>
      rw [report_attach hreport] at hattached
      cases hattached
      exact short
  | some first =>
      rw [attach_of_report (by simp [hreport])] at hattached
      exact h attached hattached

/-- What has a report takes no other. -/
theorem ShortlyReported.passed (h : failure.ShortlyReported bound) (position : Position)
    (report : Unit → Report) : ((failure.place position).attach report).ShortlyReported bound := by
  rcases h with hstopped | ⟨hsome, hshort⟩
  · exact Or.inl (by simpa using hstopped)
  · rw [attach_of_report (by simpa using hsome)]
    exact Or.inr ⟨by simpa using hsome, hshort.place position⟩

theorem ShortlyReported.ofModule (h : failure.ShortlyReported bound) (name : String) :
    (Loading.ofModule name failure).ShortlyReported bound := by
  rcases h with hstopped | hreported
  · rw [ofModule_of_stopped hstopped]
    exact Or.inl hstopped
  · unfold Loading.ofModule
    split
    · exact Or.inr hreported
    · exact Or.inr hreported

end Failure

/-! ## Main programs -/

/-- How many frames there may be while a main program runs that was started in a state. -/
def State.deepest (start : State) : Nat := max start.config.callLimit 1 + start.nesting

theorem Moment.Underway.callsBounded {start : State} {moment : Moment}
    (h : moment.Underway start) (shallow : frames moment.pending ≤ start.deepest) :
    moment.state.CallsBounded moment.self where
  limit := by rw [h.limit, h.config]
  depth := by
    rw [h.depth, h.config, h.same.nesting]
    exact shallow
  calls := by
    rw [h.config]
    exact h.calls
  refuses full state' same := by
    refine State.refusesCalls ((State.SameUses.of_engines same).usesExist h.manned.uses) ?_
    rw [State.callStack_congr same]
    exact CallStack.exceeded_of_le (by rw [h.limit, h.config]) full

/-- The frame that a main program or a call has entered leaves room for the bodies that are nested
in it. -/
theorem State.deepest_fits {start : State} {statements : List Statement} {depth : Nat}
    (within : ∀ statement ∈ statements, statement ∈ start.statements)
    (room : depth ≤ max start.config.callLimit 1) :
    depth ≤ start.deepest ∧ ∀ statement ∈ statements,
      statement ∈ start.statements ∧ depth + statement.nesting ≤ start.deepest := by
  refine ⟨room.trans (Nat.le_add_right _ _), fun statement hmem => ?_⟩
  exact ⟨within statement hmem, Nat.add_le_add room (nesting_le (within statement hmem))⟩

theorem Moment.Underway.room {start : State} {moment : Moment} (h : moment.Underway start)
    (room : (moment.state.callStack moment.self).exceeded? = none) :
    frames moment.pending + 1 ≤ max start.config.callLimit 1 := by
  have hroom := CallStack.depth_lt_of_room h.limit room
  rw [h.depth] at hroom
  exact le_max_of_le_left hroom

/-- A watch finds call stacks that are bounded, and only under a condition. -/
def Watch.FindsOnlyIf (watch : Watch) (condition : Prop) : Prop :=
  ∀ self code state, state.CallsBounded self → watch self code state = true → condition

/-- How deep frames may be: as many more may be entered as the bodies of a statement are nested. -/
def Regimen.deep {watch : Watch} {condition : Prop} (finds : watch.FindsOnlyIf condition)
    (start : State) : Regimen watch where
  cut := True
  ready _ depth := depth ≤ start.deepest
  callable _ := True
  expression _ depth _ _ := depth ≤ start.deepest
  statement _ depth _ statement :=
    statement ∈ start.statements ∧ depth + statement.nesting ≤ start.deepest
  body _ depth _ statements := depth ≤ start.deepest ∧ ∀ statement ∈ statements,
    statement ∈ start.statements ∧ depth + statement.nesting ≤ start.deepest
  holds moment := moment.Underway start
  whereabouts := .unknown
  blames _ _ failure := failure.StopsOnlyIf condition ∧ failure.Short start.deepest
  settled _ _ failure := failure.StopsOnlyIf condition ∧ failure.Short start.deepest
  complete _ failure := (failure.StopsOnlyIf condition ∧ failure.Short start.deepest) ∧
    failure.report.isSome
  spentExpression _ := trivial
  spentBody _ := trivial
  endless _ := trivial
  operand h _ := h
  calling h := h
  named _ := trivial
  part h _ := (Nat.le_add_right _ _).trans h.2
  nested h runs hbody := by
    obtain ⟨hone, hfewer⟩ := Statement.nesting_of_body runs hbody
    have hfits := h.2
    refine ⟨by omega, fun first hfirst => ?_⟩
    have hfirst' := hfewer first hfirst
    exact ⟨State.mem_statements_of_body h.1 hbody hfirst, by omega⟩
  declaring h _ := (Nat.le_add_right _ _).trans h.2
  opened _ h _ := h.2
  inits h room hstatement section' hsection := by
    refine State.deepest_fits (fun first hfirst => ?_) (h.room room)
    refine State.mem_statements_of_body hstatement.1 ?_ hfirst
    simp [Statement.bodies, Option.mem_def.1 hsection]
  called h room _ hbody := by
    obtain ⟨hprogram, hinit⟩ := h.bodies.block Block.Runs.missing _ _ _ hbody
    exact ⟨State.deepest_fits hprogram (h.room room), fun section' hsection =>
      State.deepest_fits (hinit section' hsection) (h.room room)⟩
  step h move _ _ := h.move move fun _ _ hruns => hruns.elim fun _ hstatement => hstatement.1
  enter _ opens h := h.enter opens
  raise natural := ⟨.ofCause (Failure.Cause.ne_console natural), .ofCause _⟩
  haltExpression h shallow hstops := ⟨.stop (finds _ _ _ (h.callsBounded shallow) hstops),
    .ofCause _⟩
  haltFrame h hbody hstops := ⟨.stop (finds _ _ _ (h.callsBounded hbody.1) hstops), .ofCause _⟩
  place h _ := ⟨h.1.place _, h.2.place _⟩
  mark h _ _ := ⟨h.1.place _, h.2.place _⟩
  settle h _ := ⟨h.1.place _, h.2.place _⟩
  attach _ hbody _ h hsettled := by
    refine ⟨⟨hsettled.1.attach _, hsettled.2.attach ?_⟩, Failure.isSome_report_attach _ _⟩
    rw [State.report, CallStack.length_outermostFirst]
    exact h.depth.trans_le hbody.1
  reported h := h.2
  pass h := h.1
  refuse h ready _ hrefusal := by
    refine ⟨(Failure.StopsOnlyIf.refusal hrefusal).attach _, (Failure.Short.ofCause _).attach ?_⟩
    rw [State.report, CallStack.length_outermostFirst]
    exact h.depth.trans_le ready

/-- The run of a main program fails with short reports, and a watch finds call stacks that are
bounded. -/
theorem State.Idle.runMain_short {start : State} (idle : start.Idle) {self : EngineId}
    (manned : Moment.Manned ⟨[], self, start⟩) {watch : Watch} {condition : Prop}
    (finds : watch.FindsOnlyIf condition) (bound : Nat) :
    (Bir.runMain (executeUnder watch bound) self start).Ends (fun _ _ => True)
      fun failure _ =>
        failure.StopsOnlyIf condition ∧ failure.ShortlyReported start.deepest := by
  let R := Regimen.deep finds start
  have hprogram : ∀ statement ∈ (start.engine self).program.statements,
      statement ∈ start.statements := fun _ => State.mem_statements_of_program
  have hstart : R.holds ⟨[], self, start⟩ := .start_of_idle idle manned
  have hbody : R.body bound 1 self (start.engine self).program.statements :=
    State.deepest_fits hprogram (Nat.le_max_right _ 1)
  have hmain := R.runMain_completes hstart hbody
  refine hmain.ends.mono (fun _ _ _ => trivial) ?_
  rintro failure after ⟨-, ⟨hstops, hshort⟩, hsome⟩
  exact ⟨hstops, Or.inr ⟨hsome, hshort⟩⟩

/-! ## Whole runs -/

/-- Where no program runs, a call stack is bounded as it is empty. -/
theorem State.Idle.callsBounded {state : State} (idle : state.Idle) {pending : List Bracket}
    {self : EngineId} (manned : Moment.Manned ⟨pending, self, state⟩) :
    state.CallsBounded self := by
  exact (Moment.Underway.start_of_idle idle manned.alone).callsBounded (Nat.zero_le _)

theorem State.Idle.length_callStack_report {state : State} (idle : state.Idle)
    {pending : List Bracket} {self : EngineId} (manned : Moment.Manned ⟨pending, self, state⟩)
    (bound : Nat) : (state.report self).callStack.length ≤ bound := by
  rw [State.report, CallStack.length_outermostFirst]
  have hempty := idle.callStacks self manned.self
  rw [State.callStack] at hempty
  rw [hempty]
  exact Nat.zero_le _

/-- Reports are short also where sources are loaded. -/
def LoadDiscipline.deep {watch : Watch} {condition : Prop} (finds : watch.FindsOnlyIf condition)
    (config : Config) : LoadDiscipline watch where
  holds moment := (moment.state.Idle ∧ moment.Manned) ∧ moment.state.config = config
  reports failure state := failure.StopsOnlyIf condition ∧
    failure.ShortlyReported (max config.callLimit 1 + state.nesting)
  main {pending self state _} bound h := by
    obtain ⟨⟨hidle, hmanned⟩, rfl⟩ := h
    have hshort := hidle.runMain_short hmanned.alone finds bound
    have hsame := hidle.runMain hmanned.uses watch bound self
    refine (hsame.and hshort).mono ?_ ?_
    · rintro _ after ⟨⟨hafter, hundisturbed⟩, -⟩
      have hmanned' := hmanned.of_sameUses (.of_engines hundisturbed.engines) fun _ => .inl
      exact ⟨⟨hafter, hmanned'⟩, hundisturbed.config⟩
    · rintro failure after ⟨⟨hafter, hundisturbed⟩, hfailure⟩
      have hmanned' := hmanned.of_sameUses (.of_engines hundisturbed.engines) fun _ => .inl
      refine ⟨⟨⟨hafter, hmanned'⟩, hundisturbed.config⟩, ?_⟩
      rw [(State.SameModules.of_engines hundisturbed.engines).nesting]
      exact hfailure
  halt h hstops := ⟨.stop (finds _ _ _ (h.1.1.callsBounded h.1.2) hstops), Or.inl rfl⟩
  loadMove h move := ⟨⟨h.1.1.loadMove move, h.1.2.loadMove move⟩, move.config.trans h.2⟩
  unread h _ := ⟨(Failure.StopsOnlyIf.ofSyntaxError _).attach _,
    Or.inr ⟨Failure.isSome_report_attach _ _, ((Failure.Short.ofCause _).place _).attach
      (h.1.1.length_callStack_report h.1.2 _)⟩⟩
  missing h _ natural := ⟨.missing natural,
    Or.inr ⟨Failure.isSome_report_attach _ _, ((Failure.Short.ofCause _).place _).attach
      (h.1.1.length_callStack_report h.1.2 _)⟩⟩
  returned h := ⟨h.1.returned, (h.2.ofModule _).passed _ _⟩
  passed h := ⟨h.1.passed, h.2.passed _ _⟩
  still h hengines := by
    rw [(State.SameModules.of_engines hengines).nesting]
    exact h

/-! ## The result -/

/-- Between the steps of a script and wherever a step comes to, the call stack of the engine in
control is bounded; and if a step fails, the call stack in its report is no longer than that. -/
theorem call_depth_is_bounded {state : State} (rest : state.AtRest) (bound : Nat)
    (step : Script.Step) :
    state.CallsBounded Script.main ∧
    (∀ self code point, Script.Meets bound step state self code point →
      point.CallsBounded self) ∧
    ∀ failure after, Script.perform bound step state = .failed failure after →
      ∀ report ∈ failure.report,
        report.callStack.length ≤ max after.config.callLimit 1 + after.nesting := by
  obtain ⟨hidle, hmanned⟩ := rest.idle
  refine ⟨hidle.callsBounded hmanned, ?_, ?_⟩
  · intro self code point meets
    have hfinds : (Watch.point self code point).FindsOnlyIf (point.CallsBounded self) := by
      intro self' code' state' hbounded hfound
      simp only [Watch.point, decide_eq_true_eq] at hfound
      obtain ⟨rfl, -, rfl⟩ := hfound
      exact hbounded
    have hstep := (LoadDiscipline.deep hfinds state.config).performs bound step state
      ⟨⟨hidle, hmanned⟩, rfl⟩
    obtain ⟨failure, after, ⟨-, hstops, -⟩, hstopped⟩ := hstep.of_isStopped meets
    exact hstops hstopped
  · intro failure after hended report hreport
    have hfinds : Watch.silent.FindsOnlyIf False := by
      intro self code state' _ hfound
      cases hfound
    have hstep := (LoadDiscipline.deep hfinds state.config).performs bound step state
      ⟨⟨hidle, hmanned⟩, rfl⟩
    rw [Script.performUnder_silent, hended] at hstep
    obtain ⟨⟨-, hconfig⟩, hstops, hreported⟩ := hstep
    rcases hreported with hstopped | ⟨-, hshort⟩
    · exact (hstops hstopped).elim
    · rw [hconfig]
      exact hshort report hreport

/-- A block that calls itself from a branch, as an instance: at a limit of two frames the call is
refused in the branch of the block, with as many frames as there may be. -/
theorem call_depth_is_bounded_of_recursion :
    ∃ state after : State, ∃ failure : Failure, ∃ report ∈ failure.report, state.AtRest ∧
      Script.perform 20 .run state = .failed failure after ∧
      failure.cause = .callStackOverflow 2 ∧ report.callStack = ["<main>", "deep", "<if>"] ∧
      after.nesting = 1 ∧ report.callStack.length ≤ max after.config.callLimit 1 + after.nesting := by
  let start := State.initial { callLimit := 2 } {} (.prepared []) "main.bir"
    "deep[] { if 1 { deep() } }\ndeep()"
  have hloads : ((Script.perform 20 .load start).state?).isSome = true := by decide +kernel
  obtain ⟨state, hstate⟩ := Option.isSome_iff_exists.1 hloads
  have hrest : state.AtRest := .performed (.initial ..) hstate
  have hfails : ((Script.perform 20 .load start).state?.map fun state =>
      ((Script.perform 20 .run state).failure?.map fun failure =>
          (failure.cause, failure.report.map fun report => report.callStack),
        (Script.perform 20 .run state).state?.map State.nesting)) =
      some (some (.callStackOverflow 2, some ["<main>", "deep", "<if>"]), some 1) := by
    decide +kernel
  rw [hstate, Option.map_some, Option.some_inj, Prod.mk.injEq, Option.map_eq_some_iff,
    Option.map_eq_some_iff] at hfails
  obtain ⟨⟨failure, hfailure, hknown⟩, after, hafter, hnesting⟩ := hfails
  obtain ⟨after', hended⟩ := Outcome.eq_failed_of_failure? hfailure
  rw [hended] at hafter
  cases hafter
  obtain ⟨hcause, hreported⟩ := Prod.mk.inj hknown
  obtain ⟨report, hreport, hframes⟩ := Option.map_eq_some_iff.1 hreported
  have hbounded := (call_depth_is_bounded hrest 20 .run).2.2 failure after hended report hreport
  exact ⟨state, after, failure, report, hreport, hrest, hended, hcause, hframes, hnesting, hbounded⟩

end Bir
