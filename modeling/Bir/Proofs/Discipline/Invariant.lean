import Bir.Proofs.Discipline.Loading
import Bir.Proofs.Sound

/-!
# Invariants — disciplines of states alone

An invariant that every move keeps, whatever the code, is a discipline.  Its failures tell one
thing: whether the watch has stopped the run.  This file defines:

* `Failure.StopsOnlyIf` — a failure is that of a stopped run only under a condition;
* `Rule` — what may be run;
* `Discipline.ofInvariant` and `LoadDiscipline.ofInvariant`, the latter for sound code;
* `State.EvaluationsLeave` — what holds when an engine has evaluated something, whatever it is.
-/

namespace Bir

namespace Failure

/-! ## Stopped runs -/

/-- An importer passes the failure of a stopped run on as it is. -/
theorem ofModule_of_stopped {failure : Failure} (h : failure.cause = Watch.stopCause)
    (name : String) : Loading.ofModule name failure = failure := by
  unfold Loading.ofModule
  rw [h]
  rfl

/-- A failure is that of a stopped run only under a condition. -/
def StopsOnlyIf (condition : Prop) (failure : Failure) : Prop :=
  failure.cause = Watch.stopCause → condition

namespace StopsOnlyIf

variable {condition : Prop} {failure : Failure}

theorem stop (h : condition) : StopsOnlyIf condition Watch.stop := fun _ => h

theorem ofCause {cause : Cause} (natural : ∀ reason, cause ≠ .console reason) :
    StopsOnlyIf condition (.ofCause cause) := by
  intro h
  exact absurd h (natural _)

theorem place (h : StopsOnlyIf condition failure) (position : Position) :
    StopsOnlyIf condition (failure.place position) := by
  intro hcause
  exact h (by simpa using hcause)

theorem attach (h : StopsOnlyIf condition failure) (report : Unit → Report) :
    StopsOnlyIf condition (failure.attach report) := by
  intro hcause
  exact h (by simpa using hcause)

theorem refusal {cause : Cause} (h : cause.IsRefusal) :
    StopsOnlyIf condition (.ofCause cause) := by
  apply ofCause
  rintro reason rfl
  rcases h with ⟨limit, h⟩ | ⟨mismatches, h⟩ <;> cases h

theorem ofSyntaxError (error : SyntaxError) :
    StopsOnlyIf condition (.ofSyntaxError error) :=
  place (ofCause (by simp)) error.position

theorem ofModule (h : StopsOnlyIf condition failure) (name : String) :
    StopsOnlyIf condition (Loading.ofModule name failure) := by
  unfold Loading.ofModule
  split
  · intro hcause
    cases hcause
  · exact h

variable {position : Position} {report : Unit → Report}

/-- A module is not found, or its text is no program. -/
theorem missing {cause : Cause} (natural : ∀ reason, cause ≠ .console reason) :
    StopsOnlyIf condition (((Failure.ofCause cause).place position).attach report) :=
  ((StopsOnlyIf.ofCause natural).place position).attach report

/-- A failure leaves a step that loads sources. -/
theorem passed (h : StopsOnlyIf condition failure) :
    StopsOnlyIf condition ((failure.place position).attach report) :=
  (h.place position).attach report

/-- A failure leaves a module for its importer. -/
theorem returned (h : StopsOnlyIf condition failure) {name : String} :
    StopsOnlyIf condition (((Loading.ofModule name failure).place position).attach report) :=
  (h.ofModule name).passed

end StopsOnlyIf

end Failure

/-! ## Rules -/

/-- What may be run: a property of expressions and statements that is handed on to all parts. -/
structure Rule where
  expression : Expression → Prop
  statement : Statement → Prop
  operand : ∀ {expression' operand}, expression expression' → operand ∈ expression'.operands →
    expression operand
  part : ∀ {statement' part}, statement statement' → part ∈ statement'.expressions →
    expression part
  nested : ∀ {statement' nested}, statement statement' → nested ∈ statement'.bodies →
    ∀ inner ∈ nested, statement inner

/-- Anything may be run. -/
def Rule.any : Rule where
  expression _ := True
  statement _ := True
  operand _ _ := trivial
  part _ _ := trivial
  nested _ _ _ _ := trivial

/-- What is sound may be run. -/
def Rule.sound : Rule where
  expression expression := expression.Throughout Law.sound
  statement statement := statement.Sound
  operand h hmem := h.operand hmem
  part h hmem := h.expression hmem
  nested h hmem := h.body hmem

/-- Any expression may be evaluated, and the statements of blocks are sound. -/
def Rule.contained : Rule where
  expression _ := True
  statement statement := statement.Sound
  operand _ _ := trivial
  part _ _ := trivial
  nested h hmem := h.body hmem

/-! ## Invariants as disciplines -/

open Failure

variable (watch : Watch)

/-- An invariant of evaluation, under a watch that finds only what meets a condition. -/
def Discipline.ofInvariant (rule : Rule) (holds : Moment → Prop) (condition : Prop)
    (finds : ∀ {pending self state}, holds ⟨pending, self, state⟩ → ∀ code,
      code.Fits (fun statements => ∀ statement ∈ statements, rule.statement statement) pending →
      watch self code state = true → condition)
    (called : ∀ {pending self} {state : State} {ref : BlockRef} {init program},
      holds ⟨pending, self, state⟩ → (state.graph.block ref).body = .interpreted init program →
      (∀ statement ∈ program, rule.statement statement) ∧
        ∀ section' ∈ init, ∀ statement ∈ section', rule.statement statement)
    (move : ∀ {moment moment'}, holds moment →
      Move (fun _ statement => rule.statement statement) moment moment' → holds moment') :
    Discipline watch where
  expression _ := rule.expression
  statement _ := rule.statement
  body _ statements := ∀ statement ∈ statements, rule.statement statement
  holds := holds
  blames _ := StopsOnlyIf condition
  settled _ := StopsOnlyIf condition
  complete failure := StopsOnlyIf condition failure ∧ failure.report.isSome
  operand := rule.operand
  part := rule.part
  nested := rule.nested
  opened _ hbody _ := hbody
  called := called
  move := move
  raise natural := .ofCause (Cause.ne_console natural)
  halt h code hfits hstops := ⟨.stop (finds h code hfits hstops), .stop (finds h code hfits hstops)⟩
  place hblame _ := hblame.place _
  mark hblame _ _ := hblame.place _
  settle hblame _ := hblame.place _
  attach _ hsettled := ⟨hsettled.attach _, isSome_report_attach _ _⟩
  reported hcomplete := hcomplete.2
  pass hcomplete := hcomplete.1
  refuse _ _ hrefusal := (StopsOnlyIf.refusal hrefusal).attach _

/-- An invariant of whole runs, under a watch that finds only what meets a condition.  All code of
a run is sound. -/
def LoadDiscipline.ofInvariant (holds : Moment → Prop) (condition : Prop)
    (finds : ∀ {pending self state}, holds ⟨pending, self, state⟩ → state.Sound →
      ∀ code, code.Fits FrameSound pending → watch self code state = true → condition)
    (move : ∀ {moment moment'}, holds moment → moment.state.Sound →
      Move (fun _ statement => statement.Sound) moment moment' → holds moment')
    (loadMove : ∀ {moment moment'}, holds moment → moment.state.Sound → LoadMove moment moment' →
      holds moment') :
    LoadDiscipline watch where
  holds moment := holds moment ∧ moment.state.Sound
  reports failure _ := StopsOnlyIf condition failure
  main bound h := by
    let D := Discipline.ofInvariant watch .sound (fun moment => holds moment ∧ moment.state.Sound)
      condition (fun h => finds h.1 h.2) (fun h => h.2.block _ _ _)
      (fun h hmove => ⟨move h.1 h.2 hmove, hmove.sound h.2⟩)
    refine (D.runMain_completes bound (h.2.programs _) h).mono (fun _ _ h' => h') ?_
    rintro failure state' ⟨h', hcomplete⟩
    exact ⟨h', hcomplete.1⟩
  halt h hstops := .stop (finds h.1 h.2 .source trivial hstops)
  loadMove h hmove := ⟨loadMove h.1 h.2 hmove, hmove.sound h.2⟩
  unread _ _ := (StopsOnlyIf.ofSyntaxError _).attach _
  missing _ _ natural := .missing natural
  returned hreports := StopsOnlyIf.returned hreports
  passed hreports := StopsOnlyIf.passed hreports
  still hreports _ := hreports

/-! ## Evaluations from a state -/

/-- Whatever an engine evaluates from a state, an expression, a frame of statements or a call, it
leaves a state with a property, whether it ends in a value or in a failure. -/
def State.EvaluationsLeave (state : State) (self : EngineId) (holds : State → Prop) : Prop :=
  ∀ bound,
    (∀ expression, (evaluate bound self expression state).Leaves holds) ∧
    (∀ statements, (execute bound self statements state).Leaves holds) ∧
    ∀ name verbs arguments,
      (Call.block (evaluate bound) (execute bound) self name verbs arguments state).Leaves holds

namespace State.EvaluationsLeave

variable {state : State} {self : EngineId}

theorem mono {holds holds' : State → Prop} (h : state.EvaluationsLeave self holds)
    (weaker : ∀ after, holds after → holds' after) : state.EvaluationsLeave self holds' := by
  intro bound
  rcases h bound with ⟨hexpression, hstatements, hblock⟩
  refine ⟨fun expression => ?_, fun statements => ?_, fun name verbs arguments => ?_⟩
  · exact (hexpression expression).mono (fun _ => weaker) fun _ => weaker
  · exact (hstatements statements).mono (fun _ => weaker) fun _ => weaker
  · exact (hblock name verbs arguments).mono (fun _ => weaker) fun _ => weaker

/-- What every move keeps, whatever is run, holds when an evaluation is over. -/
theorem of_invariant {holds : Moment → Prop} (start : holds ⟨[], self, state⟩)
    (move : ∀ {moment moment'}, holds moment → Move (fun _ _ => True) moment moment' →
      holds moment') :
    state.EvaluationsLeave self fun after => holds ⟨[], self, after⟩ := by
  let D := Discipline.ofInvariant Watch.silent .any holds True (fun _ _ _ _ => trivial)
    (fun _ _ => ⟨fun _ _ => trivial, fun _ _ _ _ => trivial⟩) move
  intro bound
  have knot := D.regimen.knot_silent bound
  refine ⟨fun expression => ?_, fun statements => ?_, fun name verbs arguments => ?_⟩
  · exact (knot.evaluates trivial state start).ends.mono (fun _ _ h => h) fun _ _ h => h.1
  · exact (knot.runs (fun _ _ => trivial) state start).ends.mono (fun _ _ h => h) fun _ _ h => h.1
  · exact (knot.block trivial trivial (fun _ _ => trivial) state start).ends.mono (fun _ _ h => h)
      fun _ _ h => h.1

end State.EvaluationsLeave

end Bir
