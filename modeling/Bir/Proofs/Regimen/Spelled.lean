import Bir.Proofs.Discipline.Invariant
import Bir.Proofs.Exits.Stages

/-!
# Spelled code — what holds along the runs of what a source can spell

Sources are loaded where no program runs, and their main programs run blocks that were declared in
sources.  So all code of a run can be spelled, and an invariant has to be shown for such code alone.
This file defines:

* `FrameSpelled` — the frames of a run;
* `Regimen.ofSpelled` — an invariant of evaluation as a regimen;
* `LoadDiscipline.ofSpelled` — an invariant of whole runs, which are idle between main programs.
-/

namespace Bir

open Failure

/-- The statements of a frame can be spelled. -/
abbrev FrameSpelled (statements : List Statement) : Prop :=
  ∀ statement ∈ statements, statement.Throughout Law.spelled

variable (watch : Watch)

/-- An invariant of evaluation, under a watch that finds only what meets a condition.  If it is
`strict`, it tells where code is run, and for which blocks frames are entered. -/
def Regimen.ofSpelled (condition strict : Prop) (passes : Moment → Prop)
    (finds : ∀ {pending self state}, passes ⟨pending, self, state⟩ → (strict → Running pending) →
      ∀ code, code.Fits FrameSpelled pending → watch self code state = true → condition)
    (blocks : ∀ {moment}, passes moment →
      moment.state.graph.EveryBlock (Block.Runs (Statement.Throughout Law.spelled)))
    (step : ∀ {moment moment'}, passes moment →
      Move (fun _ statement => statement.Throughout Law.spelled) moment moment' →
      ¬ moment.Enters moment' → (strict → Running moment.pending ∨ moment.Withdraws moment') →
      passes moment')
    (enter : ∀ {moment} {activation : Activation}, activation.Begins strict moment →
      activation.frame.Opens Spelled moment → passes moment → passes (moment.enter activation.frame))
    (keeps : strict → ∀ {pending self} {state : State}, passes ⟨pending, self, state⟩ →
      ∀ bound expression, (evaluateUnder watch bound self expression state).Leaves fun after =>
        ∀ name, after.callee? self name = state.callee? self name)
    (lends : strict → ∀ {pending self} {state : State} {found : FoundBlock},
      passes ⟨pending, self, state⟩ → Call.isLent state self found = true →
      let owner := (state.graph.block found.block).owner
      ∀ name, (Action.Loan.take self owner state).2.callee? owner name = state.callee? self name) :
    Regimen watch where
  cut := True
  ready _ _ := True
  callable := Spelled
  expression _ _ _ expression := expression.Throughout Law.spelled
  statement _ _ _ statement := statement.Throughout Law.spelled
  body _ _ _ statements := ∀ statement ∈ statements, statement.Throughout Law.spelled
  holds moment := passes moment ∧ (strict → Running moment.pending)
  whereabouts :=
    { strict, passes
      holds_iff := Iff.rfl
      keeps := fun hstrict _ _ _ _ _ h _ => keeps hstrict h.1 _ _
      lends := fun hstrict _ _ _ _ h => lends hstrict h.1 }
  blames _ _ := StopsOnlyIf condition
  settled _ _ := StopsOnlyIf condition
  complete _ failure := failure.StopsOnlyIf condition ∧ failure.report.isSome
  spentExpression _ := trivial
  spentBody _ := trivial
  endless _ := trivial
  operand h := h.operand
  calling _ := trivial
  named h := by
    cases h with
    | intro names _ _ => exact (names _ List.mem_cons_self).1
  part h := h.expression
  nested h _ := h.body
  declaring _ _ := trivial
  opened _ h _ := h
  inits _ _ h section' hsection :=
    h.body (by simp [Statement.bodies, Option.mem_def.1 hsection])
  called h _ _ := (blocks h.1).block Block.Runs.missing _ _ _
  step h move := step h (move.mono fun _ _ ⟨_, hstatement⟩ => hstatement)
  enter := enter
  raise natural := .ofCause (Cause.ne_console natural)
  haltExpression h _ hfound := .stop (finds h.1 h.2 (.expression _) trivial hfound)
  haltFrame {_ _ _ _ _ framed} h hbody hfound :=
    .stop (finds h.1 h.2 (.frame _) ⟨framed, hbody⟩ hfound)
  place h _ := h.place _
  mark h _ _ := h.place _
  settle h _ := h.place _
  attach _ _ _ _ h := ⟨h.attach _, Failure.isSome_report_attach _ _⟩
  reported h := h.2
  pass h := h.1
  refuse _ _ _ hrefusal := (StopsOnlyIf.refusal hrefusal).attach _

/-- An invariant of whole runs, under a watch that finds only what meets a condition. -/
def LoadDiscipline.ofSpelled (condition : Prop) (comes : Moment → Prop)
    (main : ∀ {pending self} {state : State} [Framed pending] bound, comes ⟨pending, self, state⟩ →
      (∀ statement ∈ (state.engine self).program.statements, statement.Throughout Law.spelled) →
      (runMain (executeUnder watch bound) self state).Ends
        (fun _ after => comes ⟨pending, self, after⟩)
        (fun failure after => comes ⟨pending, self, after⟩ ∧ failure.StopsOnlyIf condition))
    (halt : ∀ {pending self state}, comes ⟨pending, self, state⟩ → watch self .source state = true →
      condition)
    (loadMove : ∀ {moment moment'}, comes moment → LoadMove moment moment' → comes moment') :
    LoadDiscipline watch where
  holds moment := (moment.state.Idle ∧ moment.Manned) ∧ comes moment
  reports failure _ := failure.StopsOnlyIf condition
  main {pending self state _} bound h := by
    obtain ⟨⟨hidle, hmanned⟩, hcomes⟩ := h
    have hprogram : ∀ statement ∈ (state.engine self).program.statements,
        statement.Throughout Law.spelled :=
      fun _ hmem => hidle.statements_spelled (State.mem_statements_of_program hmem)
    refine ((hidle.runMain_rests hmanned watch bound).and (main bound hcomes hprogram)).mono ?_ ?_
    · exact fun _ after h' => h'
    · rintro failure after ⟨hrest, hcomes', hstops⟩
      exact ⟨⟨hrest, hcomes'⟩, hstops⟩
  halt h hfound := .stop (halt h.2 hfound)
  loadMove h move := ⟨Moment.idle_loadMove h.1 move, loadMove h.2 move⟩
  unread _ _ := (StopsOnlyIf.ofSyntaxError _).attach _
  missing _ _ natural := .missing natural
  returned h := h.returned
  passed h := h.passed
  still h _ := h

end Bir
