import Bir.Proofs.Reachable
import Mathlib.Logic.Relation

/-!
# Courses — what runs come to, move by move

Every point that a run comes to is reached from its start by moves, and so is the state that it
leaves.  What a run goes on to from a point is reached from there.  This file defines:

* `Moment.Next` — one move of a run of sound code;
* `Moment.Leads` — moves in a row;
* `Moment.leading` — why evaluations go on by moves;
* `Moment.GoesOn` — statements that are run at a moment go on by moves.

`Moment.leads_of_perform`, `Moment.leads_of_meets`, `Moment.leads_of_statement` and
`Moment.leads_of_arguments` are what ties these to runs.
-/

namespace Bir

namespace Moment

/-- One change of a moment in a run of sound code. -/
inductive Next : Moment → Moment → Prop where
  | move {moment moment' : Moment}
      (move : Move (fun _ statement => statement.Sound) moment moment') : Next moment moment'
  | loadMove {moment moment' : Moment} (move : LoadMove moment moment') : Next moment moment'

/-- A run at a moment may come to another one. -/
abbrev Leads : Moment → Moment → Prop := Relation.ReflTransGen Next

variable {state : State}

/-- The state that a step of a script leaves is one that moves lead to. -/
theorem leads_of_perform (sound : state.Sound) (bound : Nat) (step : Script.Step) :
    (Script.perform bound step state).Leaves fun after =>
      Leads ⟨[], Script.main, state⟩ ⟨[], Script.main, after⟩ := by
  let D := LoadDiscipline.ofInvariant Watch.silent (Leads ⟨[], Script.main, state⟩) False
    (by simp [Watch.silent]) (fun hleads _ move => hleads.tail (.move move))
    (fun hleads _ move => hleads.tail (.loadMove move))
  have hstep := D.performs bound step state ⟨.refl, sound⟩
  rw [Script.performUnder_silent] at hstep
  exact hstep.mono (fun _ _ h => h.1) fun _ _ h => h.1.1

/-- A point that a step of a script comes to is one that moves lead to.  If a frame is run there, it
is run where statements are, and its statements are sound. -/
theorem leads_of_meets (sound : state.Sound) {bound : Nat} {step : Script.Step} {self : EngineId}
    {code : Code} {point : State} (meets : Script.Meets bound step state self code point) :
    ∃ pending, code.Fits FrameSound pending ∧
      Leads ⟨[], Script.main, state⟩ ⟨pending, self, point⟩ := by
  have hfinds : ∀ {pending self' point'},
      Leads ⟨[], Script.main, state⟩ ⟨pending, self', point'⟩ → point'.Sound →
        ∀ code', code'.Fits FrameSound pending →
          Watch.point self code point self' code' point' = true →
          ∃ pending, code.Fits FrameSound pending ∧
            Leads ⟨[], Script.main, state⟩ ⟨pending, self, point⟩ := by
    intro pending self' point' hleads _ code' hfits hpoint
    simp only [Watch.point, decide_eq_true_eq] at hpoint
    obtain ⟨rfl, rfl, rfl⟩ := hpoint
    exact ⟨pending, hfits, hleads⟩
  let D := LoadDiscipline.ofInvariant (Watch.point self code point)
    (Leads ⟨[], Script.main, state⟩) _ hfinds
    (fun hleads _ move => hleads.tail (.move move))
    (fun hleads _ move => hleads.tail (.loadMove move))
  have hstep := D.performs bound step state ⟨.refl, sound⟩
  obtain ⟨failure, after, ⟨-, hreported⟩, hstopped⟩ := hstep.of_isStopped meets
  exact hreported hstopped

/-- To be reached by moves, as a discipline of evaluation. -/
def leading (start : Moment) : Discipline Watch.silent :=
  .ofInvariant Watch.silent .contained (fun moment => start.Leads moment ∧ moment.state.Sound) True
    (fun _ _ _ _ => trivial) (fun h => h.2.block _ _ _)
    fun h move => ⟨h.1.tail (.move move), move.sound h.2⟩

/-- The state that a statement leaves is one that moves lead to. -/
theorem leads_of_statement {pending : List Bracket} [Framed pending] {self : EngineId}
    (sound : state.Sound) (bound turns : Nat) {statement : Statement} (allowed : statement.Sound) :
    (Evaluation.statement (evaluate bound) (execute bound) turns self statement state).Leaves
      fun after => Leads ⟨pending, self, state⟩ ⟨pending, self, after⟩ := by
  let D := leading ⟨pending, self, state⟩
  have hstatement : D.regimen.Keeps pending self
      (Evaluation.statement (evaluate bound) (execute bound) turns self statement) :=
    (D.regimen.knot_silent bound).statement allowed
  exact (hstatement state ⟨.refl, sound⟩).ends.mono (fun _ _ h => h.1) fun _ _ h => h.1.1

/-- Whatever statement the engine in control runs, moves lead to the state that it leaves. -/
def GoesOn (moment : Moment) : Prop :=
  ∀ bound turns statement, statement.Sound →
    (Evaluation.statement (evaluate bound) (execute bound) turns moment.self statement
      moment.state).Leaves fun after => moment.Leads ⟨moment.pending, moment.self, after⟩

theorem GoesOn.of_sound {moment : Moment} [framed : Framed moment.pending]
    (sound : moment.state.Sound) : moment.GoesOn :=
  fun bound turns _ hstatement => leads_of_statement sound bound turns hstatement

/-- The state that arguments leave is one that moves lead to, whatever the arguments are. -/
theorem leads_of_arguments {pending : List Bracket} {self : EngineId} (sound : state.Sound)
    (bound : Nat) (arguments : List Expression) :
    (Evaluator.all (evaluate bound) self arguments state).Leaves fun after =>
      Leads ⟨pending, self, state⟩ ⟨pending, self, after⟩ := by
  let D := leading ⟨pending, self, state⟩
  have hallowed : ∀ argument ∈ arguments, D.expression self argument := fun _ _ => trivial
  have harguments : D.regimen.Keeps pending self (Evaluator.all (evaluate bound) self arguments) :=
    (D.regimen.knot_silent bound).keeps_all hallowed
  exact (harguments state ⟨.refl, sound⟩).ends.mono (fun _ _ h => h.1) fun _ _ h => h.1.1

/-- What every move keeps holds wherever moves lead to. -/
theorem Leads.keeps {moment moment' : Moment} (h : moment.Leads moment')
    (holds : Moment → Prop) (start : holds moment)
    (move : ∀ {moment moment'}, holds moment →
      Move (fun _ statement => statement.Sound) moment moment' → holds moment')
    (loadMove : ∀ {moment moment'}, holds moment → LoadMove moment moment' → holds moment') :
    holds moment' := by
  induction h with
  | refl => exact start
  | tail _ next ih =>
      cases next with
      | move hmove => exact move ih hmove
      | loadMove hmove => exact loadMove ih hmove

end Moment

end Bir
