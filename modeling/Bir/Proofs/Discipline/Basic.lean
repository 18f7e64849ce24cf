import Bir.Proofs.Regimen.Evaluation

/-!
# Disciplines — what holds wherever a run comes to

A discipline is a regimen that lets a run go as deep as it likes and asks nothing of its bound: what
is known of the moments of a run, of the code that may be run in them and of the failures that leave
them, together with the reasons why each single step keeps it.  This file defines:

* `Discipline` and `Discipline.regimen`;
* `Discipline.knot` — evaluation under a watch, with every bound, keeps every discipline of it.
-/

namespace Bir

/-- What is known of a run under a watch, and why each step keeps it. -/
structure Discipline (watch : Watch) where
  /-- The expressions that an engine may evaluate. -/
  expression : EngineId → Expression → Prop
  /-- The statements that an engine may run. -/
  statement : EngineId → Statement → Prop
  /-- The frames that an engine may be asked to run. -/
  body : EngineId → List Statement → Prop
  /-- The moments that a run comes to. -/
  holds : Moment → Prop
  /-- The failures that leave expressions and statements. -/
  blames : EngineId → Failure → Prop
  /-- The failures that leave the statements of a frame. -/
  settled : EngineId → Failure → Prop
  /-- The failures that leave a frame, with a report. -/
  complete : Failure → Prop
  operand : ∀ {self expression' operand}, expression self expression' →
    operand ∈ expression'.operands → expression self operand
  part : ∀ {self statement' part}, statement self statement' →
    part ∈ statement'.expressions → expression self part
  nested : ∀ {self statement' nested}, statement self statement' →
    nested ∈ statement'.bodies → body self nested
  opened : ∀ {pending self state statements}, holds ⟨pending, self, state⟩ →
    body self statements → watch self (.frame statements) state = false →
    ∀ first ∈ statements, statement self first
  called : ∀ {pending self} {state : State} {ref : BlockRef} {init program},
    holds ⟨pending, self, state⟩ → (state.graph.block ref).body = .interpreted init program →
    body self program ∧ ∀ section' ∈ init, body self section'
  move : ∀ {moment moment'}, holds moment → Move statement moment moment' → holds moment'
  raise : ∀ {self cause}, Failure.Cause.isEvaluation cause = true → blames self (.ofCause cause)
  halt : ∀ {pending self state}, holds ⟨pending, self, state⟩ →
    ∀ code, code.Fits (body self) pending → watch self code state = true →
    blames self Watch.stop ∧ settled self Watch.stop
  place : ∀ {self failure expression'}, blames self failure → expression self expression' →
    blames self (failure.place expression'.position)
  mark : ∀ {self failure statement' position}, blames self failure → statement self statement' →
    position ∈ statement'.marks → blames self (failure.place position)
  settle : ∀ {self failure statement'}, blames self failure → statement self statement' →
    settled self (failure.place statement'.position)
  attach : ∀ {pending self state failure}, holds ⟨pending, self, state⟩ → settled self failure →
    complete (failure.attach fun _ => state.report self)
  reported : ∀ {failure}, complete failure → failure.report.isSome
  pass : ∀ {self failure}, complete failure → blames self failure
  refuse : ∀ {terms caller pending owner state cause},
    holds ⟨.loan terms caller :: pending, owner, state⟩ → owner ≠ caller → cause.IsRefusal →
    blames caller ((Failure.ofCause cause).attach fun _ => state.report owner)

namespace Discipline

variable {watch : Watch} (D : Discipline watch)

/-- A discipline as a regimen. -/
def regimen : Regimen watch where
  cut := True
  ready _ _ := True
  callable _ := True
  expression _ _ := D.expression
  statement _ _ := D.statement
  body _ _ := D.body
  holds := D.holds
  blames _ := D.blames
  settled _ := D.settled
  complete _ := D.complete
  spentExpression _ := trivial
  spentBody _ := trivial
  endless _ := trivial
  operand := D.operand
  calling _ := trivial
  named _ := trivial
  part := D.part
  nested h _ := D.nested h
  declaring _ _ := trivial
  opened := D.opened
  inits _ _ h section' hsection :=
    D.nested h (by simp [Statement.bodies, Option.mem_def.1 hsection])
  called h _ _ := D.called h
  step h hmove _ _ := D.move h (hmove.mono fun _ _ ⟨_, h⟩ => h)
  enter _ opens h := D.move h opens.move
  raise := D.raise
  haltExpression h _ hstops := (D.halt h (.expression _) trivial hstops).1
  haltFrame {_ _ _ _ _ framed} h hbody hstops := (D.halt h (.frame _) ⟨framed, hbody⟩ hstops).2
  place := D.place
  mark := D.mark
  settle := D.settle
  attach _ _ _ := D.attach
  reported := D.reported
  pass := D.pass
  refuse h _ := D.refuse h

/-- Evaluation under a watch keeps every discipline of that watch. -/
theorem knot (bound : Nat) :
    D.regimen.Knot bound (evaluateUnder watch bound) (executeUnder watch bound) :=
  D.regimen.knot bound

/-- The main program of an engine keeps a discipline, and its failures are complete. -/
theorem runMain_completes {self : EngineId} {pending : List Bracket} [Framed pending]
    {state : State} (bound : Nat) (allowed : D.body self (state.engine self).program.statements)
    (h : D.holds ⟨pending, self, state⟩) :
    (runMain (executeUnder watch bound) self state).Ends
      (fun _ state' => D.holds ⟨pending, self, state'⟩)
      (fun failure state' => D.holds ⟨pending, self, state'⟩ ∧ D.complete failure) :=
  (D.regimen.runMain_completes h allowed).ends

end Discipline

end Bir
