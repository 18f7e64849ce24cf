import Bir.Proofs.Discipline.Basic
import Bir.Proofs.Modules

/-!
# Causes — what evaluation fails of

Evaluation finds the causes of its failures by itself: that a text is no program, and that a module
is missing, unreadable or imported in a cycle, is found where sources are loaded, and nowhere else.
It leaves the engines as they are but for their stacks.
-/

namespace Bir

/-- The discipline that evaluation changes no engine but for its stacks, and finds the causes of its
failures by itself. -/
def Discipline.ofEvaluation (start : State) : Discipline Watch.silent where
  expression _ _ := True
  statement _ _ := True
  body _ _ := True
  holds moment := State.SameModules start moment.state
  blames _ failure := failure.cause.isEvaluation = true
  settled _ failure := failure.cause.isEvaluation = true
  complete failure := failure.cause.isEvaluation = true ∧ failure.report.isSome
  operand _ _ := trivial
  part _ _ := trivial
  nested _ _ := trivial
  opened _ _ _ _ _ := trivial
  called _ _ := ⟨trivial, fun _ _ => trivial⟩
  move h move := h.trans move.sameModules
  raise h := h
  halt _ _ _ hstops := by simp [Watch.silent] at hstops
  place h _ := by simpa using h
  mark h _ _ := by simpa using h
  settle h _ := by simpa using h
  attach _ h := ⟨by simpa using h, Failure.isSome_report_attach _ _⟩
  reported h := h.2
  pass h := h.1
  refuse _ _ h := by simpa [Failure.ofCause] using h.isEvaluation

/-- The main program of an engine leaves the engines as they are but for their stacks, and fails of
what evaluation finds by itself. -/
theorem runMain_ends (bound : Nat) (self : EngineId) (state : State) :
    (runMain (execute bound) self state).Ends (fun _ after => state.SameModules after)
      fun failure after => state.SameModules after ∧ failure.cause.isEvaluation = true := by
  have hmain := @Discipline.runMain_completes _ (.ofEvaluation state) self [] _ state bound trivial
    (.of_engines rfl)
  rw [(evaluateUnder_silent bound).2] at hmain
  exact hmain.mono (fun _ _ h => h) fun _ _ h => ⟨h.1, h.2.1⟩

end Bir
