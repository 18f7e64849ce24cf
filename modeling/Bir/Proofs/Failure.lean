import Bir.Engine.Loading

/-!
# Failures — what placing and reporting leave alone

A failure takes a position and a report once and keeps its cause; an importer changes the cause of
a failure that a module is no program, and nothing else.
-/

namespace Bir
namespace Failure

variable (failure : Failure)

/-! ## Positions -/

@[simp]
theorem cause_place (position : Position) : (failure.place position).cause = failure.cause := by
  unfold place
  split <;> rfl

@[simp]
theorem report_place (position : Position) : (failure.place position).report = failure.report := by
  unfold place
  split <;> rfl

theorem place_of_position {failure : Failure} (h : failure.position.isSome) (position : Position) :
    failure.place position = failure := by
  obtain ⟨first, hfirst⟩ := Option.isSome_iff_exists.1 h
  simp [place, hfirst]

/-- A failure without a position takes one, unless that is synthetic. -/
theorem position_place {failure : Failure} {position : Position} (h : failure.position = none)
    (source : position.isSynthetic = false) : (failure.place position).position = some position := by
  simp [place, h, source]

/-! ## Reports -/

@[simp]
theorem cause_attach (report : Unit → Report) : (failure.attach report).cause = failure.cause := by
  unfold attach
  split <;> rfl

@[simp]
theorem position_attach (report : Unit → Report) :
    (failure.attach report).position = failure.position := by
  unfold attach
  split <;> rfl

theorem attach_of_report {failure : Failure} (h : failure.report.isSome) (report : Unit → Report) :
    failure.attach report = failure := by
  obtain ⟨first, hfirst⟩ := Option.isSome_iff_exists.1 h
  simp [attach, hfirst]

/-- A failure without a report takes one. -/
theorem report_attach {failure : Failure} (h : failure.report = none) (report : Unit → Report) :
    (failure.attach report).report = some (report ()) := by
  simp [attach, h]

theorem isSome_report_attach (report : Unit → Report) : (failure.attach report).report.isSome := by
  cases h : failure.report <;> simp [attach, h]

/-! ## Modules -/

@[simp]
theorem position_ofModule (name : String) :
    (Loading.ofModule name failure).position = failure.position := by
  unfold Loading.ofModule
  split <;> rfl

@[simp]
theorem report_ofModule (name : String) :
    (Loading.ofModule name failure).report = failure.report := by
  unfold Loading.ofModule
  split <;> rfl

end Failure
end Bir
