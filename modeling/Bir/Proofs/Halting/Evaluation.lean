import Bir.Proofs.Monotone
import Bir.Proofs.Rest

/-!
# Halting — only `while` goes on and on

Without `while`, each statement does a number of things that its text bounds, and calls go as deep
as the call limit.  So a bound on the nesting of evaluations is ample as soon as it has room for one
statement below each of the frames that are still to come.  This file defines:

* `Statement.isWhile` and `State.toll` — the most that the statements of a state ask for;
* `State.allowance` — the bound that is ample at a depth;
* `Regimen.halting` — what may be run with which bound, where no run is cut short.

`State.Idle.runMain_finishes` is what these are for: a main program finishes.
-/

namespace Bir

/-- Whether a statement is a `while`. -/
def Statement.isWhile : Statement → Bool
  | .repeatWhile _ _ _ => true
  | _ => false

/-- No `while` stands in the programs of a state. -/
def State.Whileless (state : State) : Prop :=
  ∀ statement ∈ state.statements, statement.isWhile = false

/-! ## Bounds -/

namespace State

/-- What a frame asks for with any statement in it. -/
noncomputable def toll (state : State) : Nat := (state.statements.map sizeOf).foldr max 0 + 1

/-- What all frames that may still be entered ask for. -/
noncomputable def allowance (state : State) (depth : Nat) : Nat :=
  (state.config.callLimit - depth) * state.toll

theorem sizeOf_lt_toll {state : State} {statement : Statement}
    (h : statement ∈ state.statements) : sizeOf statement < state.toll :=
  Nat.lt_succ_of_le (List.le_max_of_le (List.mem_map_of_mem h) (Nat.le_refl _))

/-- A frame that is entered uses up one toll, and has it for its statements. -/
theorem allowance_succ {state : State} {depth : Nat} (room : depth < state.config.callLimit) :
    state.allowance (depth + 1) + state.toll = state.allowance depth := by
  have hleft : state.config.callLimit - depth = state.config.callLimit - (depth + 1) + 1 := by
    omega
  calc
    state.allowance (depth + 1) + state.toll
        = (state.config.callLimit - (depth + 1) + 1) * state.toll := (Nat.succ_mul _ _).symm
    _ = state.allowance depth := by rw [allowance, hleft]

theorem allowance_anti (state : State) {depth depth' : Nat} (h : depth ≤ depth') :
    state.allowance depth' ≤ state.allowance depth :=
  Nat.mul_le_mul_right _ (Nat.sub_le_sub_left h _)

/-- A bound is ample for the statements of a frame. -/
def Affords (state : State) (bound depth : Nat) (statements : List Statement) : Prop :=
  state.allowance depth < bound ∧ ∀ statement ∈ statements,
    statement ∈ state.statements ∧ sizeOf statement + state.allowance depth < bound

/-- A bound that has room for the frame of a call is ample for the statements in it. -/
theorem affords_of_room {state : State} {bound depth : Nat} {statements : List Statement}
    (room : depth < state.config.callLimit) (ample : state.allowance depth ≤ bound)
    (within : ∀ statement ∈ statements, statement ∈ state.statements) :
    state.Affords bound (depth + 1) statements := by
  have hsucc := allowance_succ room
  have hpositive : 0 < state.toll := Nat.succ_pos _
  refine ⟨by omega, fun statement hmem => ⟨within statement hmem, ?_⟩⟩
  have hsize := sizeOf_lt_toll (within statement hmem)
  omega

end State

theorem Expression.sizeOf_pos (expression : Expression) : 0 < sizeOf expression := by
  cases expression <;> simp only [arithmetic.sizeOf_spec, condition.sizeOf_spec,
    logarithm.sizeOf_spec, call.sizeOf_spec, slot.sizeOf_spec, integer.sizeOf_spec,
    string.sizeOf_spec, reference.sizeOf_spec] <;> omega

/-! ## Main programs -/

/-- What may be run with which bound at which depth, so that no run is cut short. -/
def Regimen.halting {start : State} (whileless : start.Whileless) : Regimen Watch.silent where
  cut := False
  ready bound depth := start.allowance depth ≤ bound
  callable _ := True
  expression bound depth _ expression := sizeOf expression + start.allowance depth ≤ bound
  statement bound depth _ statement :=
    statement ∈ start.statements ∧ sizeOf statement + start.allowance depth ≤ bound
  body bound depth _ := start.Affords bound depth
  holds moment := moment.Underway start
  whereabouts := .unknown
  blames _ _ _ := True
  settled _ _ _ := True
  complete _ failure := failure.report.isSome
  spentExpression {depth self expression'} h := by
    have hpositive := expression'.sizeOf_pos
    omega
  spentBody h := absurd h.1 (Nat.not_lt_zero _)
  endless h := by
    have hwhile := whileless _ h.1
    cases hwhile
  operand h hoperand := by
    have hsize := Expression.sizeOf_operand hoperand
    omega
  calling {bound depth self name verbs arguments position} h := by
    have hpositive := (@Expression.call name verbs arguments position).sizeOf_pos
    omega
  named _ := trivial
  part h hpart := by
    have hsize := Statement.sizeOf_part hpart
    omega
  nested {bound depth self statement' nested} h _ hbody := by
    have hsize := Statement.sizeOf_body hbody
    have hdeeper := start.allowance_anti (Nat.le_add_right depth 1)
    refine ⟨by omega, fun first hfirst => ⟨State.mem_statements_of_body h.1 hbody hfirst, ?_⟩⟩
    have hfirst' := List.sizeOf_lt_of_mem hfirst
    omega
  declaring h _ := (Nat.le_add_left _ _).trans h.2
  opened _ h _ first hfirst := by
    obtain ⟨hmem, hample⟩ := h.2 first hfirst
    exact ⟨hmem, Nat.le_of_lt_succ hample⟩
  inits h room hstatement section' hsection := by
    have hroom := CallStack.depth_lt_of_room h.limit room
    rw [h.depth] at hroom
    refine State.affords_of_room hroom ((Nat.le_add_left _ _).trans hstatement.2) ?_
    refine fun first hfirst => State.mem_statements_of_body hstatement.1 ?_ hfirst
    simp [Statement.bodies, Option.mem_def.1 hsection]
  called h room ready hbody := by
    have hroom := CallStack.depth_lt_of_room h.limit room
    rw [h.depth] at hroom
    obtain ⟨hprogram, hinit⟩ := h.bodies.block Block.Runs.missing _ _ _ hbody
    exact ⟨State.affords_of_room hroom ready hprogram, fun section' hsection =>
      State.affords_of_room hroom ready (hinit section' hsection)⟩
  step h move _ _ := h.move move fun _ _ hruns => hruns.elim fun _ hstatement => hstatement.1
  enter _ opens h := h.enter opens
  raise _ := trivial
  haltExpression _ _ hstops := by cases hstops
  haltFrame _ _ hstops := by cases hstops
  place _ _ := trivial
  mark _ _ _ := trivial
  settle _ _ := trivial
  attach _ _ _ _ _ := Failure.isSome_report_attach _ _
  reported h := h
  pass _ := trivial
  refuse _ _ _ _ := trivial

/-! ## Runs that finish -/

/-- What comes of a run, bound by bound: with an ample bound it is not cut short, and a greater bound
changes nothing. -/
def Outcome.Finishes {α : Type} (good : α → State → Prop) (bad : Failure → State → Prop)
    (outcomes : Nat → Outcome α) : Prop :=
  ∃ ample result, result.Within False good bad ∧ ∀ bound ≥ ample, outcomes bound = result

/-- A main program without `while` finishes. -/
theorem State.Idle.runMain_finishes {start : State} (idle : start.Idle)
    (whileless : start.Whileless) {self : EngineId} (manned : Moment.Manned ⟨[], self, start⟩) :
    Outcome.Finishes (fun _ after => after.Idle ∧ State.Undisturbed start after)
      (fun _ after => after.Idle ∧ State.Undisturbed start after)
      fun bound => Bir.runMain (execute bound) self start := by
  let R := Regimen.halting whileless
  let ample := start.toll + start.allowance 0
  have hstart : R.holds ⟨[], self, start⟩ := .start_of_idle idle manned
  have hbody : R.body ample 1 self (start.engine self).program.statements := by
    have hpositive : 0 < start.toll := Nat.succ_pos _
    have hdeeper := start.allowance_anti (Nat.zero_le 1)
    refine ⟨by omega, fun statement hmem => ?_⟩
    have hwithin := State.mem_statements_of_program hmem
    have hsize := State.sizeOf_lt_toll hwithin
    exact ⟨hwithin, by omega⟩
  have hmain := (R.runMain_completes hstart hbody).and_ends
    (idle.runMain manned.uses Watch.silent ample self)
  refine ⟨ample, _, hmain.mono (fun _ _ h => h.2) fun _ _ h => h.2, fun bound hbound => ?_⟩
  have hsame := (Loss.short_refines hbound).runMain_upTo self start
  rw [(evaluateUnder_silent bound).2] at hsame
  exact hsame.eq_of_within hmain ()

end Bir
