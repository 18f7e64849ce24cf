import Bir.Proofs.Reachable
import Bir.Proofs.Source.Scan

/-!
# Reports — where a failure points in an evaluation

A failure takes its position from the code in which it arises and its report from the engine that
runs that code.  Both fit as long as engines run frames that stand in their own sources.  A block
that implements one of a module, a block that was handed to a module, or one that no engine below
is asked to run may break this.  This file defines:

* `Expression.positions` and `Statement.positions` — where a failure in them may be placed;
* `Watch.misplaced` — the watch that finds a frame with a position in an engine in whose source no
  token has that position;
* `Failure.Pointed` — a failure points into the source that its report shows, or it is a call that
  the owner of the block refused;
* `Discipline.pointing` — what is known of failures at the positions that a watch guards.
-/

namespace Bir

/-! ## Places of failures -/

mutual

/-- The positions of an expression and of all that it evaluates. -/
def Expression.positions : Expression → List Position
  | @arithmetic _ left right position => position :: (left.positions ++ right.positions)
  | @condition _ left right position => position :: (left.positions ++ right.positions)
  | @logarithm operand _ position => position :: operand.positions
  | @call _ verbs arguments position =>
    position :: (allPositions verbs ++ allPositions arguments)
  | .slot _ arguments keyword => keyword :: allPositions arguments
  | .integer _ position => [position]
  | .string _ position => [position]
  | .reference name => [name.position]

/-- The positions of expressions and of all that they evaluate. -/
def Expression.allPositions : List Expression → List Position
  | [] => []
  | expression :: rest => expression.positions ++ allPositions rest

end

namespace Expression

theorem mem_allPositions {expressions : List Expression} {position : Position} :
    position ∈ allPositions expressions ↔
      ∃ expression ∈ expressions, position ∈ expression.positions := by
  induction expressions with
  | nil => simp [allPositions]
  | cons expression rest ih => simp [allPositions, ih]

theorem position_mem_positions (expression : Expression) :
    expression.position ∈ expression.positions := by
  cases expression <;> simp [position, positions]

theorem positions_of_operand {expression operand : Expression}
    (h : operand ∈ expression.operands) {position : Position}
    (hposition : position ∈ operand.positions) : position ∈ expression.positions := by
  cases expression with
  | arithmetic op left right =>
      rcases List.mem_cons.1 h with rfl | h
      · simp [positions, hposition]
      · rw [List.mem_singleton.1 h] at hposition
        simp [positions, hposition]
  | condition op left right =>
      rcases List.mem_cons.1 h with rfl | h
      · simp [positions, hposition]
      · rw [List.mem_singleton.1 h] at hposition
        simp [positions, hposition]
  | logarithm operand' keyword =>
      rw [List.mem_singleton.1 h] at hposition
      simp [positions, hposition]
  | call name verbs arguments =>
      rcases List.mem_append.1 h with hverb | hargument
      · have hverbs := mem_allPositions.2 ⟨operand, hverb, hposition⟩
        simp [positions, hverbs]
      · have harguments := mem_allPositions.2 ⟨operand, hargument, hposition⟩
        simp [positions, harguments]
  | slot op arguments keyword =>
      have harguments : position ∈ allPositions arguments :=
        mem_allPositions.2 ⟨operand, h, hposition⟩
      simp [positions, harguments]
  | integer value position => cases h
  | string text position => cases h
  | reference name => cases h

end Expression

/-- The positions of a statement and of the expressions that it evaluates. -/
def Statement.positions (statement : Statement) : List Position :=
  statement.position :: statement.marks ++ Expression.allPositions statement.expressions

/-- The source of each engine. -/
def State.sources (state : State) (id : EngineId) : String := (state.engine id).content

namespace Watch

/-- The watch that finds a frame with a position in an engine in whose source no token has it. -/
def misplaced (position : Position) : Watch := fun self code state =>
  match code with
  | .frame statements =>
    statements.any (fun statement => statement.positions.contains position)
      && !(Token.positions (state.sources self)).contains position
  | _ => false

/-- Where a watch finds nothing, the positions of a frame that it guards are those of tokens in the
source of the engine. -/
def Guards (watch : Watch) (aims : Position → Prop) : Prop :=
  ∀ self statements state, watch self (.frame statements) state = false →
    ∀ statement ∈ statements, ∀ position ∈ statement.positions, aims position →
      position ∈ Token.positions (state.sources self)

theorem silent_guards : silent.Guards fun _ => False := by
  intro self statements state _ statement _ position _ haims
  exact haims.elim

theorem misplaced_guards (position : Position) : (misplaced position).Guards (· = position) := by
  intro self statements state h statement hmem position' hposition heq
  subst heq
  simp only [misplaced, Bool.and_eq_false_iff, Bool.not_eq_false'] at h
  rcases h with hnone | hfound
  · have hany : statements.any (fun statement => statement.positions.contains position') = true :=
      List.any_eq_true.2 ⟨statement, hmem, List.contains_iff_mem.2 hposition⟩
    rw [hnone] at hany
    cases hany
  · exact List.contains_iff_mem.1 hfound

end Watch

/-! ## What is known of failures -/

namespace Failure

/-- A failure has a position and the report of an engine.  If one aims at its position, a token in
the source that the report shows has it; or the engine refused a call of another engine, and a
token in the source of the caller has it. -/
def Pointed (aims : Position → Prop) (sources : EngineId → String) (failure : Failure) : Prop :=
  ∃ position report owner, failure.position = some position ∧ failure.report = some report ∧
    report.content = sources owner ∧
      (aims position → position ∈ Token.positions report.content ∨
        failure.cause.IsRefusal ∧ ∃ caller, caller ≠ owner ∧
          position ∈ Token.positions (sources caller))

/-- What is known of a failure in the source of an engine. -/
inductive Known (aims : Position → Prop) (sources : EngineId → String) (self : EngineId) :
    Failure → Prop where
  | stopped {failure} (cause : failure.cause = Watch.stopCause) : Known aims sources self failure
  | raised {cause} : Known aims sources self { cause }
  | placed {cause position}
      (fits : aims position → position ∈ Token.positions (sources self)) :
      Known aims sources self { cause, position := some position }
  | refused {cause report} {owner : EngineId} (refusal : cause.IsRefusal) (other : self ≠ owner)
      (content : report.content = sources owner) :
      Known aims sources self { cause, report := some report }
  | pointed {failure} (pointed : failure.Pointed aims sources) : Known aims sources self failure

variable {aims : Position → Prop} {sources : EngineId → String} {self : EngineId}
variable {failure : Failure}

theorem Pointed.position_isSome (h : failure.Pointed aims sources) : failure.position.isSome := by
  obtain ⟨position, _, _, hposition, _⟩ := h
  simp [hposition]

theorem Pointed.report_isSome (h : failure.Pointed aims sources) : failure.report.isSome := by
  obtain ⟨_, report, _, _, hreport, _⟩ := h
  simp [hreport]

/-- A failure that is placed in a source has a position. -/
theorem position_isSome_place (failure : Failure) {position : Position}
    (source : position.isSynthetic = false) : (failure.place position).position.isSome := by
  cases h : failure.position with
  | none => simp [position_place h source]
  | some first =>
      rw [place_of_position (by simp [h])]
      simp [h]

namespace Known

theorem place (h : Known aims sources self failure) {position : Position}
    (source : position.isSynthetic = false)
    (fits : aims position → position ∈ Token.positions (sources self)) :
    Known aims sources self (failure.place position) := by
  cases h with
  | stopped cause => exact .stopped (by simpa using cause)
  | raised =>
      simp only [Failure.place, source]
      exact .placed fits
  | placed fits' =>
      rw [place_of_position (by rfl)]
      exact .placed fits'
  | @refused cause report owner refusal other content =>
      simp only [Failure.place, source]
      refine .pointed ⟨position, report, owner, rfl, rfl, content, ?_⟩
      intro haims
      exact Or.inr ⟨refusal, self, other, fits haims⟩
  | pointed hpointed =>
      rw [place_of_position hpointed.position_isSome]
      exact .pointed hpointed

/-- A failure with a position that gets a report points where the report shows. -/
theorem attach (h : Known aims sources self failure) (position : failure.position.isSome)
    {report : Unit → Report} (content : (report ()).content = sources self) :
    failure.cause = Watch.stopCause ∨ (failure.attach report).Pointed aims sources := by
  cases h with
  | stopped cause => exact Or.inl cause
  | raised => cases position
  | @placed cause position' fits =>
      refine Or.inr ⟨position', report (), self, rfl, rfl, content, ?_⟩
      intro haims
      rw [content]
      exact Or.inl (fits haims)
  | refused => cases position
  | pointed hpointed =>
      rw [attach_of_report hpointed.report_isSome]
      exact Or.inr hpointed

end Known

end Failure

/-! ## Evaluation -/

open Failure

/-- What is known of failures at the positions that a watch guards.  The sources are those that the
engines have when the evaluation begins. -/
def Discipline.pointing {watch : Watch} {aims : Position → Prop} (guards : watch.Guards aims)
    (start : State) : Discipline watch where
  expression self expression := expression.Throughout Law.sound ∧
    ∀ position ∈ expression.positions, aims position →
      position ∈ Token.positions (start.sources self)
  statement self statement := statement.Sound ∧
    ∀ position ∈ statement.positions, aims position →
      position ∈ Token.positions (start.sources self)
  body _ := FrameSound
  holds moment := State.SameModules start moment.state ∧ moment.state.Sound
  blames self := Known aims start.sources self
  settled self failure := Known aims start.sources self failure ∧
    (failure.cause = Watch.stopCause ∨ failure.position.isSome)
  complete failure := failure.report.isSome ∧
    (failure.cause = Watch.stopCause ∨ failure.Pointed aims start.sources)
  operand h hoperand := by
    refine ⟨h.1.operand hoperand, fun position hposition => h.2 position ?_⟩
    exact Expression.positions_of_operand hoperand hposition
  part h hpart := by
    refine ⟨h.1.expression hpart, fun position hposition => h.2 position ?_⟩
    exact List.mem_append_right _ (Expression.mem_allPositions.2 ⟨_, hpart, hposition⟩)
  nested h hnested := h.1.body hnested
  opened h hbody hwatch first hfirst := by
    refine ⟨hbody first hfirst, fun position hposition haims => ?_⟩
    have hmem := guards _ _ _ hwatch first hfirst position hposition haims
    rw [State.sources, h.1.content] at hmem
    exact hmem
  called h := h.2.block _ _ _
  move h move := by
    have hmove := move.mono fun _ _ hstatement => hstatement.1
    exact ⟨h.1.trans hmove.sameModules, hmove.sound h.2⟩
  raise _ := .raised
  halt _ _ _ _ := ⟨.stopped rfl, .stopped rfl, Or.inl rfl⟩
  place hknown hexpression :=
    hknown.place hexpression.1.position (hexpression.2 _ (Expression.position_mem_positions _))
  mark hknown hstatement hmark := by
    refine hknown.place (hstatement.1.mark hmark) (hstatement.2 _ ?_)
    exact List.mem_append_left _ (List.mem_cons_of_mem _ hmark)
  settle hknown hstatement := by
    have hsource := hstatement.1.position
    refine ⟨hknown.place hsource (hstatement.2 _ ?_), Or.inr (position_isSome_place _ hsource)⟩
    exact List.mem_append_left _ List.mem_cons_self
  attach h hsettled := by
    refine ⟨isSome_report_attach _ _, ?_⟩
    rw [cause_attach]
    rcases hsettled.2 with hstopped | hposition
    · exact Or.inl hstopped
    · exact hsettled.1.attach hposition (h.1.content _)
  reported hcomplete := hcomplete.1
  pass hcomplete := hcomplete.2.elim .stopped .pointed
  refuse h other hrefusal := .refused hrefusal other.symm (h.1.content _)

end Bir
