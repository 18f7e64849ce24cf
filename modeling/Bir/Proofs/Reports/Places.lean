import Bir.Proofs.Reports.Loading
import Bir.Proofs.Rest

/-!
# Places of failures — every failure of a step has one

All positions in a program are those of tokens, which count lines and columns from one.  A failure
is placed at the latest where it leaves the statement that it has arisen in, or where it leaves the
import.  This file defines:

* `Law.counted` — the law that positions count from one;
* `Failure.Placed` and `Failure.Located` — a failure has such a position, and a report as well;
* `Discipline.placing` and `LoadDiscipline.placing` — failures get one on their way out, and a
  report.
-/

namespace Bir

/-! ## Programs -/

/-- The law that all positions count lines and columns from one. -/
def Law.counted : Law where
  name name := name.position.Counted
  keyword position := position.Counted

theorem Law.counted_places : Law.counted.Places Position.Counted where
  name h := h
  keyword h := h

/-- What the tokens of a text say counts lines and columns from one. -/
theorem Law.written_implies_counted {source : String} {tokens : List Token}
    (h : Token.scan source = .ok tokens) : (Law.written tokens).Implies Law.counted where
  name name hwritten := ((Token.scan_sound h).2 _ hwritten).placed
  keyword position hwritten := by
    obtain ⟨token, hmem, rfl⟩ := hwritten
    exact ((Token.scan_sound h).2 token hmem).placed

theorem Program.ofSource_throughout_counted {source : String} {program : Program}
    (h : ofSource source = .ok program) :
    ∀ statement ∈ program.statements, statement.Throughout Law.counted := by
  obtain ⟨tokens, hscan, hwritten⟩ := ofSource_written h
  intro statement hmem
  exact (hwritten.statements statement hmem).mono (Law.written_implies_counted hscan)

theorem State.Idle.statements_counted {state : State} (h : state.Idle) {statement : Statement}
    (hmem : statement ∈ state.statements) : statement.Throughout Law.counted := by
  refine statements_throughout (fun id first hfirst => ?_) hmem
  rcases h.read id with hempty | hread
  · rw [hempty] at hfirst
    cases hfirst
  · exact Program.ofSource_throughout_counted hread first hfirst

/-! ## Failures -/

namespace Failure

variable {failure : Failure} {position : Position}

/-- A failure has a position, which counts lines and columns from one. -/
def Placed (failure : Failure) : Prop := ∃ position ∈ failure.position, position.Counted

/-- If a failure has a position, it counts lines and columns from one. -/
def Placeable (failure : Failure) : Prop := ∀ position ∈ failure.position, position.Counted

theorem Placed.placeable (h : failure.Placed) : failure.Placeable := by
  obtain ⟨first, hfirst, hcounted⟩ := h
  intro position hposition
  cases hfirst.symm.trans hposition
  exact hcounted

/-- The first position stays, so a failure is placed as soon as it can be. -/
theorem Placeable.place (h : failure.Placeable) (counted : position.Counted) :
    (failure.place position).Placed := by
  cases hfirst : failure.position with
  | none => exact ⟨position, position_place hfirst counted.isSynthetic, counted⟩
  | some first =>
      rw [place_of_position (by simp [hfirst])]
      exact ⟨first, hfirst, h first hfirst⟩

theorem Placeable.ofCause (cause : Cause) : (ofCause cause).Placeable := fun _ h => by cases h

/-- A failure has a place and a report. -/
def Located (failure : Failure) : Prop := failure.Placed ∧ failure.report.isSome

theorem Placed.attach (h : failure.Placed) (report : Unit → Report) :
    (failure.attach report).Located := by
  refine ⟨?_, isSome_report_attach _ _⟩
  unfold Placed
  rw [position_attach]
  exact h

/-- A failure that is located is left as it is. -/
theorem Located.settled (h : failure.Located) (position : Position) (report : Unit → Report) :
    ((failure.place position).attach report).Located := by
  obtain ⟨first, hfirst, -⟩ := h.1
  rw [place_of_position (Option.isSome_iff_exists.2 ⟨first, hfirst⟩), attach_of_report h.2]
  exact h

theorem Located.ofModule (h : failure.Located) (name : String) :
    (Loading.ofModule name failure).Located := by
  simpa [Located, Placed] using h

end Failure

/-! ## Main programs -/

/-- A failure is placed at the latest where it leaves a statement. -/
def Discipline.placing : Discipline Watch.silent where
  expression _ := Expression.Throughout Law.counted
  statement _ := Statement.Throughout Law.counted
  body _ statements := ∀ statement ∈ statements, statement.Throughout Law.counted
  holds moment := moment.state.graph.EveryBlock (Block.Runs (Statement.Throughout Law.counted))
  blames _ := Failure.Placeable
  settled _ := Failure.Placed
  complete := Failure.Located
  operand h := h.operand
  part h := h.expression
  nested h := h.body
  opened _ h _ := h
  called h := h.block Block.Runs.missing _ _ _
  move h move := move.runs (fun hstatement _ => hstatement.body) h
  raise _ := .ofCause _
  halt _ _ _ hstops := by cases hstops
  place h hexpression := (h.place (hexpression.placed Law.counted_places)).placeable
  mark h hstatement hmark := (h.place (hstatement.placed_mark Law.counted_places hmark)).placeable
  settle h hstatement := h.place (hstatement.placed Law.counted_places)
  attach _ h := h.attach _
  reported h := h.2
  pass h := h.1.placeable
  refuse _ _ _ := by
    intro position hposition
    rw [Failure.position_attach] at hposition
    exact Failure.Placeable.ofCause _ position hposition

/-- A main program that fails does so at a place, and with a report. -/
theorem State.Idle.runMain_located {state : State} (h : state.Idle) (bound : Nat)
    (self : EngineId) :
    (Bir.runMain (execute bound) self state).Ends (fun _ _ => True)
      fun failure _ => failure.Located := by
  have hprogram : ∀ statement ∈ (state.engine self).program.statements,
      statement.Throughout Law.counted :=
    fun _ hmem => h.statements_counted (mem_statements_of_program hmem)
  have hstart : Discipline.placing.holds ⟨[], self, state⟩ :=
    h.bodies.mono fun _ hruns => hruns.mono fun _ => h.statements_counted
  have hmain := Discipline.placing.runMain_completes bound hprogram hstart
  rw [(evaluateUnder_silent bound).2] at hmain
  exact hmain.mono (fun _ _ _ => trivial) fun _ _ h' => h'.2

/-! ## Whole runs -/

/-- Failures are placed and reported also where sources are loaded. -/
def LoadDiscipline.placing : LoadDiscipline Watch.silent where
  holds moment := moment.state.Idle ∧ moment.Requested
  reports failure _ := failure.Located
  main {pending self state _} bound h := by
    have hrest : ∀ {after : State}, after.Idle ∧ State.Undisturbed state after →
        after.Idle ∧ Moment.Requested ⟨pending, self, after⟩ := by
      rintro after ⟨hidle, hsame⟩
      have hmanned := h.2.manned.of_sameUses (.of_engines hsame.engines) fun _ => .inl
      exact ⟨hidle, h.2.of_sameModules hmanned (.of_engines hsame.engines) fun _ => .inl⟩
    have hlocated := h.1.runMain_located bound self
    rw [← (evaluateUnder_silent bound).2] at hlocated
    refine ((h.1.runMain h.2.manned.uses Watch.silent bound self).and hlocated).mono ?_ ?_
    · exact fun _ after h' => hrest h'.1
    · exact fun failure after h' => ⟨hrest h'.1, h'.2⟩
  halt _ hstops := by cases hstops
  loadMove h move := ⟨h.1.loadMove move, h.2.loadMove move⟩
  unread _ hunread :=
    ((Failure.Placeable.ofCause _).place (Program.ofSource_counted hunread)).attach _
  missing h hmem _ := by
    have hposition := (h.2.pending _ _ List.mem_cons_self).2 _ hmem
    exact ((Failure.Placeable.ofCause _).place (Token.counted_of_mem hposition)).attach _
  returned h := (h.ofModule _).settled _ _
  passed h := h.settled _ _
  still h _ := h

end Bir
