import Bir.Proofs.Course
import Bir.Proofs.Rest

/-!
# Stages — moments with their frames

The frames of a call stack are names.  This file keeps, beside each moment, what the frames are for
that have been entered and not left.  This file defines:

* `Spelled` and `Law.spelled` — names start as names do, also throughout a program;
* `Stage`, a moment with its frames, and `Stage.Next`, one change of a stage;
* `Stage.Leads` — changes in a row;
* `Moment.Lone` — only the engine in control has frames.

`Stage.Leads.stacked` shows what a call stack says of the frames: it lists their names, in order.
-/

namespace Bir

/-! ## Names of frames -/

/-- A name starts as names do, with a letter or an underscore. -/
def Spelled (name : String) : Prop :=
  ∃ first rest, name.toList = first :: rest ∧ Token.isNameStart first = true

theorem Spelled.console : Spelled Console.blockName :=
  ⟨'b', ['i', 'r'], by decide, by decide⟩

theorem Spelled.unmarked {name : String} (h : Spelled name) : ScopeGraph.unmarked name = name := by
  obtain ⟨first, rest, hname, hstart⟩ := h
  exact ScopeGraph.unmarked_of_nameStart hname hstart

theorem Spelled.isFlowName {name : String} (h : Spelled name) :
    CallStack.isFlowName name = false := by
  obtain ⟨first, rest, hname, hstart⟩ := h
  have hne : first ≠ '<' := by
    rintro rfl
    exact absurd hstart (by decide)
  simpa [CallStack.isFlowName, hname] using hne

theorem CallStack.isFlowName_initFrame (block : String) :
    isFlowName (Declaration.initFrame block) = false := by
  simp [isFlowName, Declaration.initFrame]

namespace Frame

/-- Whether a frame is that of the main program, a branch, a turn of a loop or an arm. -/
def isFlow : Frame → Bool
  | .flow _ => true
  | .call _ => false
  | .init _ => false

/-- The frame of a call bears a name that a source can spell. -/
def Spelled : Frame → Prop
  | .call called => Bir.Spelled called
  | _ => True

/-- The name of a frame tells what it is for. -/
theorem Spelled.isFlowName {frame : Frame} (h : frame.Spelled) :
    CallStack.isFlowName frame.name = frame.isFlow := by
  cases frame with
  | flow frame => exact CallStack.isFlowName_name frame
  | call called => exact Bir.Spelled.isFlowName h
  | init block => exact CallStack.isFlowName_initFrame block

theorem Opens.spelled {frame : Frame} {moment : Moment} (h : frame.Opens Bir.Spelled moment) :
    frame.Spelled := by
  cases h with
  | flow frame => exact trivial
  | native awaited named room => exact named
  | call awaited named room => exact named
  | init room => exact trivial

end Frame

/-! ## Code that can be spelled -/

/-- The law that names start as names do and that all positions are places in some text. -/
def Law.spelled : Law where
  name name := Spelled name.name ∧ name.position.isSynthetic = false
  keyword position := position.isSynthetic = false

theorem Law.spelled_implies_sound : Law.spelled.Implies Law.sound where
  name _ h := ⟨h.1.unmarked, h.2⟩
  keyword _ h := h

theorem Law.written_implies_spelled {source : String} {tokens : List Token}
    (h : Token.scan source = .ok tokens) : (Law.written tokens).Implies Law.spelled where
  name name hwritten := by
    have htoken := (Token.scan_sound h).2 _ hwritten
    exact ⟨htoken.named _ _ rfl, htoken.placed.isSynthetic⟩
  keyword position hwritten := Token.isSynthetic_of_mem (Token.mem_positions h hwritten)

/-- What stands in the programs of an idle state can be spelled. -/
theorem State.Idle.statements_spelled {state : State} (h : state.Idle) {statement : Statement}
    (hmem : statement ∈ state.statements) : statement.Throughout Law.spelled := by
  refine statements_throughout (fun id first hfirst => ?_) hmem
  rcases h.read id with hempty | hread
  · rw [hempty] at hfirst
    cases hfirst
  · obtain ⟨tokens, hscan, hwritten⟩ := Program.ofSource_written hread
    exact (hwritten.statements first hfirst).mono (Law.written_implies_spelled hscan)

/-! ## Stages -/

/-- A moment, with the frames that are entered and not left there, the innermost first. -/
structure Stage where
  entered : List Frame
  moment : Moment

namespace Stage

/-- One change of a stage.  Blocks are called by names that a source can spell, and sources are loaded
where no frame is entered. -/
inductive Next : Stage → Stage → Prop where
  | enter {entered : List Frame} {moment : Moment} {frame : Frame}
      (opens : frame.Opens Spelled moment) :
      Next ⟨entered, moment⟩ ⟨frame :: entered, moment.enter frame⟩
  | leave {entered : List Frame} {frame : Frame} {pending : List Bracket} {self : EngineId}
      {state : State} :
      Next ⟨frame :: entered, ⟨.frame :: pending, self, state⟩⟩
        ⟨entered, ⟨pending, self, state.modifyCallStack self CallStack.pop⟩⟩
  | move {entered : List Frame} {moment moment' : Moment}
      (move : Move (fun _ statement => statement.Sound) moment moment')
      (same : frames moment'.pending = frames moment.pending) :
      Next ⟨entered, moment⟩ ⟨entered, moment'⟩
  | loadMove {moment moment' : Moment} (move : LoadMove moment moment') :
      Next ⟨[], moment⟩ ⟨[], moment'⟩

/-- A run at a stage may come to another one. -/
abbrev Leads : Stage → Stage → Prop := Relation.ReflTransGen Next

/-- Without their frames, stages that a run comes to are moments that it comes to. -/
theorem Leads.moments {stage stage' : Stage} (h : stage.Leads stage') :
    stage.moment.Leads stage'.moment := by
  refine h.lift Stage.moment fun stage stage' next => ?_
  cases next with
  | enter opens => exact .move opens.move
  | leave => exact .move .leaveFrame
  | move hmove same => exact .move hmove
  | loadMove hmove => exact .loadMove hmove

end Stage

/-! ## One call stack -/

/-- Only the engine in control has frames: those of the others are neither on their call stacks nor
put aside. -/
structure Moment.Lone (moment : Moment) : Prop where
  others : ∀ id, id ≠ moment.self → (moment.state.callStack id).frames = #[]
  aside : ∀ terms caller, .loan terms caller ∈ moment.pending → terms.callStack.frames = #[]

theorem State.callStack_modifyCallStack_ne (state : State) {id id' : EngineId}
    (change : CallStack → CallStack) (other : id' ≠ id) :
    (state.modifyCallStack id change).callStack id' = state.callStack id' := by
  rw [callStack, modifyCallStack, engine_modifyEngine_ne _ _ other.symm, callStack]

theorem State.callStack_setCallStack_ne (state : State) {id id' : EngineId} (stack : CallStack)
    (other : id' ≠ id) : (state.setCallStack id stack).callStack id' = state.callStack id' := by
  rw [callStack, setCallStack, engine_modifyEngine_ne _ _ other.symm, callStack]

theorem State.callStack_setCallStack (state : State) {id : EngineId} (stack : CallStack)
    (exists' : id < state.engines.size) : (state.setCallStack id stack).callStack id = stack := by
  rw [callStack, setCallStack, engine_modifyEngine_self _ _ _ exists']

namespace Moment.Lone

variable {moment moment' : Moment}

/-- One call stack goes with control. -/
theorem move (h : moment.Lone) (manned : moment.Manned) {allowed : EngineId → Statement → Prop}
    (move : Move allowed moment moment') : moment'.Lone where
  others id hid := by
    cases move with
    | enterStore =>
        rw [State.callStack_pushScope]
        exact h.others id hid
    | enterCall =>
        rw [State.callStack_pushScope]
        exact h.others id hid
    | enterTurn =>
        rw [State.callStack_pushScope]
        exact h.others id hid
    | leaveScope =>
        rw [State.callStack_popScope]
        exact h.others id hid
    | enterFlow frame =>
        rw [State.callStack_modifyCallStack_ne _ _ hid]
        exact h.others id hid
    | enterFrame name room =>
        rw [State.callStack_modifyCallStack_ne _ _ hid]
        exact h.others id hid
    | leaveFrame =>
        rw [State.callStack_modifyCallStack_ne _ _ hid]
        exact h.others id hid
    | @lend pending self state found owner owned lent =>
        rw [State.callStack, Action.Loan.engine_take_ne hid]
        by_cases hself : id = self
        · subst hself
          exact congrArg CallStack.frames (State.callStack_setCallStack state {} manned.self)
        · have hsame := State.callStack_setCallStack_ne state {} hself
          rw [State.callStack] at hsame
          rw [hsame]
          exact h.others id hself
    | @giveBack pending owner state terms caller =>
        by_cases howner : id = owner
        · subst howner
          rw [State.callStack, Action.Loan.engine_giveBack_owner terms hid manned.self]
          exact h.aside terms caller List.mem_cons_self
        · have hsame := state.callStack_setCallStack_ne (state.engine owner).callStack hid
          rw [State.callStack] at hsame
          rw [State.callStack, Action.Loan.engine_giveBack_ne terms howner, hsame]
          exact h.others id howner
    | _ => exact h.others id hid
  aside terms caller hmem := by
    have hkept : .loan terms caller ∈ moment.pending → terms.callStack.frames = #[] :=
      h.aside terms caller
    cases move with
    | @lend pending self state found owner owned lent =>
        rcases List.mem_cons.1 hmem with heq | hmem
        · cases heq
          have hother : owner ≠ caller := owned ▸ State.owner_ne_of_isLent lent
          have hsame := State.callStack_setCallStack_ne state {} hother
          rw [State.callStack] at hsame
          rw [Action.Loan.take_callStack, hsame]
          exact h.others owner hother
        · exact hkept hmem
    | _ => exact hkept (by simp_all)

/-- Loading keeps all call stacks empty. -/
theorem loadMove (h : moment.Lone) (idle : (moment.state.callStack moment.self).frames = #[])
    (move : LoadMove moment moment') :
    moment'.Lone ∧ (moment'.state.callStack moment'.self).frames = #[] := by
  have hall : ∀ id, (moment.state.callStack id).frames = #[] := by
    intro id
    by_cases hself : id = moment.self
    · exact hself ▸ idle
    · exact h.others id hself
  suffices hempty : ∀ id, (moment'.state.callStack id).frames = #[] by
    refine ⟨⟨fun id _ => hempty id, fun terms caller hmem => ?_⟩, hempty _⟩
    refine h.aside terms caller ?_
    cases move <;> simp_all
  intro id
  cases move with
  | read =>
      rw [State.callStack, State.engine_modifyEngine_congr _ _ Engine.callStack (by intro _; rfl)]
      exact hall id
  | openModule path content =>
      rw [State.callStack, State.engine_addEngine]
      split
      · rfl
      · exact hall id
  | expose =>
      rw [State.callStack, State.engine_expose_congr Engine.callStack (by intro _ _; rfl)]
      exact hall id
  | _ => exact hall id

end Moment.Lone

/-! ## Names and frames -/

namespace CallStack

theorem innermostFirst_push (stack : CallStack) (name : String) :
    (stack.push name).innermostFirst = name :: stack.innermostFirst := by
  simp [push, innermostFirst]

theorem innermostFirst_pop (stack : CallStack) :
    stack.pop.innermostFirst = stack.innermostFirst.tail := by
  simp [pop, innermostFirst]

theorem innermostFirst_eq_nil {stack : CallStack} :
    stack.innermostFirst = [] ↔ stack.frames = #[] := by
  simp [innermostFirst]

/-- A call stack is as it was where no frame is entered or left. -/
theorem Turn.eq_of_same {before after : Nat} {stack stack' : CallStack}
    (turn : Turn before after stack stack') (same : after = before) : stack' = stack := by
  cases turn with
  | same => rfl
  | flow frame => exact absurd same (Nat.succ_ne_self _)
  | call name room => exact absurd same (Nat.succ_ne_self _)
  | leave => exact absurd same.symm (Nat.succ_ne_self _)

end CallStack

/-- The call stack of the engine in control lists the names of the frames, which tell what they are
for, and there are no other frames anywhere. -/
structure Stage.Stacked (stage : Stage) : Prop where
  manned : stage.moment.Manned
  lone : stage.moment.Lone
  active : (stage.moment.state.callStack stage.moment.self).innermostFirst =
    stage.entered.map Frame.name
  spelled : ∀ frame ∈ stage.entered, frame.Spelled

namespace Stage.Stacked

variable {stage stage' : Stage}

theorem next (h : stage.Stacked) (next : stage.Next stage') : stage'.Stacked := by
  obtain ⟨hmanned, hlone, hactive, hspelled⟩ := h
  cases next with
  | @enter entered moment frame opens =>
      have hmove : Move (fun _ _ => False) moment (moment.enter frame) := opens.move
      refine ⟨hmanned.move hmove, hlone.move hmanned hmove, ?_,
        List.forall_mem_cons.2 ⟨opens.spelled, hspelled⟩⟩
      simp only [Moment.enter, State.callStack_modifyCallStack _ _ hmanned.self,
        CallStack.innermostFirst_push, List.map_cons, hactive]
  | @leave entered frame pending self state =>
      have hmove : Move (fun _ _ => False) ⟨.frame :: pending, self, state⟩
        ⟨pending, self, state.modifyCallStack self CallStack.pop⟩ := .leaveFrame
      refine ⟨hmanned.move hmove, hlone.move hmanned hmove, ?_, (List.forall_mem_cons.1 hspelled).2⟩
      simp only [State.callStack_modifyCallStack _ _ hmanned.self, CallStack.innermostFirst_pop,
        hactive, List.map_cons, List.tail_cons]
  | @move entered moment moment' move same =>
      refine ⟨hmanned.move move, hlone.move hmanned move, ?_, hspelled⟩
      rw [(move.turn hmanned).eq_of_same same]
      exact hactive
  | @loadMove moment moment' move =>
      have hidle := CallStack.innermostFirst_eq_nil.1 hactive
      obtain ⟨hlone', hidle'⟩ := hlone.loadMove hidle move
      exact ⟨hmanned.loadMove move, hlone', CallStack.innermostFirst_eq_nil.2 hidle', hspelled⟩

theorem leads (h : stage.Stacked) (leads : stage.Leads stage') : stage'.Stacked := by
  induction leads with
  | refl => exact h
  | tail _ next ih => exact ih.next next

/-- No block is active just if every frame is one of control flow. -/
theorem outsideBlocks (h : stage.Stacked) :
    (stage.moment.state.callStack stage.moment.self).outsideBlocks =
      stage.entered.all Frame.isFlow := by
  have hnames : (stage.moment.state.callStack stage.moment.self).outsideBlocks =
      (stage.entered.map Frame.name).all CallStack.isFlowName := by
    rw [← h.active]
    simp [CallStack.outsideBlocks, CallStack.innermostFirst]
  rw [hnames, List.all_map, Bool.eq_iff_iff, List.all_eq_true, List.all_eq_true]
  refine forall₂_congr fun frame hframe => ?_
  rw [Function.comp_apply, (h.spelled frame hframe).isFlowName]

end Stage.Stacked

/-- Before a step of a script no frame is entered. -/
theorem State.Idle.stacked {state : State} (idle : state.Idle)
    (manned : Moment.Manned ⟨[], Script.main, state⟩) :
    Stage.Stacked ⟨[], ⟨[], Script.main, state⟩⟩ := by
  have hempty : ∀ id, (state.callStack id).frames = #[] := by
    intro id
    rcases Nat.lt_or_ge id state.engines.size with hlt | hge
    · rw [idle.callStacks id hlt]
    · rw [callStack, engine_of_size_le _ hge]
  refine ⟨manned, ⟨fun id _ => hempty id, fun _ _ hmem => by cases hmem⟩, ?_,
    fun _ hmem => by cases hmem⟩
  exact CallStack.innermostFirst_eq_nil.2 (hempty _)

end Bir
