import Bir.Proofs.Bridging.Likeness
import Bir.Proofs.Stacks

/-!
# Coupling — two runs in step with each other

On the left, blocks of modules run in the engines that own them; on the right, every block runs in
the engine that calls it.  This file defines:

* `Agree` — an engine with its state on each side, which no evaluation tells apart;
* `Coupling` — two watches, one for each side, that agree on when to stop;
* `Coupling.Couples` — two actions that come to the same from whatever agrees.

Each side leaves its engines as they were, so the sides agree after an action if they did before.
-/

namespace Bir

/-! ## Agreement -/

/-- Whether some engine has lent its stacks: a stack that is lent has no limit of its own. -/
def State.lends (state : State) : Bool :=
  state.engines.any fun engine => engine.callStack.limit.isNone

theorem State.lends_iff {state : State} : state.lends = true ↔
    ∃ id < state.engines.size, (state.engine id).callStack.limit = none := by
  simp only [lends, Array.any_eq_true, Option.isNone_iff_eq_none]
  constructor
  · rintro ⟨id, hid, hlimit⟩
    exact ⟨id, hid, by simpa [engine, Array.getD_eq_getD_getElem?, hid] using hlimit⟩
  · rintro ⟨id, hid, hlimit⟩
    exact ⟨id, hid, by simpa [engine, Array.getD_eq_getD_getElem?, hid] using hlimit⟩

/-- Whether stacks are lent shows in their limits alone. -/
theorem State.lends_modifyEngine {state : State} (id : EngineId) {change : Engine → Engine}
    (h : ∀ engine, (change engine).callStack.limit = engine.callStack.limit) :
    (state.modifyEngine id change).lends = state.lends := by
  have hlimit := state.engine_modifyEngine_congr id (fun engine => engine.callStack.limit) h
  rw [Bool.eq_iff_iff, lends_iff, lends_iff, size_modifyEngine]
  simp only [hlimit]

/-- An engine on the left and one on the right see the same frames and scopes. -/
structure Agree (kept : ScopeId → Bool) (left : EngineId) (state : State) (right : EngineId)
    (state' : State) : Prop where
  graph : state.graph.Like kept state'.graph
  console : state.console = state'.console
  callStack : state.callStack left = state'.callStack right
  current : state.currentScope left = state'.currentScope right
  stacked : (state.engine left).scopeStack.size ≠ 0
  stacked' : (state'.engine right).scopeStack.size ≠ 0
  exist : state.UsesExist
  flat : state'.config.routing = .flat
  /-- The engines are the same outside of calls that are bridged. -/
  bridged : left = right ∨ state.lends = true

/-- What two actions may have done to states that agree. -/
structure InStep (kept : ScopeId → Bool) (state state' after after' : State) : Prop where
  graph : after.graph.Like kept after'.graph
  console : after.console = after'.console
  engines : after.engines = state.engines
  engines' : after'.engines = state'.engines
  config : after'.config = state'.config

/-- Two failures tell the same, each in a place with the same frames. -/
structure Failure.Alike (stack : CallStack) (failure failure' : Failure) : Prop where
  cause : failure.cause = failure'.cause
  position : failure.position = failure'.position
  /-- The frames that a report shows, or will show once there is one. -/
  frames : (failure.report.map (·.callStack)).getD stack.outermostFirst =
    (failure'.report.map (·.callStack)).getD stack.outermostFirst

variable {kept : ScopeId → Bool} {left right : EngineId} {state state' : State}

namespace InStep

variable {after after' later later' : State}

theorem trans (h : InStep kept state state' after after')
    (h' : InStep kept after after' later later') : InStep kept state state' later later' where
  graph := h'.graph
  console := h'.console
  engines := h'.engines.trans h.engines
  engines' := h'.engines'.trans h.engines'
  config := h'.config.trans h.config

end InStep

namespace Agree

theorem inStep (h : Agree kept left state right state') :
    InStep kept state state' state state' where
  graph := h.graph
  console := h.console
  engines := rfl
  engines' := rfl
  config := rfl

theorem after {later later' : State} (h : Agree kept left state right state')
    (step : InStep kept state state' later later') : Agree kept left later right later' where
  graph := step.graph
  console := step.console
  callStack := by
    rw [State.callStack_congr step.engines, State.callStack_congr step.engines', h.callStack]
  current := by
    rw [State.currentScope_congr step.engines, State.currentScope_congr step.engines', h.current]
  stacked := by
    rw [State.engine_congr step.engines]
    exact h.stacked
  stacked' := by
    rw [State.engine_congr step.engines']
    exact h.stacked'
  exist := by
    intro id used hused
    rw [State.engine_congr step.engines] at hused
    rw [step.engines]
    exact h.exist id used hused
  flat := by
    rw [step.config]
    exact h.flat
  bridged := by
    unfold State.lends
    rw [step.engines]
    exact h.bridged

/-! ### What both sides read -/

theorem lt (h : Agree kept left state right state') : left < state.engines.size := by
  rcases Nat.lt_or_ge left state.engines.size with hlt | hge
  · exact hlt
  · have hstacked := h.stacked
    rw [state.engine_of_size_le hge] at hstacked
    exact absurd rfl hstacked

theorem lt' (h : Agree kept left state right state') : right < state'.engines.size := by
  rcases Nat.lt_or_ge right state'.engines.size with hlt | hge
  · exact hlt
  · have hstacked := h.stacked'
    rw [state'.engine_of_size_le hge] at hstacked
    exact absurd rfl hstacked

theorem find? (h : Agree kept left state right state') (name : String) :
    state.graph.find? (state.currentScope left) name =
      state'.graph.find? (state'.currentScope right) name := by
  rw [h.current]
  exact h.graph.find? _ name

theorem findBlock? (h : Agree kept left state right state') (name : String) :
    (state.graph.findBlock? (state.currentScope left) name).map (·.block) =
      (state'.graph.findBlock? (state'.currentScope right) name).map (·.block) := by
  rw [h.current]
  exact h.graph.findBlock? _ name

theorem binds (h : Agree kept left state right state') (id : ScopeId) (name : String) :
    (state.graph.get id).binds name = (state'.graph.get id).binds name :=
  (h.graph.scopes id).binds name

theorem declares (h : Agree kept left state right state') (id : ScopeId) (name : String) :
    (state.graph.get id).declares name = (state'.graph.get id).declares name :=
  (h.graph.scopes id).declares name

/-- What does not depend on owners is the same for the blocks of both sides. -/
theorem block {β : Type} (h : Agree kept left state right state') (part : Block → β)
    (free : ∀ block, part block.bare = part block) (ref : BlockRef) :
    part (state.graph.block ref) = part (state'.graph.block ref) :=
  Block.congr_bare part free (h.graph.block ref)

theorem slotTarget? (h : Agree kept left state right state') :
    Slot.target? state left = Slot.target? state' right := by
  unfold Slot.target?
  simp only [h.callStack, h.findBlock?]

/-! ### What both sides change -/

theorem change (h : Agree kept left state right state')
    {change change' : ScopeGraph → ScopeGraph}
    (like : (change state.graph).Like kept (change' state'.graph)) :
    InStep kept state state' (state.modifyGraph change) (state'.modifyGraph change') :=
  { h.inStep with graph := like }

theorem modifyScope (h : Agree kept left state right state') (id : ScopeId)
    {change : Scope → Scope} (like : ∀ scope scope' : Scope, scope.Like (kept id) scope' →
      (change scope).Like (kept id) (change scope')) :
    InStep kept state state' (state.modifyScope id change) (state'.modifyScope id change) :=
  h.change (h.graph.modify id like)

theorem addScope (h : Agree kept left state right state') (scope : Scope) :
    InStep kept state state' (state.addScope scope).1 (state'.addScope scope).1 :=
  { h.inStep with graph := h.graph.add (.refl _ scope) }

end Agree

/-! ## Failures -/

namespace Failure.Alike

variable {stack : CallStack} {failure failure' : Failure}

theorem refl (failure : Failure) : Alike stack failure failure := ⟨rfl, rfl, rfl⟩

theorem place (h : Alike stack failure failure') (position : Position) :
    Alike stack (failure.place position) (failure'.place position) := by
  obtain ⟨hcause, hposition, hframes⟩ := h
  unfold Failure.place
  rw [hposition]
  split
  · exact ⟨hcause, rfl, hframes⟩
  · exact ⟨hcause, hposition, hframes⟩

/-- Once both have reports, the frames around them do not matter. -/
theorem attach (h : Alike stack failure failure') {report report' : Unit → Report}
    (frames : (report ()).callStack = stack.outermostFirst)
    (frames' : (report' ()).callStack = stack.outermostFirst) (outer : CallStack) :
    Alike outer (failure.attach report) (failure'.attach report') := by
  obtain ⟨hcause, hposition, hframes⟩ := h
  refine ⟨by simpa using hcause, ?_, ?_⟩
  · unfold Failure.attach
    split <;> split <;> exact hposition
  · unfold Failure.attach
    cases hleft : failure.report with
    | none =>
        cases hright : failure'.report with
        | none => simp [frames, frames']
        | some report => simpa [hleft, hright, frames] using hframes
    | some report =>
        cases hright : failure'.report with
        | none => simpa [hleft, hright, frames'] using hframes
        | some report' => simpa [hleft, hright] using hframes

/-- A report of one side alone shows the frames that the other will. -/
theorem attachLeft (h : Alike stack failure failure') {report : Unit → Report}
    (frames : (report ()).callStack = stack.outermostFirst) :
    Alike stack (failure.attach report) failure' := by
  obtain ⟨hcause, hposition, hframes⟩ := h
  refine ⟨by simpa using hcause, ?_, ?_⟩
  · unfold Failure.attach
    split <;> exact hposition
  · unfold Failure.attach
    cases hleft : failure.report <;> simpa [hleft, frames] using hframes

end Failure.Alike

/-! ## Coupled actions -/

/-- Two watches that stop both sides at the same points.  Where it is `loose`, the left side may be
stopped alone. -/
structure Coupling where
  kept : ScopeId → Bool
  watch : Watch
  watch' : Watch
  loose : Prop
  stops : ∀ {left state right state' code}, Agree kept left state right state' →
    watch' right code state' = true → watch left code state = true
  alone : ∀ {left state right state' code}, Agree kept left state right state' →
    watch left code state = true → watch' right code state' = false → loose
  /-- In a scope that is kept, declarations are made by the same engine on both sides. -/
  declares : ∀ {left state right state' statements}, Agree kept left state right state' →
    watch left (.frame statements) state = false →
    left = right ∨ kept (state.currentScope left) = false

namespace Coupling

variable (C : Coupling) {α β : Type}

/-- The left side has been stopped alone. -/
def Lost (failure : Failure) : Prop := C.loose ∧ failure.cause = Watch.stopCause

/-- Two outcomes of actions that began in given states, under given frames. -/
inductive Pairs (stack : CallStack) (state state' : State) : Outcome α → Outcome α → Prop where
  | done {value after after'} (step : InStep C.kept state state' after after') :
      Pairs stack state state' (.done value after) (.done value after')
  | failed {failure failure' after after'} (alike : Failure.Alike stack failure failure')
      (step : InStep C.kept state state' after after') :
      Pairs stack state state' (.failed failure after) (.failed failure' after')
  | lost {failure after outcome'} (lost : C.Lost failure) :
      Pairs stack state state' (.failed failure after) outcome'
  | exhausted : Pairs stack state state' .exhausted .exhausted

/-- Two actions come to the same from whatever agrees. -/
def Couples (left right : EngineId) (action action' : Action α) : Prop :=
  ∀ state state', Agree C.kept left state right state' →
    C.Pairs (state.callStack left) state state' (action state) (action' state')

variable {C}

section Rules

variable {action action' : Action α} {stack : CallStack}

theorem Pairs.from {outcome outcome' : Outcome α} {later later' : State}
    (step : InStep C.kept state state' later later')
    (h : C.Pairs stack later later' outcome outcome') :
    C.Pairs stack state state' outcome outcome' := by
  cases h with
  | done hstep => exact .done (step.trans hstep)
  | failed halike hstep => exact .failed halike (step.trans hstep)
  | lost hlost => exact .lost hlost
  | exhausted => exact .exhausted

theorem Couples.pure (value : α) : C.Couples left right (pure value) (pure value) := by
  intro state state' h
  exact .done h.inStep

theorem Couples.exhausted : C.Couples left right (Action.exhausted : Action α) Action.exhausted :=
  fun _ _ _ => .exhausted

theorem Pairs.bind {next next' : α → Action β}
    (hfirst : C.Pairs stack state state' (action state) (action' state'))
    (hnext : ∀ value after after', InStep C.kept state state' after after' →
      C.Pairs stack after after' (next value after) (next' value after')) :
    C.Pairs stack state state' ((action >>= next) state) ((action' >>= next') state') := by
  rw [Action.bind_apply, Action.bind_apply]
  generalize action state = outcome at hfirst
  generalize action' state' = outcome' at hfirst
  cases hfirst with
  | done hstep => exact (hnext _ _ _ hstep).from hstep
  | failed halike hstep => exact .failed halike hstep
  | lost hlost => exact .lost hlost
  | exhausted => exact .exhausted

theorem Couples.bind {next next' : α → Action β} (hfirst : C.Couples left right action action')
    (hnext : ∀ value, C.Couples left right (next value) (next' value)) :
    C.Couples left right (action >>= next) (action' >>= next') := by
  intro state state' h
  refine Pairs.bind (hfirst state state' h) fun value after after' hstep => ?_
  have hlater := hnext value after after' (h.after hstep)
  rwa [State.callStack_congr hstep.engines] at hlater

theorem Pairs.locate (h : C.Pairs stack state state' (action state) (action' state'))
    (position : Unit → Position) :
    C.Pairs stack state state' (Action.locate position action state)
      (Action.locate position action' state') := by
  unfold Action.locate
  generalize action state = outcome at h
  generalize action' state' = outcome' at h
  cases h with
  | done hstep => exact .done hstep
  | failed halike hstep => exact .failed (halike.place _) hstep
  | lost hlost => exact .lost ⟨hlost.1, by simpa using hlost.2⟩
  | exhausted => exact .exhausted

theorem Couples.locate (h : C.Couples left right action action') (position : Unit → Position) :
    C.Couples left right (Action.locate position action) (Action.locate position action') :=
  fun state state' hagree => (h state state' hagree).locate position

theorem Couples.fail (cause : Failure.Cause) :
    C.Couples left right (Action.fail cause : Action α) (Action.fail cause) := by
  intro state state' h
  exact .failed (.refl _) h.inStep

theorem Couples.failAt (cause : Failure.Cause) (position : Position) :
    C.Couples left right (Action.failAt cause position : Action α)
      (Action.failAt cause position) := by
  intro state state' h
  exact .failed (.refl _) h.inStep

theorem Couples.ofArithmetic (result : Except ArithmeticFault α) :
    C.Couples left right (Action.ofArithmetic result) (Action.ofArithmetic result) := by
  cases result with
  | ok value => exact Couples.pure value
  | error fault => exact Couples.fail (.arithmetic fault)

end Rules

end Coupling

/-! ## Scopes and frames -/

namespace Agree

theorem pushScope (h : Agree kept left state right state') (scope : ScopeId) :
    Agree kept left (state.pushScope left scope) right (state'.pushScope right scope) where
  graph := h.graph
  console := h.console
  callStack := by
    rw [State.callStack_pushScope, State.callStack_pushScope, h.callStack]
  current := by
    rw [State.currentScope_pushScope _ _ h.lt, State.currentScope_pushScope _ _ h.lt']
  stacked := by
    simp [State.scopeStack_pushScope _ _ h.lt]
  stacked' := by
    simp [State.scopeStack_pushScope _ _ h.lt']
  exist := (State.SameModules.pushScope left scope).sameUses.usesExist h.exist
  flat := h.flat
  bridged := by
    have hlends : (state.pushScope left scope).lends = state.lends :=
      State.lends_modifyEngine left fun _ => rfl
    rw [hlends]
    exact h.bridged

theorem pushFrame (h : Agree kept left state right state') (name : String) :
    Agree kept left (state.modifyCallStack left fun stack => stack.push name) right
      (state'.modifyCallStack right fun stack => stack.push name) where
  graph := h.graph
  console := h.console
  callStack := by
    rw [State.callStack_modifyCallStack _ _ h.lt, State.callStack_modifyCallStack _ _ h.lt',
      h.callStack]
  current := by
    rw [State.currentScope_modifyCallStack, State.currentScope_modifyCallStack, h.current]
  stacked := by
    rw [State.scopeStack_modifyCallStack]
    exact h.stacked
  stacked' := by
    rw [State.scopeStack_modifyCallStack]
    exact h.stacked'
  exist := (State.SameModules.pushFrame left name).sameUses.usesExist h.exist
  flat := h.flat
  bridged := by
    have hlends : (state.modifyCallStack left fun stack => stack.push name).lends = state.lends :=
      State.lends_modifyEngine left fun _ => rfl
    rw [hlends]
    exact h.bridged

end Agree

/-- The engine that borrows the stacks of another sees what that one sees. -/
theorem Agree.take (h : Agree kept left state right state') {owner : EngineId}
    (other : owner ≠ left) (exists' : owner < state.engines.size) :
    Agree kept owner (Action.Loan.take left owner state).2 right state' := by
  have howner := Action.Loan.engine_take_owner other exists'
  -- The scopes of the lender are on top, and there are some.
  obtain ⟨top, htop⟩ : ∃ top, (state.engine left).scopeStack.back? = some top := by
    have hstacked := h.stacked
    cases hback : (state.engine left).scopeStack.back? with
    | none => simp [Array.back?_eq_none_iff.1 hback] at hstacked
    | some top => exact ⟨top, rfl⟩
  refine ⟨h.graph.setForeign _ false, h.console, ?_, ?_, ?_, h.stacked', ?_, h.flat, Or.inr ?_⟩
  · rw [State.callStack, howner]
    exact h.callStack
  · rw [← h.current, State.currentScope, howner]
    simp [State.currentScope, Engine.currentScope, htop]
  · rw [howner]
    have hstacked := h.stacked
    simp only [Array.size_append]
    omega
  · exact (State.SameModules.take left owner).sameUses.usesExist h.exist
  · rw [State.lends_iff]
    refine ⟨left, by simpa using h.lt, ?_⟩
    rw [Action.Loan.engine_take_ne (Ne.symm other), State.setCallStack,
      State.engine_modifyEngine_self _ _ _ h.lt]

namespace InStep

variable {after after' : State}

/-- What has been lent is back where it was. -/
theorem giveBack {owner : EngineId} (other : owner ≠ left) (exists' : owner < state.engines.size)
    (h : InStep kept (Action.Loan.take left owner state).2 state' after after') :
    InStep kept state state'
      ((Action.Loan.take left owner state).1.giveBack left owner after) after' where
  graph := h.graph.setForeign _ _
  console := h.console
  engines := by
    rw [Action.Loan.engines_giveBack_congr h.engines]
    exact (Action.Loan.giveBack_take other exists').engines
  engines' := h.engines'
  config := h.config

theorem popScope {scope : ScopeId}
    (h : InStep kept (state.pushScope left scope) (state'.pushScope right scope) after after') :
    InStep kept state state' (after.popScope left) (after'.popScope right) where
  graph := h.graph
  console := h.console
  engines := State.engines_popScope h.engines
  engines' := State.engines_popScope h.engines'
  config := h.config

theorem popFrame {name : String}
    (h : InStep kept (state.modifyCallStack left fun stack => stack.push name)
      (state'.modifyCallStack right fun stack => stack.push name) after after') :
    InStep kept state state' (after.modifyCallStack left CallStack.pop)
      (after'.modifyCallStack right CallStack.pop) where
  graph := h.graph
  console := h.console
  engines := State.engines_popFrame h.engines
  engines' := State.engines_popFrame h.engines'
  config := h.config

end InStep

namespace Coupling

variable {C : Coupling} {α : Type} {action action' : Action α} {stack : CallStack}

theorem Pairs.withScope {scope : ScopeId}
    (h : C.Pairs stack (state.pushScope left scope) (state'.pushScope right scope)
      (action (state.pushScope left scope)) (action' (state'.pushScope right scope))) :
    C.Pairs stack state state' (Action.withScope left scope action state)
      (Action.withScope right scope action' state') := by
  unfold Action.withScope
  generalize action (state.pushScope left scope) = outcome at h
  generalize action' (state'.pushScope right scope) = outcome' at h
  cases h with
  | done hstep => exact .done hstep.popScope
  | failed halike hstep => exact .failed halike hstep.popScope
  | lost hlost => exact .lost hlost
  | exhausted => exact .exhausted

theorem Pairs.thenPop {name : String}
    (h : C.Pairs stack (state.modifyCallStack left fun stack => stack.push name)
      (state'.modifyCallStack right fun stack => stack.push name)
      (action (state.modifyCallStack left fun stack => stack.push name))
      (action' (state'.modifyCallStack right fun stack => stack.push name))) :
    C.Pairs stack state state'
      (Action.thenPop left action (state.modifyCallStack left fun stack => stack.push name))
      (Action.thenPop right action'
        (state'.modifyCallStack right fun stack => stack.push name)) := by
  unfold Action.thenPop
  generalize action (state.modifyCallStack left fun stack => stack.push name) = outcome at h
  generalize action' (state'.modifyCallStack right fun stack => stack.push name) = outcome' at h
  cases h with
  | done hstep => exact .done hstep.popFrame
  | failed halike hstep => exact .failed halike hstep.popFrame
  | lost hlost => exact .lost hlost
  | exhausted => exact .exhausted

/-- Reported on both sides, failures tell the same under whatever frames. -/
theorem Couples.reporting (h : C.Couples left right action action')
    (hagree : Agree C.kept left state right state') (outer : CallStack) :
    C.Pairs outer state state' (Action.reporting left action state)
      (Action.reporting right action' state') := by
  have hpairs := h state state' hagree
  unfold Action.reporting
  generalize action state = outcome at hpairs
  generalize action' state' = outcome' at hpairs
  cases hpairs with
  | done hstep => exact .done hstep
  | failed halike hstep =>
      refine .failed (halike.attach ?_ ?_ outer) hstep
      · change (State.callStack _ left).outermostFirst = _
        rw [State.callStack_congr hstep.engines]
      · change (State.callStack _ right).outermostFirst = _
        rw [State.callStack_congr hstep.engines', hagree.callStack]
  | lost hlost => exact .lost ⟨hlost.1, by simpa using hlost.2⟩
  | exhausted => exact .exhausted

theorem Couples.framed (h : C.Couples left right action action') (name : String)
    (hagree : Agree C.kept left state right state') (outer : CallStack) :
    C.Pairs outer state state'
      (Action.thenPop left (Action.reporting left action)
        (state.modifyCallStack left fun stack => stack.push name))
      (Action.thenPop right (Action.reporting right action')
        (state'.modifyCallStack right fun stack => stack.push name)) :=
  Pairs.thenPop (h.reporting (hagree.pushFrame name) outer)

theorem Couples.inFlowFrame (h : C.Couples left right action action') (frame : FlowFrame) :
    C.Couples left right (Action.inFlowFrame left frame action)
      (Action.inFlowFrame right frame action') := by
  intro state state' hagree
  exact h.framed frame.name hagree _

theorem Couples.inCallFrame (h : C.Couples left right action action') (name : String) :
    C.Couples left right (Action.inCallFrame left name (Action.reporting left action))
      (Action.inCallFrame right name (Action.reporting right action')) := by
  intro state state' hagree
  unfold Action.inCallFrame
  rw [← hagree.callStack]
  cases (state.callStack left).exceeded? with
  | some limit => exact .failed (.refl _) hagree.inStep
  | none => exact h.framed name hagree _

/-! ## Calls -/

/-- An evaluator and a runner on each side come to the same. -/
structure Knot (C : Coupling) (evaluate evaluate' : Evaluator) (run run' : Runner) : Prop where
  evaluates : ∀ {left right} expression,
    C.Couples left right (evaluate left expression) (evaluate' right expression)
  runs : ∀ {left right} statements,
    C.Couples left right (run left statements) (run' right statements)

section Knotted

variable {evaluate evaluate' : Evaluator} {run run' : Runner}

theorem Knot.all (knot : C.Knot evaluate evaluate' run run') (expressions : List Expression) :
    C.Couples left right (evaluate.all left expressions) (evaluate'.all right expressions) := by
  induction expressions with
  | nil => exact Couples.pure []
  | cons expression rest ih =>
      refine Couples.bind (knot.evaluates expression) fun value => ?_
      exact Couples.bind ih fun values => Couples.pure (value :: values)

theorem Pairs.console (h : Agree C.kept left state right state') (stack : CallStack)
    (verbs arguments : List Int64) :
    C.Pairs stack state state' (Call.console verbs arguments state)
      (Call.console verbs arguments state') := by
  have hstep : InStep C.kept state state' (state.callConsole verbs arguments).1
      (state'.callConsole verbs arguments).1 :=
    { h.inStep with console := by simp [State.callConsole, h.console] }
  have hresult : (state.callConsole verbs arguments).2 =
      (state'.callConsole verbs arguments).2 := by
    simp [State.callConsole, h.console]
  simp only [Call.console, hresult]
  cases (state'.callConsole verbs arguments).2 with
  | ok value => exact .done hstep
  | error failure => exact .failed (.refl _) hstep

theorem Knot.invoke (knot : C.Knot evaluate evaluate' run run') (ref : BlockRef) (called : String)
    (verbs arguments : List Int64) :
    C.Couples left right (Call.invoke run left ref called verbs arguments)
      (Call.invoke run' right ref called verbs arguments) := by
  intro state state' h
  have hbody := h.block Block.body (fun _ => rfl) ref
  unfold Call.invoke
  simp only [hbody]
  cases (state'.graph.block ref).body with
  | native =>
      simp only [Action.inCallFrame, ← h.callStack]
      cases (state.callStack left).exceeded? with
      | some limit => exact .failed (.refl _) h.inStep
      | none => exact Pairs.thenPop (Pairs.console (h.pushFrame called) _ verbs arguments)
  | interpreted init program =>
      have hscope : Call.scope (state.graph.block ref) (state.currentScope left) verbs arguments =
          Call.scope (state'.graph.block ref) (state'.currentScope right) verbs arguments := by
        rw [h.current]
        exact h.block (fun block => Call.scope block _ verbs arguments) (fun _ => rfl) ref
      have hadded := h.addScope
        (Call.scope (state'.graph.block ref) (state'.currentScope right) verbs arguments)
      have hentered := (h.after hadded).pushScope state.graph.scopes.size
      have hpairs := (knot.runs program).inCallFrame called _ _ hentered
      rw [State.callStack_pushScope] at hpairs
      simp only [hscope, State.addScope_snd, ← h.graph.size]
      exact (Pairs.withScope hpairs).from hadded

/-! ### Lending -/

/-- An action on borrowed stacks on the left comes to the same as without a loan on the right. -/
theorem Couples.lending {action action' : Action α} {owner : EngineId}
    (h : C.Couples owner right action action') (hagree : Agree C.kept left state right state')
    (other : owner ≠ left) (exists' : owner < state.engines.size) :
    C.Pairs (state.callStack left) state state' (Action.lending left owner action state)
      (action' state') := by
  have hborrowed := hagree.take other exists'
  have hpairs := h _ _ hborrowed
  rw [hborrowed.callStack, ← hagree.callStack] at hpairs
  unfold Action.lending Action.reporting
  simp only
  generalize action (Action.Loan.take left owner state).2 = outcome at hpairs
  generalize action' state' = outcome' at hpairs
  cases hpairs with
  | done hstep => exact .done (hstep.giveBack other exists')
  | failed halike hstep =>
      refine .failed (halike.attachLeft ?_) (hstep.giveBack other exists')
      change (State.callStack _ owner).outermostFirst = _
      rw [State.callStack_congr hstep.engines, hborrowed.callStack, hagree.callStack]
  | lost hlost => exact .lost ⟨hlost.1, by simpa using hlost.2⟩
  | exhausted => exact .exhausted

/-- On the left the stacks are lent where that is called for; on the right they never are. -/
theorem Knot.route (knot : C.Knot evaluate evaluate' run run') {found found' : FoundBlock}
    (same : found.block = found'.block) (called : String) (verbs arguments : List Int64) :
    C.Couples left right (Call.route run left found called verbs arguments)
      (Call.route run' right found' called verbs arguments) := by
  intro state state' h
  have hflat : Call.isLent state' right found' = false := by
    simp [Call.isLent, h.flat]
  unfold Call.route
  rw [hflat]
  cases hlent : Call.isLent state left found with
  | false =>
      simp only [same, Bool.false_eq_true, if_false]
      exact knot.invoke found'.block called verbs arguments state state' h
  | true =>
      have other := State.owner_ne_of_isLent hlent
      have exists' := h.exist.lt_of_isLent hlent
      have hlending := (knot.invoke found.block called verbs arguments).lending h other exists'
      rw [if_pos rfl, if_neg (by simp), ← same]
      exact hlending

theorem Knot.block (knot : C.Knot evaluate evaluate' run run') (name : String)
    (verbs arguments : List Expression) :
    C.Couples left right (Call.block evaluate run left name verbs arguments)
      (Call.block evaluate' run' right name verbs arguments) := by
  intro state state' h
  have hfound := h.findBlock? name
  unfold Call.block
  cases hleft : state.graph.findBlock? (state.currentScope left) name <;>
    cases hright : state'.graph.findBlock? (state'.currentScope right) name <;>
    rw [hleft, hright] at hfound
  · exact .failed (.refl _) h.inStep
  · cases hfound
  · cases hfound
  · rename_i found found'
    have hblock : found.block = found'.block := by simpa using hfound
    have hmissing : Call.mismatches (state.graph.block found.block) verbs.length arguments.length =
        Call.mismatches (state'.graph.block found'.block) verbs.length arguments.length := by
      rw [hblock]
      exact h.block (fun block => Call.mismatches block _ _) (fun _ => rfl) _
    simp only [hmissing]
    split
    · refine Couples.bind (knot.all verbs) (fun verbs => ?_) state state' h
      exact Couples.bind (knot.all arguments) fun arguments => knot.route hblock name verbs arguments
    · exact .failed (.refl _) h.inStep

/-! ### Slots -/

theorem Couples.access (op : SlotOp) (index value : Int64) :
    C.Couples left right (Slot.access left op index value) (Slot.access right op index value) := by
  intro state state' h
  unfold Slot.access
  rw [h.slotTarget?]
  cases Slot.target? state' right with
  | none => exact .failed (.refl _) h.inStep
  | some target =>
      have hstore := h.block Block.store (fun _ => rfl) target
      have hname := h.block Block.name (fun _ => rfl) target
      simp only [hstore, hname]
      cases (state'.graph.block target).store with
      | none => exact .failed (.refl _) h.inStep
      | some store =>
          cases op with
          | read =>
              simp only [Slot.read, (h.graph.scopes store).binding?]
              split
              · exact .done h.inStep
              · exact .failed (.refl _) h.inStep
          | write =>
              simp only [Slot.write, h.binds]
              split
              · obtain ⟨hgraph, houtcome⟩ := h.graph.update store (Slot.name index) value
                have hstep : InStep C.kept state state'
                    (state.updateBinding store (Slot.name index) value).1
                    (state'.updateBinding store (Slot.name index) value).1 :=
                  { h.inStep with graph := hgraph }
                have hsame : (state.updateBinding store (Slot.name index) value).2 =
                    (state'.updateBinding store (Slot.name index) value).2 := houtcome
                simp only [hsame]
                split
                · exact .failed (.refl _) hstep
                · exact .failed (.refl _) hstep
                · exact .done hstep
                · exact .done hstep
              · exact .done (h.modifyScope store fun _ _ hlike => hlike.push _ value .let)
          | delete =>
              simp only [Slot.delete, h.binds]
              split
              · exact .done (h.change (h.graph.delete store _))
              · exact .failed (.refl _) h.inStep

theorem Knot.slot (knot : C.Knot evaluate evaluate' run run') (op : SlotOp)
    (arguments : List Expression) :
    C.Couples left right (Call.slot evaluate left op arguments)
      (Call.slot evaluate' right op arguments) := by
  unfold Call.slot
  split
  · exact Couples.fail _
  · exact Couples.bind (knot.all arguments) fun values => Couples.access op _ _

end Knotted

end Coupling

end Bir
