import Bir.Proofs.Stacks

/-!
# Levels — current scopes, now and wherever control returns to

As brackets are ended one by one, control passes from level to level, and at each of them an engine
goes on in the scope that it was in.  This file defines:

* `State.EndsIn` — the scope stack of an engine ends in a good scope;
* `State.Levels` — it does so at every level, for what is good there;
* `State.KeepsStacks` — the engines of one state have the same scope stacks in another.

`State.Levels.move` and `State.Levels.loadMove` are what this is for: a move has to see to the level
that it opens, and to no other.
-/

namespace Bir

namespace State

/-- The scope stack of an engine ends in a good scope. -/
def EndsIn (good : ScopeId → Prop) (self : EngineId) (state : State) : Prop :=
  ∃ scope, (state.engine self).scopeStack.back? = some scope ∧ good scope

/-- The current scope of the engine in control is good for the brackets that are open, and so it
will be wherever control returns to, as brackets are ended one by one. -/
def Levels (good : List Bracket → EngineId → ScopeId → Prop) :
    List Bracket → EngineId → State → Prop
  | [], self, state => EndsIn (good [] self) self state
  | bracket :: pending, self, state =>
    EndsIn (good (bracket :: pending) self) self state ∧
      Levels good pending (bracket.outer self) (bracket.close self state)

/-- The engines of a state have the same scope stacks in another one, which may have more. -/
structure KeepsStacks (state state' : State) : Prop where
  size : state.engines.size ≤ state'.engines.size
  scopeStack : ∀ id < state.engines.size,
    (state'.engine id).scopeStack = (state.engine id).scopeStack

/-! ## Current scopes -/

section EndsIn

variable {good good' : ScopeId → Prop} {self : EngineId} {state state' : State}

namespace EndsIn

theorem mono (h : EndsIn good self state) (weaker : ∀ scope, good scope → good' scope) :
    EndsIn good' self state := by
  rcases h with ⟨scope, hback, hgood⟩
  exact ⟨scope, hback, weaker scope hgood⟩

theorem of_scopeStack (h : EndsIn good self state)
    (same : (state'.engine self).scopeStack = (state.engine self).scopeStack) :
    EndsIn good self state' := by
  unfold EndsIn
  rw [same]
  exact h

theorem currentScope (h : EndsIn good self state) : good (state.currentScope self) := by
  rcases h with ⟨scope, hback, hgood⟩
  simpa [State.currentScope, Engine.currentScope, hback] using hgood

/-- A scope stack that ends in some scope ends in the current one. -/
theorem of_currentScope (h : EndsIn good self state) (now : good' (state.currentScope self)) :
    EndsIn good' self state := by
  rcases h with ⟨scope, hback, -⟩
  have hcurrent : state.currentScope self = scope := by
    simp [State.currentScope, Engine.currentScope, hback]
  exact ⟨scope, hback, hcurrent ▸ now⟩

/-- An engine that is not there has no scopes. -/
theorem lt (h : EndsIn good self state) : self < state.engines.size := by
  rcases h with ⟨scope, hback, -⟩
  rcases Nat.lt_or_ge self state.engines.size with hlt | hge
  · exact hlt
  · rw [state.engine_of_size_le hge] at hback
    cases hback

end EndsIn

end EndsIn

/-! ## Kept stacks -/

namespace KeepsStacks

variable {state state' : State}

theorem of_engines (h : state'.engines = state.engines) : KeepsStacks state state' where
  size := Nat.le_of_eq (by rw [h])
  scopeStack id _ := by rw [engine_congr h]

/-- One engine may change as long as its scope stack changes in the same way. -/
theorem modifyEngine (h : KeepsStacks state state') (id : EngineId)
    {change change' : Engine → Engine}
    (hchange : ∀ engine engine' : Engine, engine'.scopeStack = engine.scopeStack →
      (change' engine').scopeStack = (change engine).scopeStack) :
    KeepsStacks (state.modifyEngine id change) (state'.modifyEngine id change') where
  size := by simpa using h.size
  scopeStack id' hid' := by
    have hlt : id' < state.engines.size := by simpa using hid'
    have hlt' : id' < state'.engines.size := Nat.lt_of_lt_of_le hlt h.size
    have hsame := h.scopeStack id' hlt
    by_cases hid : id = id'
    · simpa [engine_modifyEngine, hid, hlt, hlt'] using hchange _ _ hsame
    · simpa [engine_modifyEngine, hid] using hsame

/-- Stacks that are the same stay the same when a bracket is closed. -/
theorem close (h : KeepsStacks state state') (self : EngineId) (bracket : Bracket) :
    KeepsStacks (bracket.close self state) (bracket.close self state') := by
  cases bracket with
  | scope => exact h.modifyEngine self fun _ _ hsame => by simp [hsame]
  | frame => exact h.modifyEngine self fun _ _ hsame => hsame
  -- Of the three steps that end a loan, only the first one changes a scope stack.
  | loan terms caller =>
      have hreturned : KeepsStacks
          (state.modifyEngine self fun engine =>
            { engine with
              callStack := terms.callStack, scopeStack := engine.scopeStack.take terms.scopes })
          (state'.modifyEngine self fun engine =>
            { engine with
              callStack := terms.callStack, scopeStack := engine.scopeStack.take terms.scopes }) :=
        h.modifyEngine self fun _ _ hsame => by simp [hsame]
      have hflagged : KeepsStacks
          ((state.modifyEngine self fun engine =>
            { engine with
              callStack := terms.callStack,
              scopeStack := engine.scopeStack.take terms.scopes }).modifyScope terms.top
            fun scope => { scope with foreign := terms.wasForeign })
          ((state'.modifyEngine self fun engine =>
            { engine with
              callStack := terms.callStack,
              scopeStack := engine.scopeStack.take terms.scopes }).modifyScope terms.top
            fun scope => { scope with foreign := terms.wasForeign }) :=
        ⟨hreturned.size, hreturned.scopeStack⟩
      exact hflagged.modifyEngine caller fun _ _ hsame => hsame
  | _ => exact h

end KeepsStacks

/-! ## Levels -/

namespace Levels

variable {good good' : List Bracket → EngineId → ScopeId → Prop}
variable {pending : List Bracket} {self : EngineId} {state state' : State}

theorem endsIn (h : Levels good pending self state) : EndsIn (good pending self) self state := by
  cases pending with
  | nil => exact h
  | cons bracket pending => exact h.1

theorem current (h : Levels good pending self state) :
    good pending self (state.currentScope self) := h.endsIn.currentScope

/-- What is good may change at the levels that there are. -/
theorem mono_of_suffix (h : Levels good pending self state)
    (weaker : ∀ level self scope, level <:+ pending → good level self scope →
      good' level self scope) : Levels good' pending self state := by
  induction pending generalizing self state with
  | nil => exact h.mono fun scope => weaker [] self scope List.suffix_rfl
  | cons bracket pending ih =>
      refine ⟨h.1.mono fun scope => weaker _ self scope List.suffix_rfl, ih h.2 ?_⟩
      exact fun level self scope hlevel => weaker level self scope (hlevel.trans (List.suffix_cons ..))

theorem mono (h : Levels good pending self state)
    (weaker : ∀ pending self scope, good pending self scope → good' pending self scope) :
    Levels good' pending self state :=
  h.mono_of_suffix fun level self scope _ => weaker level self scope

theorem of_stacks (h : Levels good pending self state) (same : KeepsStacks state state') :
    Levels good pending self state' := by
  have hends : EndsIn (good pending self) self state' :=
    h.endsIn.of_scopeStack (same.scopeStack self h.endsIn.lt)
  -- Bracket by bracket: stacks that are the same are closed in the same way.
  induction pending generalizing self state state' with
  | nil => exact hends
  | cons bracket pending ih =>
      have hclose := same.close self bracket
      have hnext := h.2.endsIn.of_scopeStack (hclose.scopeStack _ h.2.endsIn.lt)
      exact ⟨hends, ih h.2 hclose hnext⟩

theorem of_engines (h : Levels good pending self state) (engines : state'.engines = state.engines) :
    Levels good pending self state' :=
  h.of_stacks (.of_engines engines)

/-! ## Opened levels -/

/-- A bracket that changes no stack opens a level in the same scope. -/
theorem push {bracket : Bracket} (now : good (bracket :: pending) self (state'.currentScope self))
    (outer : bracket.outer self = self) (close : bracket.close self state' = state')
    (h : Levels good pending self state) (engines : state'.engines = state.engines) :
    Levels good (bracket :: pending) self state' := by
  have hsame := h.of_engines engines
  refine ⟨hsame.endsIn.of_currentScope now, ?_⟩
  rw [outer, close]
  exact hsame

theorem pushScope (h : Levels good pending self state) {scope : ScopeId}
    (now : good (.scope :: pending) self ((state.pushScope self scope).currentScope self)) :
    Levels good (.scope :: pending) self (state.pushScope self scope) := by
  have hlt := h.endsIn.lt
  rw [state.currentScope_pushScope scope hlt] at now
  constructor
  · refine ⟨scope, ?_, now⟩
    rw [state.scopeStack_pushScope scope hlt]
    simp
  · change Levels good pending self ((state.pushScope self scope).popScope self)
    rw [popScope_pushScope]
    exact h

/-- Below a scope that was entered, all is as it was. -/
theorem of_pushScope {scope : ScopeId}
    (h : Levels good (.scope :: pending) self (state.pushScope self scope)) :
    Levels good pending self state := by
  have hbelow : Levels good pending self ((state.pushScope self scope).popScope self) := h.2
  rwa [popScope_pushScope] at hbelow

theorem pushFrame (h : Levels good pending self state) {name : String}
    (now : good (.frame :: pending) self
      ((state.modifyCallStack self fun stack => stack.push name).currentScope self)) :
    Levels good (.frame :: pending) self
      (state.modifyCallStack self fun stack => stack.push name) := by
  rw [state.currentScope_modifyCallStack] at now
  constructor
  · exact (h.endsIn.of_currentScope now).of_scopeStack
      (state.scopeStack_modifyCallStack self _ self)
  · change Levels good pending self
      ((state.modifyCallStack self fun stack => stack.push name).modifyCallStack self CallStack.pop)
    rw [modifyCallStack_pop_push]
    exact h

/-- A borrower goes on in the current scope of the lender. -/
theorem currentScope_take (h : Levels good pending self state) {owner : EngineId}
    (other : owner ≠ self) (exists' : owner < state.engines.size) :
    (Action.Loan.take self owner state).2.currentScope owner = state.currentScope self := by
  rcases h.endsIn with ⟨scope, hback, -⟩
  simp [State.currentScope, Engine.currentScope, Action.Loan.engine_take_owner other exists', hback]

theorem lend (h : Levels good pending self state) {owner : EngineId} (other : owner ≠ self)
    (exists' : owner < state.engines.size)
    (now : good (.loan (Action.Loan.take self owner state).1 self :: pending) owner
      ((Action.Loan.take self owner state).2.currentScope owner)) :
    Levels good (.loan (Action.Loan.take self owner state).1 self :: pending) owner
      (Action.Loan.take self owner state).2 := by
  have hcurrent := h.currentScope_take other exists'
  rcases h.endsIn with ⟨scope, hback, -⟩
  have hscope : state.currentScope self = scope := by
    simp [State.currentScope, Engine.currentScope, hback]
  constructor
  · refine ⟨scope, ?_, hscope ▸ hcurrent ▸ now⟩
    rw [Action.Loan.engine_take_owner other exists']
    simp [hback]
  · have hback := Action.Loan.giveBack_take other exists'
    exact h.of_engines hback.engines

/-! ## Moves -/

variable {moment moment' : Moment}

/-- A move opens a level unless brackets stay open or are ended. -/
theorem opens {pending pending' : List Bracket} (h : pending.length ≤ pending'.length)
    (other : pending' ≠ pending) : ¬ pending' <:+ pending := by
  intro hsuffix
  exact other (hsuffix.eq_of_length_le h)

/-- A move of an evaluation has to see to the level that it opens. -/
theorem move {allowed : EngineId → Statement → Prop}
    (h : Levels good moment.pending moment.self moment.state) (exist : moment.state.UsesExist)
    (move : Move allowed moment moment')
    (now : ¬ moment'.pending <:+ moment.pending →
      good moment'.pending moment'.self (moment'.state.currentScope moment'.self)) :
    Levels good moment'.pending moment'.self moment'.state := by
  cases move with
  | openBinding => exact push (now (opens (by simp) (by simp))) rfl rfl h rfl
  | openBlock => exact push (now (opens (by simp) (by simp))) rfl rfl h rfl
  | openImplementing => exact push (now (opens (by simp) (by simp))) rfl rfl h rfl
  | openCall => exact push (now (opens (by simp) (by simp))) rfl rfl h rfl
  -- A store takes the place of none.
  | attachStore => exact push (now (opens (by simp) (by simp))) rfl rfl h.2 rfl
  | makeStore => exact push (now (opens (by simp) (by simp))) rfl rfl h.2 rfl
  | enterStore => exact h.pushScope (now (opens (by simp) (by simp)))
  | @enterCall pending self state ref awaited interpreted verbs arguments brought =>
      have hsame := h.of_engines (state.engines_addScope (Call.scope (state.graph.block ref)
        (state.currentScope self) verbs arguments))
      exact hsame.pushScope (now (opens (by simp) (by simp)))
  | @enterTurn pending self state placeholder index =>
      have hsame := h.of_engines
        (state.engines_addScope (Evaluation.turnScope placeholder (state.currentScope self) index))
      exact hsame.pushScope (now (opens (by simp) (by simp)))
  | enterFlow => exact h.pushFrame (now (opens (by simp) (by simp)))
  | enterFrame => exact h.pushFrame (now (opens (by simp) (by simp)))
  | @lend pending self state found owner owned lent =>
      have hexists : owner < state.engines.size := owned ▸ exist.lt_of_isLent lent
      exact h.lend (owned ▸ owner_ne_of_isLent lent) hexists (now (opens (by simp) (by simp)))
  -- What is ended returns to the level below.
  | leaveScope => exact h.2
  | leaveFrame => exact h.2
  | giveBack => exact h.2
  | dropBinding => exact h.2
  | dropBlock => exact h.2
  | closeCall => exact h.2
  | closeBinding => exact h.2.of_engines rfl
  | closeBlock => exact h.2.of_engines rfl
  | closeSeeded => exact h.2.of_engines rfl
  | _ => exact h.of_engines rfl

/-- A move of loading has to see to the level that it opens. -/
theorem loadMove (h : Levels good moment.pending moment.self moment.state)
    (move : LoadMove moment moment')
    (now : ¬ moment'.pending <:+ moment.pending →
      good moment'.pending moment'.self (moment'.state.currentScope moment'.self)) :
    Levels good moment'.pending moment'.self moment'.state := by
  cases move with
  | @read pending self state program parsed =>
      refine h.of_stacks ⟨by simp, fun id hid => ?_⟩
      exact state.engine_modifyEngine_congr self Engine.scopeStack (by intro _; rfl) id
  | native => exact h.of_engines rfl
  | beginImports =>
      exact push (now (opens (by simp) (by simp))) rfl rfl h rfl
  | endImports => exact h.2.of_engines rfl
  | @openModule pending self state path content =>
      have hsame : KeepsStacks state (state.addEngine path content).1 :=
        { size := by simp
          scopeStack := fun id hid => by rw [engine_addEngine_of_lt path content hid] }
      have hnew : EndsIn (fun _ => True) state.engines.size (state.addEngine path content).1 := by
        refine ⟨state.graph.scopes.size, ?_, trivial⟩
        simp [engine_addEngine]
      exact ⟨hnew.of_currentScope (now (opens (by simp) (by simp))), h.of_stacks hsame⟩
  | dropModule => exact h.2
  | @expose pending importer module state =>
      refine h.2.of_stacks ⟨Nat.le_of_eq (state.size_expose importer module).symm, fun id _ => ?_⟩
      exact engine_expose_congr Engine.scopeStack (by intro _ _; rfl) id

end Levels

end State

end Bir
