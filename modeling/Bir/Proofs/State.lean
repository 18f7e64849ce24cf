import Bir.Engine.Action
import Bir.Proofs.ScopeGraph

/-!
# States — what an operation leaves alone

Each operation on states changes the scopes, one engine or the console, and leaves the rest as it
is.  This file has:

* one lemma for each part of a state that an operation leaves alone;
* `State.engine_modifyEngine` — what is read of an engine after a change;
* the pairs of operations that undo each other.
-/

namespace Bir

namespace CallStack

@[simp]
theorem pop_push (stack : CallStack) (name : String) : (stack.push name).pop = stack := by
  simp [pop, push]

end CallStack

namespace State

variable (state : State)

/-! ## Operations on the scopes -/

section Graph

variable (change : ScopeGraph → ScopeGraph) (scope : Scope) (id : ScopeId)
variable (changeScope : Scope → Scope) (name : String) (value : Int64)

@[simp]
theorem graph_modifyGraph : (state.modifyGraph change).graph = change state.graph := rfl

@[simp]
theorem graph_modifyScope :
    (state.modifyScope id changeScope).graph = state.graph.modify id changeScope := rfl

@[simp]
theorem engines_modifyScope : (state.modifyScope id changeScope).engines = state.engines := rfl

@[simp]
theorem graph_addScope : (state.addScope scope).1.graph = (state.graph.add scope).1 := rfl

@[simp]
theorem engines_addScope : (state.addScope scope).1.engines = state.engines := rfl

@[simp]
theorem addScope_snd : (state.addScope scope).2 = state.graph.scopes.size := rfl

@[simp]
theorem graph_updateBinding :
    (state.updateBinding id name value).1.graph = (state.graph.update id name value).1 := rfl

@[simp]
theorem engines_updateBinding : (state.updateBinding id name value).1.engines = state.engines :=
  rfl

end Graph

section Console

variable (verbs arguments : List Int64)

@[simp]
theorem graph_callConsole : (state.callConsole verbs arguments).1.graph = state.graph := rfl

end Console

/-! ## Operations on engines -/

section Engines

variable (id : EngineId) (change : Engine → Engine)

@[simp]
theorem graph_modifyEngine : (state.modifyEngine id change).graph = state.graph := rfl

@[simp]
theorem engines_modifyEngine :
    (state.modifyEngine id change).engines = state.engines.modify id change := rfl

@[simp]
theorem size_modifyEngine :
    (state.modifyEngine id change).engines.size = state.engines.size := by
  simp

theorem engine_of_size_le {id : EngineId} (h : state.engines.size ≤ id) :
    state.engine id = {} := by
  simp [engine, Array.getD_eq_getD_getElem?, h]

theorem engine_modifyEngine (id' : EngineId) :
    (state.modifyEngine id change).engine id' =
      if id = id' ∧ id' < state.engines.size then change (state.engine id')
      else state.engine id' := by
  simp only [engine, modifyEngine, Array.getD_eq_getD_getElem?, Array.getElem?_modify]
  by_cases hid : id = id'
  · by_cases hsize : id' < state.engines.size
    · simp [hid, hsize]
    · simp [hsize]
  · simp [hid]

theorem engine_modifyEngine_self (h : id < state.engines.size) :
    (state.modifyEngine id change).engine id = change (state.engine id) := by
  simp [engine_modifyEngine, h]

theorem engine_modifyEngine_ne {id id' : EngineId} (h : id ≠ id') :
    (state.modifyEngine id change).engine id' = state.engine id' := by
  simp [engine_modifyEngine, h]

/-- A part of all engines that a change leaves as it is stays as it is in the state. -/
theorem engine_modifyEngine_congr {β : Type} (part : Engine → β) {change : Engine → Engine}
    (h : ∀ engine, part (change engine) = part engine) (id' : EngineId) :
    part ((state.modifyEngine id change).engine id') = part (state.engine id') := by
  rw [engine_modifyEngine]
  split
  · exact h _
  · rfl

theorem engines_ext {state state' : State} (hsize : state'.engines.size = state.engines.size)
    (h : ∀ id, state'.engine id = state.engine id) : state'.engines = state.engines := by
  apply Array.ext hsize
  intro id hid hid'
  simpa [engine, Array.getD_eq_getD_getElem?, hid, hid'] using h id

theorem engine_congr {state state' : State} (h : state'.engines = state.engines) (id : EngineId) :
    state'.engine id = state.engine id := by
  simp [engine, h]

theorem callStack_congr {state state' : State} (h : state'.engines = state.engines)
    (id : EngineId) : state'.callStack id = state.callStack id := by
  simp [callStack, engine_congr h]

theorem currentScope_congr {state state' : State} (h : state'.engines = state.engines)
    (id : EngineId) : state'.currentScope id = state.currentScope id := by
  simp [currentScope, engine_congr h]

theorem modifyEngine_modifyEngine (change' : Engine → Engine) :
    (state.modifyEngine id change).modifyEngine id change' =
      state.modifyEngine id (change' ∘ change) := by
  simp only [modifyEngine, State.mk.injEq, true_and, and_true]
  apply Array.ext
  · simp
  · intro index h h'
    simp only [Array.getElem_modify]
    split <;> rfl

theorem modifyEngine_eq_self (h : change (state.engine id) = state.engine id) :
    state.modifyEngine id change = state := by
  have hengines : state.engines.modify id change = state.engines := by
    apply Array.ext
    · simp
    · intro index h' h''
      simp only [Array.getElem_modify]
      split
      · rename_i hindex
        subst hindex
        simpa [engine, Array.getD_eq_getD_getElem?, h''] using h
      · rfl
  simp [modifyEngine, hengines]

/-! ## Stacks -/

@[simp]
theorem graph_pushScope (scope : ScopeId) : (state.pushScope id scope).graph = state.graph := rfl

@[simp]
theorem graph_popScope : (state.popScope id).graph = state.graph := rfl

@[simp]
theorem graph_modifyCallStack (change : CallStack → CallStack) :
    (state.modifyCallStack id change).graph = state.graph := rfl

@[simp]
theorem callStack_pushScope (scope : ScopeId) (id' : EngineId) :
    (state.pushScope id scope).callStack id' = state.callStack id' := by
  unfold callStack pushScope
  exact state.engine_modifyEngine_congr id Engine.callStack (by intro _; rfl) id'

@[simp]
theorem callStack_popScope (id' : EngineId) :
    (state.popScope id).callStack id' = state.callStack id' := by
  unfold callStack popScope
  exact state.engine_modifyEngine_congr id Engine.callStack (by intro _; rfl) id'

@[simp]
theorem currentScope_modifyCallStack (change : CallStack → CallStack) (id' : EngineId) :
    (state.modifyCallStack id change).currentScope id' = state.currentScope id' := by
  unfold currentScope modifyCallStack
  exact state.engine_modifyEngine_congr id Engine.currentScope (by intro _; rfl) id'

@[simp]
theorem scopeStack_modifyCallStack (change : CallStack → CallStack) (id' : EngineId) :
    ((state.modifyCallStack id change).engine id').scopeStack = (state.engine id').scopeStack := by
  unfold modifyCallStack
  exact state.engine_modifyEngine_congr id Engine.scopeStack (by intro _; rfl) id'

variable {id} in
theorem scopeStack_pushScope (scope : ScopeId) (h : id < state.engines.size) :
    ((state.pushScope id scope).engine id).scopeStack = (state.engine id).scopeStack.push scope := by
  rw [pushScope, engine_modifyEngine_self _ _ _ h]

variable {id} in
theorem currentScope_pushScope (scope : ScopeId) (h : id < state.engines.size) :
    (state.pushScope id scope).currentScope id = scope := by
  simp [currentScope, Engine.currentScope, scopeStack_pushScope state scope h]

variable {id} in
/-- A scope that is added and pushed at once is the current one. -/
theorem currentScope_enter (scope : Scope) (new : ScopeId) (h : id < state.engines.size) :
    ((state.addScope scope).1.pushScope id new).currentScope id = new :=
  currentScope_pushScope _ new h

variable {id} in
theorem callStack_modifyCallStack (change : CallStack → CallStack) (h : id < state.engines.size) :
    (state.modifyCallStack id change).callStack id = change (state.callStack id) := by
  rw [callStack, modifyCallStack, engine_modifyEngine_self _ _ _ h]
  rfl

/-! ## Operations that undo each other -/

@[simp]
theorem popScope_pushScope (scope : ScopeId) : (state.pushScope id scope).popScope id = state := by
  unfold popScope pushScope
  rw [modifyEngine_modifyEngine]
  apply modifyEngine_eq_self
  simp

@[simp]
theorem modifyCallStack_pop_push (name : String) :
    (state.modifyCallStack id fun stack => stack.push name).modifyCallStack id CallStack.pop =
      state := by
  unfold modifyCallStack
  rw [modifyEngine_modifyEngine]
  apply modifyEngine_eq_self
  simp

variable {id state} {after : State}

theorem engines_popScope {scope : ScopeId} (h : after.engines = (state.pushScope id scope).engines) :
    (after.popScope id).engines = state.engines := by
  calc
    (after.popScope id).engines = ((state.pushScope id scope).popScope id).engines := by
          simp [popScope, h]
    _ = state.engines := by rw [popScope_pushScope]

theorem engines_popFrame {name : String}
    (h : after.engines = (state.modifyCallStack id fun stack => stack.push name).engines) :
    (after.modifyCallStack id CallStack.pop).engines = state.engines := by
  calc
    (after.modifyCallStack id CallStack.pop).engines
        = ((state.modifyCallStack id fun stack => stack.push name).modifyCallStack id
            CallStack.pop).engines := by
          simp [modifyCallStack, h]
    _ = state.engines := by rw [modifyCallStack_pop_push]

end Engines

end State

/-! ## Loans -/

namespace Action.Loan

variable (caller owner : EngineId) (state : State)

/-- The scope whose flag is lowered while a loan lasts. -/
@[simp]
theorem take_top : (take caller owner state).1.top =
    (state.setCallStack caller {}).currentScope owner := rfl

@[simp]
theorem take_callStack : (take caller owner state).1.callStack =
    ((state.setCallStack caller {}).engine owner).callStack := rfl

@[simp]
theorem take_scopes : (take caller owner state).1.scopes =
    ((state.setCallStack caller {}).engine owner).scopeStack.size := rfl

@[simp]
theorem take_wasForeign : (take caller owner state).1.wasForeign =
    (state.graph.get (take caller owner state).1.top).foreign := rfl

@[simp]
theorem graph_take : (take caller owner state).2.graph =
    state.graph.modify (take caller owner state).1.top
      (fun scope => { scope with foreign := false }) := rfl

@[simp]
theorem graph_giveBack (terms : Action.Loan) : (terms.giveBack caller owner state).graph =
    state.graph.modify terms.top (fun scope => { scope with foreign := terms.wasForeign }) := rfl

@[simp]
theorem size_take : (take caller owner state).2.engines.size = state.engines.size := by
  simp [take, State.setCallStack]

@[simp]
theorem size_giveBack (terms : Action.Loan) :
    (terms.giveBack caller owner state).engines.size = state.engines.size := by
  simp [giveBack, State.setCallStack]

variable {caller owner state}

/-- The owner has its own scopes below those of the caller. -/
theorem engine_take_owner (other : owner ≠ caller) (exists' : owner < state.engines.size) :
    (take caller owner state).2.engine owner =
      { state.engine owner with
        callStack := (state.engine caller).callStack,
        scopeStack := (state.engine owner).scopeStack ++ (state.engine caller).scopeStack } := by
  have hsize : owner < (state.setCallStack caller {}).engines.size := by
    simpa [State.setCallStack] using exists'
  have howner : (state.setCallStack caller {}).engine owner = state.engine owner :=
    state.engine_modifyEngine_ne _ other.symm
  calc
    (take caller owner state).2.engine owner
        = ((state.setCallStack caller {}).modifyEngine owner fun engine =>
            { engine with
              callStack := (state.engine caller).callStack,
              scopeStack := engine.scopeStack ++ (state.engine caller).scopeStack }).engine owner :=
          State.engine_congr rfl owner
    _ = _ := by rw [State.engine_modifyEngine_self _ _ _ hsize, howner]

/-- No other engine than the owner has another scope stack than before. -/
theorem engine_take_ne {id : EngineId} (h : id ≠ owner) :
    (take caller owner state).2.engine id = (state.setCallStack caller {}).engine id := by
  calc
    (take caller owner state).2.engine id
        = ((state.setCallStack caller {}).modifyEngine owner fun engine =>
            { engine with
              callStack := (state.engine caller).callStack,
              scopeStack := engine.scopeStack ++ (state.engine caller).scopeStack }).engine id :=
          State.engine_congr rfl id
    _ = _ := State.engine_modifyEngine_ne _ _ h.symm

theorem engine_giveBack_owner (terms : Action.Loan) (other : owner ≠ caller)
    (exists' : owner < state.engines.size) :
    (terms.giveBack caller owner state).engine owner =
      { state.engine owner with
        callStack := terms.callStack,
        scopeStack := (state.engine owner).scopeStack.take terms.scopes } := by
  calc
    (terms.giveBack caller owner state).engine owner
        = (((state.modifyEngine owner fun engine =>
            { engine with
              callStack := terms.callStack,
              scopeStack := engine.scopeStack.take terms.scopes }).modifyScope terms.top fun scope =>
              { scope with foreign := terms.wasForeign }).setCallStack caller
            (state.engine owner).callStack).engine owner := rfl
    _ = (state.modifyEngine owner fun engine =>
            { engine with
              callStack := terms.callStack,
              scopeStack := engine.scopeStack.take terms.scopes }).engine owner :=
          State.engine_modifyEngine_ne _ _ other.symm
    _ = _ := State.engine_modifyEngine_self _ _ _ exists'

theorem engine_giveBack_ne (terms : Action.Loan) {id : EngineId} (h : id ≠ owner) :
    (terms.giveBack caller owner state).engine id =
      (state.setCallStack caller (state.engine owner).callStack).engine id := by
  calc
    (terms.giveBack caller owner state).engine id
        = ((state.modifyEngine owner fun engine =>
            { engine with
              callStack := terms.callStack,
              scopeStack := engine.scopeStack.take terms.scopes }).setCallStack caller
            (state.engine owner).callStack).engine id := State.engine_congr rfl id
    _ = _ := by
          simp only [State.setCallStack, State.engine_modifyEngine, State.size_modifyEngine]
          simp [h.symm]

theorem engines_giveBack_congr {after : State} (h : after.engines = state.engines)
    (terms : Action.Loan) : (terms.giveBack caller owner after).engines =
      (terms.giveBack caller owner state).engines := by
  simp [giveBack, State.setCallStack, h, State.engine_congr h]

end Action.Loan

end Bir
