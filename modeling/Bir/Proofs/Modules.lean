import Bir.Proofs.Move
import Bir.Proofs.State

/-!
# Modules — the engines of a run

An evaluation changes the stacks of engines and nothing else about them.  Loading adds engines and
lets an engine use others.  This file defines:

* `State.UsesExist` — the modules that engines use are engines of the run;
* `State.SameModules` — the same engines, whatever is on their stacks;
* `Moment.Manned` — the engines that a moment names are engines of the run.
-/

namespace Bir

/-! ## Engines without their stacks -/

/-- An engine without its stacks. -/
def Engine.bare (engine : Engine) : Engine := { engine with callStack := {}, scopeStack := #[] }

/-- The modules that engines use are engines of the run. -/
def State.UsesExist (state : State) : Prop :=
  ∀ id, ∀ used ∈ (state.engine id).uses, used < state.engines.size

/-- The engine that control returns to when a bracket is closed. -/
def Bracket.waiting? : Bracket → Option EngineId
  | .loan _ caller => some caller
  | .module importer => some importer
  | _ => none

/-- The engines that a moment names are engines of the run. -/
structure Moment.Manned (moment : Moment) : Prop where
  uses : moment.state.UsesExist
  self : moment.self < moment.state.engines.size
  waiting : ∀ bracket ∈ moment.pending, ∀ id ∈ bracket.waiting?, id < moment.state.engines.size

namespace State

/-- The same engines use the same modules. -/
structure SameUses (state state' : State) : Prop where
  size : state'.engines.size = state.engines.size
  uses : ∀ id, (state'.engine id).uses = (state.engine id).uses

namespace SameUses

variable {state state' : State}

theorem of_engines (h : state'.engines = state.engines) : SameUses state state' where
  size := by rw [h]
  uses id := by rw [engine_congr h]

theorem modifyEngine (id : EngineId) {change : Engine → Engine}
    (h : ∀ engine, (change engine).uses = engine.uses) :
    SameUses state (state.modifyEngine id change) where
  size := size_modifyEngine state id change
  uses := engine_modifyEngine_congr state id Engine.uses h

theorem usesExist (h : SameUses state state') (exist : state.UsesExist) : state'.UsesExist := by
  intro id used hused
  rw [h.uses] at hused
  rw [h.size]
  exact exist id used hused

end SameUses

/-- The same engines have the same sources, roots and modules, whatever is on their stacks. -/
structure SameModules (state state' : State) : Prop where
  size : state'.engines.size = state.engines.size
  bare : ∀ id, (state'.engine id).bare = (state.engine id).bare

namespace SameModules

variable {state state' state'' : State}

theorem of_engines (h : state'.engines = state.engines) : SameModules state state' where
  size := by rw [h]
  bare id := by rw [engine_congr h]

theorem trans (h : SameModules state state') (h' : SameModules state' state'') :
    SameModules state state'' where
  size := h'.size.trans h.size
  bare id := (h'.bare id).trans (h.bare id)

section Parts

variable (h : SameModules state state') (id : EngineId)
include h

/-- What is read of an engine without its stacks is the same. -/
theorem part {β : Type} (part : Engine → β) (unstacked : ∀ engine, part engine.bare = part engine)
    (id : EngineId) : part (state'.engine id) = part (state.engine id) := by
  rw [← unstacked (state'.engine id), h.bare, unstacked]

theorem uses : (state'.engine id).uses = (state.engine id).uses :=
  h.part Engine.uses (by intro _; rfl) id

theorem root : (state'.engine id).root = (state.engine id).root :=
  h.part Engine.root (by intro _; rfl) id

theorem content : (state'.engine id).content = (state.engine id).content :=
  h.part Engine.content (by intro _; rfl) id

theorem program : (state'.engine id).program = (state.engine id).program :=
  h.part Engine.program (by intro _; rfl) id

end Parts

theorem sameUses (h : SameModules state state') : SameUses state state' := ⟨h.size, h.uses⟩

theorem modifyEngine (id : EngineId) {change : Engine → Engine}
    (h : ∀ engine, (change engine).bare = engine.bare) :
    SameModules state (state.modifyEngine id change) where
  size := size_modifyEngine state id change
  bare := engine_modifyEngine_congr state id Engine.bare h

theorem pushScope (id : EngineId) (scope : ScopeId) :
    SameModules state (state.pushScope id scope) :=
  modifyEngine id fun _ => rfl

theorem popScope (id : EngineId) : SameModules state (state.popScope id) :=
  modifyEngine id fun _ => rfl

theorem setCallStack (id : EngineId) (stack : CallStack) :
    SameModules state (state.setCallStack id stack) :=
  modifyEngine id fun _ => rfl

theorem take (caller owner : EngineId) :
    SameModules state (Action.Loan.take caller owner state).2 := by
  have hlent : SameModules state (state.setCallStack caller {}) := setCallStack caller {}
  have hborrowed : SameModules (state.setCallStack caller {})
      ((state.setCallStack caller {}).modifyEngine owner fun engine =>
        { engine with
          callStack := (state.engine caller).callStack,
          scopeStack := engine.scopeStack ++ (state.engine caller).scopeStack }) :=
    modifyEngine owner fun _ => rfl
  exact (hlent.trans hborrowed).trans (of_engines rfl)

theorem giveBack (terms : Action.Loan) (caller owner : EngineId) :
    SameModules state (terms.giveBack caller owner state) := by
  have hreturned : SameModules state (state.modifyEngine owner fun engine =>
      { engine with
        callStack := terms.callStack, scopeStack := engine.scopeStack.take terms.scopes }) :=
    modifyEngine owner fun _ => rfl
  exact (hreturned.trans (of_engines (by rfl))).trans (setCallStack caller _)

theorem pushFrame (id : EngineId) (name : String) :
    SameModules state (state.modifyCallStack id fun stack => stack.push name) :=
  modifyEngine id fun _ => rfl

end SameModules

/-- What is loaded below an engine is an engine of the run. -/
theorem UsesExist.lt_of_usesWithin {state : State} (h : state.UsesExist) {target : EngineId}
    {depth : Nat} {id : EngineId} (huses : state.usesWithin target depth id = true) :
    target < state.engines.size := by
  induction depth generalizing id with
  | zero => simp [usesWithin] at huses
  | succ depth ih =>
      simp only [usesWithin, Bool.or_eq_true, List.contains_iff_mem, List.any_eq_true] at huses
      rcases huses with hmem | ⟨used, -, hused⟩
      · exact h id target hmem
      · exact ih hused

theorem UsesExist.lt_of_isLent {state : State} (h : state.UsesExist) {self : EngineId}
    {found : FoundBlock} (lent : Call.isLent state self found = true) :
    (state.graph.block found.block).owner < state.engines.size := by
  simp only [Call.isLent, Bool.and_eq_true] at lent
  exact h.lt_of_usesWithin lent.2

end State

/-! ## New engines and new uses -/

@[simp]
theorem State.graph_addEngine (state : State) (path : Path) (content : String) :
    (state.addEngine path content).1.graph = (state.graph.add {}).1 := rfl

@[simp]
theorem State.size_addEngine (state : State) (path : Path) (content : String) :
    (state.addEngine path content).1.engines.size = state.engines.size + 1 := by
  simp [addEngine]

theorem State.graph_expose (state : State) (importer module : EngineId) :
    (state.expose importer module).graph =
      (state.graph.modify (state.currentScope module) (fun scope =>
        { scope with immutable := true, foreign := true })).modify (state.engine importer).root
          (fun root => root.addParent (state.currentScope module)) := rfl

@[simp]
theorem State.size_expose (state : State) (importer module : EngineId) :
    (state.expose importer module).engines.size = state.engines.size := by
  simp [expose]

theorem State.engine_addEngine (state : State) (path : Path) (content : String) (id : EngineId) :
    (state.addEngine path content).1.engine id =
      if id = state.engines.size then
        { path, content, callStack := { limit := some state.config.callLimit },
          scopeStack := #[state.graph.scopes.size], root := state.graph.scopes.size }
      else state.engine id := by
  simp only [State.engine, State.addEngine, Array.getD_eq_getD_getElem?, State.addScope_snd,
    State.engines_addScope, Array.getElem?_push]
  split <;> rfl

theorem State.engine_expose (state : State) (importer module id : EngineId) :
    (state.expose importer module).engine id =
      if importer = id ∧ id < state.engines.size then
        { state.engine id with uses := (state.engine id).uses ++ [module] }
      else state.engine id := by
  simp only [State.expose, State.engine_modifyEngine]
  rfl

namespace State

section AddEngine

variable {state : State} (path : Path) (content : String)

theorem engine_addEngine_of_lt {id : EngineId} (exists' : id < state.engines.size) :
    (state.addEngine path content).1.engine id = state.engine id := by
  simp [engine_addEngine, Nat.ne_of_lt exists']

/-- An engine is added to the end. -/
theorem lt_addEngine {id : EngineId} (h : id < (state.addEngine path content).1.engines.size) :
    id < state.engines.size ∨ id = state.engines.size := by
  rw [state.size_addEngine] at h
  exact Nat.lt_or_eq_of_le (Nat.le_of_lt_succ h)

/-- An engine that is added uses no module. -/
theorem uses_addEngine (id : EngineId) :
    ((state.addEngine path content).1.engine id).uses = (state.engine id).uses := by
  by_cases hid : id = state.engines.size
  · -- An engine that is not there uses none either.
    rw [hid, state.engine_of_size_le (Nat.le_refl _)]
    simp [engine_addEngine]
  · simp [engine_addEngine, hid]

theorem UsesExist.addEngine (h : state.UsesExist) :
    (state.addEngine path content).1.UsesExist := by
  intro id used hused
  rw [uses_addEngine] at hused
  rw [size_addEngine]
  exact Nat.lt_succ_of_lt (h id used hused)

end AddEngine

section Expose

variable {state : State} {importer module : EngineId}

/-- Nothing about engines changes when a module is exposed, but for the modules they use. -/
theorem engine_expose_congr {β : Type} (part : Engine → β)
    (h : ∀ engine uses, part { engine with uses } = part engine) (id : EngineId) :
    part ((state.expose importer module).engine id) = part (state.engine id) := by
  rw [engine_expose]
  split
  · exact h _ _
  · rfl

/-- The importer uses the module, and all else that it and others used. -/
theorem mem_uses_expose {id used : EngineId}
    (h : used ∈ ((state.expose importer module).engine id).uses) :
    used ∈ (state.engine id).uses ∨ used = module := by
  rw [engine_expose] at h
  split at h
  · rcases List.mem_append.1 h with hold | hnew
    · exact Or.inl hold
    · exact Or.inr (List.mem_singleton.1 hnew)
  · exact Or.inl h

theorem UsesExist.expose (h : state.UsesExist) (exists' : module < state.engines.size) :
    (state.expose importer module).UsesExist := by
  intro id used hused
  rw [size_expose]
  rcases mem_uses_expose hused with hold | rfl
  · exact h id used hold
  · exact exists'

end Expose

end State

/-! ## Moves -/

/-- No move of an evaluation changes engines but for their stacks. -/
theorem Move.sameModules {allowed : EngineId → Statement → Prop} {moment moment' : Moment}
    (move : Move allowed moment moment') :
    State.SameModules moment.state moment'.state := by
  cases move with
  | enterStore => exact .pushScope _ _
  | enterCall => exact (State.SameModules.of_engines (by rfl)).trans (.pushScope _ _)
  | enterTurn => exact (State.SameModules.of_engines (by rfl)).trans (.pushScope _ _)
  | leaveScope => exact .popScope _
  | enterFlow => exact .pushFrame _ _
  | enterFrame => exact .pushFrame _ _
  | leaveFrame => exact .modifyEngine _ fun _ => rfl
  | lend => exact .take _ _
  | giveBack => exact .giveBack _ _ _
  | _ => exact .of_engines rfl

/-- No move of an evaluation changes what the run was told. -/
theorem Move.config {allowed : EngineId → Statement → Prop} {moment moment' : Moment}
    (move : Move allowed moment moment') : moment'.state.config = moment.state.config := by
  cases move <;> rfl

theorem LoadMove.config {moment moment' : Moment} (move : LoadMove moment moment') :
    moment'.state.config = moment.state.config := by
  cases move <;> rfl

theorem LoadMove.files {moment moment' : Moment} (move : LoadMove moment moment') :
    moment'.state.files = moment.state.files := by
  cases move <;> rfl

namespace Moment.Manned

/-- An engine may be looked at with all brackets left out. -/
theorem alone {pending : List Bracket} {self : EngineId} {state : State}
    (h : Manned ⟨pending, self, state⟩) : Manned ⟨[], self, state⟩ where
  uses := h.uses
  self := h.self
  waiting bracket hmem := by cases hmem

/-- Engines stay engines of the run while the moment names the same ones. -/
theorem of_sameUses {pending pending' : List Bracket} {self : EngineId} {state state' : State}
    (h : Manned ⟨pending, self, state⟩) (same : State.SameUses state state')
    (hpending : ∀ bracket ∈ pending', bracket ∈ pending ∨ bracket.waiting? = none) :
    Manned ⟨pending', self, state'⟩ where
  uses := same.usesExist h.uses
  self := by
    have hself : self < state.engines.size := h.self
    simpa [same.size] using hself
  waiting bracket hmem id hid := by
    rcases hpending bracket hmem with hold | hnone
    · have := h.waiting bracket hold id hid
      simpa [same.size] using this
    · rw [hnone] at hid
      cases hid

theorem move {allowed : EngineId → Statement → Prop} {moment moment' : Moment}
    (h : moment.Manned) (move : Move allowed moment moment') : moment'.Manned := by
  have same := move.sameModules.sameUses
  cases move with
  | @lend pending self state found owner owned lent =>
      have howner : owner < state.engines.size := owned ▸ h.uses.lt_of_isLent lent
      refine ⟨same.usesExist h.uses, same.size ▸ howner, ?_⟩
      intro bracket hmem id hid
      rw [same.size]
      rcases List.mem_cons.1 hmem with rfl | hmem
      · cases hid
        exact h.self
      · exact h.waiting bracket hmem id hid
  | @giveBack pending owner state terms caller =>
      refine ⟨same.usesExist h.uses, ?_, ?_⟩
      · have hcaller := h.waiting (.loan terms caller) List.mem_cons_self caller rfl
        exact same.size ▸ hcaller
      · intro bracket hmem id hid
        rw [same.size]
        exact h.waiting bracket (List.mem_cons_of_mem _ hmem) id hid
  | _ => exact h.of_sameUses same (by simp +contextual [Bracket.waiting?])

theorem loadMove {moment moment' : Moment} (h : moment.Manned) (move : LoadMove moment moment') :
    moment'.Manned := by
  cases move with
  | read => exact h.of_sameUses (.modifyEngine _ fun _ => rfl) fun _ => .inl
  | native => exact h.of_sameUses (.of_engines rfl) fun _ => .inl
  | beginImports =>
      exact h.of_sameUses (.of_engines rfl) (by simp +contextual [Bracket.waiting?])
  | endImports =>
      exact h.of_sameUses (.of_engines rfl) fun _ hmem => .inl (List.mem_cons_of_mem _ hmem)
  | @openModule pending self state path content =>
      have hsize := state.size_addEngine path content
      refine ⟨h.uses.addEngine path content, hsize ▸ Nat.lt_succ_self _, ?_⟩
      intro bracket hmem id hid
      rw [hsize]
      rcases List.mem_cons.1 hmem with rfl | hmem
      · cases hid
        exact Nat.lt_succ_of_lt h.self
      · exact Nat.lt_succ_of_lt (h.waiting bracket hmem id hid)
  | @dropModule pending importer module state =>
      refine ⟨h.uses, h.waiting _ List.mem_cons_self importer rfl, ?_⟩
      intro bracket hmem id hid
      exact h.waiting bracket (List.mem_cons_of_mem _ hmem) id hid
  | @expose pending importer module state =>
      have hsize := state.size_expose importer module
      have himporter : importer < state.engines.size :=
        h.waiting _ List.mem_cons_self importer rfl
      refine ⟨h.uses.expose h.self, hsize ▸ himporter, ?_⟩
      intro bracket hmem id hid
      change id < (state.expose importer module).engines.size
      rw [hsize]
      exact h.waiting bracket (List.mem_cons_of_mem _ hmem) id hid

end Moment.Manned

/-! ## Initial states -/

theorem State.initial_manned (config : Config) (files : FileTree) (source : Source) (path : Path)
    (content : String) :
    Moment.Manned ⟨[], Script.main, State.initial config files source path content⟩ where
  uses id used hused := by
    simp only [initial, engine_addEngine] at hused
    split at hused
    · cases hused
    · cases hused
  self := by
    simp [initial, addEngine, Script.main]
  waiting bracket hmem := by cases hmem

end Bir
