import Bir.Proofs.Acyclic.Graph
import Bir.Proofs.Declarations

/-!
# Ordered scopes — why no run makes a scope its own ancestor

A scope that is added gets parents that are there already, so evaluations make no cycles.  An import
does give a new parent to a scope that is old: the root of the importer goes on to the top scope of
the module.  But while the module was loaded and run, all that lookups could come to was made after
its own root, which was made after that of the importer.  This file defines:

* `inProgress` — the modules that are being loaded;
* `State.Inner` — a scope is not older than the roots of these modules;
* `Moment.Ordered` — at every moment of a run, what lookups come to is inner.

`scope_graph_is_acyclic` is the result.
-/

namespace Bir

/-- The modules that are being loaded, the innermost first. -/
def inProgress : List Bracket → EngineId → List EngineId
  | [], _ => []
  | .module importer :: pending, self => self :: inProgress pending importer
  | bracket :: pending, self => inProgress pending (bracket.outer self)

/-! ## New parents and new stores -/

/-- The scopes that moves of an evaluation link others to. -/
inductive Moment.Links : Moment → ScopeId → Prop where
  | current {pending self state} : Links ⟨pending, self, state⟩ (state.currentScope self)
  | declared {pending self state ref name store} :
      Links ⟨.block ref name store :: pending, self, state⟩ ref.scope
  | stored {pending self state bracket id} (begun : bracket ∈ pending.head?)
      (stored : id ∈ bracket.store?) : Links ⟨pending, self, state⟩ id
  | called {pending self state ref id} (awaited : awaited? pending = some ref)
      (stored : id ∈ (state.graph.block ref).store) : Links ⟨pending, self, state⟩ id

namespace Move

variable {allowed : EngineId → Statement → Prop} {moment moment' : Moment}

/-- A move of an evaluation leaves the parents of all scopes as they are, and adds one scope at
most. -/
theorem parents (move : Move allowed moment moment') :
    (∀ id, (moment'.state.graph.get id).parents = (moment.state.graph.get id).parents) ∨
      ∃ scope : Scope, (∀ parent ∈ scope.parents, moment.Links parent) ∧
        (moment'.state.graph.scopes.size = moment.state.graph.scopes.size + 1) ∧
        ∀ id, (moment'.state.graph.get id).parents =
          ((moment.state.graph.add scope).1.get id).parents := by
  have hmodify : ∀ (graph : ScopeGraph) (scope id : ScopeId) {change : Scope → Scope},
      (∀ scope, (change scope).parents = scope.parents) →
        ((graph.modify scope change).get id).parents = (graph.get id).parents :=
    fun graph scope id _ same => graph.get_modify_congr Scope.parents scope id same
  have hmark : ∀ (graph : ScopeGraph) (scope : ScopeId) name store id,
      ((graph.markInitialized scope name store).get id).parents = (graph.get id).parents := by
    intro graph scope name store id
    rcases graph.markInitialized_cases scope name store with hsame | ⟨found, -, hmarked⟩
    · rw [hsame]
    · rw [hmarked]
      exact hmodify graph found.block.scope id fun _ => rfl
  cases move with
  | write =>
      exact Or.inl fun id => ScopeGraph.get_update_congr _ Scope.parents (fun _ _ _ => rfl) _ id _ _
  | slotWrite =>
      exact Or.inl fun id => ScopeGraph.get_update_congr _ Scope.parents (fun _ _ _ => rfl) _ id _ _
  | slotPush => exact Or.inl fun id => hmodify _ _ id fun _ => rfl
  | slotErase index target found =>
      refine Or.inl fun id => ?_
      rw [State.graph_modifyGraph, ScopeGraph.delete_eq_of_binds _ found]
      exact hmodify _ _ id fun _ => rfl
  | closeBinding => exact Or.inl fun id => hmodify _ _ id fun _ => rfl
  | openBlock => exact Or.inl fun id => hmodify _ _ id fun _ => rfl
  | openImplementing => exact Or.inl fun id => hmodify _ _ id fun _ => rfl
  | closeBlock => exact Or.inl fun id => hmark _ _ _ _ id
  | closeSeeded =>
      refine Or.inl fun id => (hmark _ _ _ _ id).trans ?_
      exact hmodify _ _ id fun _ => rfl
  | lend => exact Or.inl fun id => hmodify _ _ id fun _ => rfl
  | giveBack => exact Or.inl fun id => hmodify _ _ id fun _ => rfl
  -- Scopes are added for stores, for calls and for turns.
  | @attachStore pending self state ref name =>
      refine Or.inr ⟨{ parents := [state.currentScope self] }, ?_, ?_, fun id => ?_⟩
      · simpa using Moment.Links.current
      · simp [State.attachStore]
      · exact hmodify _ _ id fun _ => rfl
  | @makeStore pending self state ref name =>
      refine Or.inr ⟨{ parents := [ref.scope] }, ?_, ?_, fun id => rfl⟩
      · simpa using Moment.Links.declared
      · simp
  | @enterCall pending self state ref awaited interpreted verbs arguments brought =>
      refine Or.inr ⟨Call.scope (state.graph.block ref) (state.currentScope self) verbs arguments,
        ?_, ?_, fun id => rfl⟩
      · intro parent hmem
        rcases List.mem_append.1 hmem with hstore | hcurrent
        · exact .called awaited (by simpa using hstore)
        · exact (List.mem_singleton.1 hcurrent) ▸ .current
      · simp
  | @enterTurn pending self state placeholder index =>
      refine Or.inr ⟨Evaluation.turnScope placeholder (state.currentScope self) index,
        ?_, ?_, fun id => rfl⟩
      · intro parent hmem
        exact (List.mem_singleton.1 hmem) ▸ .current
      · simp
  | _ => exact Or.inl fun id => rfl

/-- The store of a block is a new scope with no bindings, or one that the declaration of the block
has made. -/
theorem stores (move : Move allowed moment moment') {id store : ScopeId}
    (h : moment'.state.graph.Stores id store) :
    moment.state.graph.Stores id store ∨
      (∃ bracket ∈ moment.pending.head?, store ∈ bracket.store?) ∨
      store = moment.state.graph.scopes.size ∧ store < moment'.state.graph.scopes.size ∧
        (moment'.state.graph.get store).bindings = [] := by
  cases move with
  | write =>
      exact Or.inl (h.of_blocks
        (ScopeGraph.get_update_congr _ Scope.blocks (fun _ _ _ => rfl) _ id _ _))
  | slotWrite =>
      exact Or.inl (h.of_blocks
        (ScopeGraph.get_update_congr _ Scope.blocks (fun _ _ _ => rfl) _ id _ _))
  | slotPush => exact Or.inl (h.of_modify fun _ => rfl)
  | slotErase index target found =>
      rw [State.graph_modifyGraph, ScopeGraph.delete_eq_of_binds _ found] at h
      exact Or.inl (h.of_modify fun _ => rfl)
  | closeBinding => exact Or.inl (h.of_modify fun _ => rfl)
  | openBlock => exact Or.inl (h.of_addBlock rfl)
  | openImplementing => exact Or.inl (h.of_addBlock rfl)
  | @attachStore pending self state ref name =>
      rcases ScopeGraph.Stores.of_modifyBlock h with hold | ⟨block, hnew⟩
      · exact Or.inl (hold.of_add rfl)
      · cases hnew
        have hsize : state.graph.scopes.size < (state.attachStore self ref).graph.scopes.size := by
          simp [State.attachStore]
        exact Or.inr (Or.inr ⟨rfl, hsize, state.bindings_attachStore self ref⟩)
  | makeStore => exact Or.inl (h.of_add rfl)
  | enterCall => exact Or.inl (h.of_add rfl)
  | enterTurn => exact Or.inl (h.of_add rfl)
  | closeBlock =>
      rcases ScopeGraph.Stores.of_markInitialized h with hold | hnew
      · exact Or.inl hold
      · exact Or.inr (Or.inl ⟨_, rfl, hnew⟩)
  | closeSeeded =>
      rcases ScopeGraph.Stores.of_markInitialized h with hold | hnew
      · exact Or.inl (hold.of_modify fun _ => rfl)
      · exact Or.inr (Or.inl ⟨_, rfl, hnew⟩)
  | lend => exact Or.inl (h.of_modify fun _ => rfl)
  | giveBack => exact Or.inl (h.of_modify fun _ => rfl)
  | _ => exact Or.inl h

end Move

/-- A region that has the scopes which a move links others to is closed after it. -/
theorem Move.closed {allowed : EngineId → Statement → Prop} {moment moment' : Moment}
    (move : Move allowed moment moment') {inside inside' : ScopeId → Prop}
    (h : moment.state.graph.Closed inside) (weaker : ∀ id, inside id → inside' id)
    (old : ∀ id < moment.state.graph.scopes.size, inside' id → inside id)
    (links : ∀ id, moment.Links id → inside' id)
    (new : moment.state.graph.scopes.size < moment'.state.graph.scopes.size →
      inside' moment.state.graph.scopes.size) :
    moment'.state.graph.Closed inside' where
  parents := by
    have hold : ∀ id, inside' id → ∀ parent, moment.state.graph.Parent id parent →
        inside' parent := by
      intro id hid parent hparent
      exact weaker parent (h.parents id (old id hparent.lt hid) parent hparent)
    intro id hid parent hparent
    unfold ScopeGraph.Parent at hparent
    rcases move.parents with hsame | ⟨scope, hlinks, -, hadded⟩
    · rw [hsame] at hparent
      exact hold id hid parent hparent
    · rw [hadded, ScopeGraph.get_add] at hparent
      split at hparent
      · exact links parent (hlinks parent hparent)
      · exact hold id hid parent hparent
  stores := by
    intro id hid store hstore
    rcases move.stores hstore with hold | hlinked | ⟨rfl, hgrown, -⟩
    · exact weaker store (h.stores id (old id hold.lt hid) store hold)
    · rcases hlinked with ⟨bracket, hbegun, hstored⟩
      exact links store (.stored hbegun hstored)
    · exact new hgrown

/-! ## Inner scopes -/

namespace State

/-- A scope is not older than the roots of the modules that are being loaded. -/
def Inner (state : State) (pending : List Bracket) (self : EngineId) (id : ScopeId) : Prop :=
  id < state.graph.scopes.size ∧ ∀ module ∈ inProgress pending self,
    module < state.engines.size ∧ (state.engine module).root ≤ id

/-- What is known of the bracket that opened a level: where the block that is called is declared,
where a declaration goes, or that the root of the importer is older than that of the module. -/
def Opened (state : State) : List Bracket → EngineId → Prop
  | .call ref _ _ :: pending, self => state.Inner pending self ref.scope
  | .loan _ caller :: .call ref _ _ :: pending, _ => state.Inner pending caller ref.scope
  | .block ref _ store :: pending, self =>
    state.Inner pending self ref.scope ∧ ∀ id ∈ store, state.Inner pending self id
  | .module importer :: _, self =>
    importer < state.engines.size ∧ (state.engine importer).root < (state.engine self).root
  | _, _ => True

/-- What is known of a level and of the current scope there. -/
structure Placed (state : State) (pending : List Bracket) (engine : EngineId) (scope : ScopeId) :
    Prop where
  current : state.Inner pending engine scope
  opened : state.Opened pending engine

/-- Scopes and engines may be added, and no engine changes its root. -/
structure KeepsRoots (state state' : State) : Prop where
  scopes : state.graph.scopes.size ≤ state'.graph.scopes.size
  engines : state.engines.size ≤ state'.engines.size
  root : ∀ id < state.engines.size, (state'.engine id).root = (state.engine id).root

/-- Every engine has a scope to go on in, and all scopes on its stack are there. -/
def Standing (state : State) : Prop :=
  ∀ id < state.engines.size, 0 < (state.engine id).scopeStack.size ∧
    ∀ scope ∈ (state.engine id).scopeStack, scope < state.graph.scopes.size

section Inner

variable {state state' : State} {pending : List Bracket} {self : EngineId} {id : ScopeId}

theorem Inner.mono (h : state.Inner pending self id) (keeps : KeepsRoots state state') :
    state'.Inner pending self id := by
  refine ⟨Nat.lt_of_lt_of_le h.1 keeps.scopes, fun module hmem => ?_⟩
  rcases h.2 module hmem with ⟨hlt, hroot⟩
  exact ⟨Nat.lt_of_lt_of_le hlt keeps.engines, keeps.root module hlt ▸ hroot⟩

theorem Opened.mono (h : state.Opened pending self) (current : state.Inner pending self id)
    (keeps : KeepsRoots state state') : state'.Opened pending self := by
  cases pending with
  | nil => exact trivial
  | cons bracket pending =>
      cases bracket with
      | call ref => exact Inner.mono h keeps
      | block ref name store =>
          exact ⟨Inner.mono h.1 keeps, fun id hid => Inner.mono (h.2 id hid) keeps⟩
      | module importer =>
          -- The module itself is being loaded, so it is there.
          have hself := (current.2 self List.mem_cons_self).1
          refine ⟨Nat.lt_of_lt_of_le h.1 keeps.engines, ?_⟩
          rw [keeps.root importer h.1, keeps.root self hself]
          exact h.2
      | loan terms caller =>
          cases pending with
          | nil => exact trivial
          | cons bracket pending =>
              cases bracket with
              | call ref => exact Inner.mono h keeps
              | _ => exact trivial
      | _ => exact trivial

theorem Placed.mono (h : state.Placed pending self id) (keeps : KeepsRoots state state') :
    state'.Placed pending self id :=
  ⟨h.current.mono keeps, h.opened.mono h.current keeps⟩

/-- The block that is called is seen from the level, whoever has borrowed the stacks. -/
theorem Opened.called (h : state.Opened pending self) {ref : BlockRef}
    (awaited : awaited? pending = some ref) : state.Inner pending self ref.scope := by
  cases pending with
  | nil => cases awaited
  | cons bracket pending =>
      cases bracket with
      | call other =>
          cases awaited
          exact h
      | loan terms caller =>
          cases pending with
          | nil => cases awaited
          | cons bracket pending =>
              cases bracket with
              | call other =>
                  cases awaited
                  exact h
              | _ => cases awaited
      | _ => cases awaited

theorem Opened.lend (h : state.Opened pending self) (terms : Action.Loan) (owner : EngineId) :
    state.Opened (.loan terms self :: pending) owner := by
  cases pending with
  | nil => exact trivial
  | cons bracket pending =>
      cases bracket with
      | call ref => exact h
      | _ => exact trivial

theorem SameModules.keepsRoots (h : SameModules state state')
    (scopes : state.graph.scopes.size ≤ state'.graph.scopes.size) : KeepsRoots state state' where
  scopes := scopes
  engines := Nat.le_of_eq h.size.symm
  root id _ := h.root id

/-- A scope that is linked to is inner if all that lookups come to is. -/
theorem Placed.links (h : state.Placed pending self (state.currentScope self))
    (closed : state.graph.Closed (state.Inner pending self))
    (links : Moment.Links ⟨pending, self, state⟩ id) : state.Inner pending self id := by
  cases links with
  | current => exact h.current
  | declared => exact h.opened.1
  | @stored _ _ _ bracket _ hbegun hstored =>
      cases pending with
      | nil => cases hbegun
      | cons first pending =>
          cases hbegun
          cases bracket with
          | block ref name store => exact h.opened.2 id hstored
          | _ => cases hstored
  | called awaited hstored => exact closed.store (h.opened.called awaited) hstored

end Inner

/-! ## Stacks -/

namespace Standing

variable {state state' : State}

/-- The scope stack of one engine may change to another one that has scopes. -/
theorem modifyEngine (h : state.Standing) (id : EngineId) {change : Engine → Engine}
    (nonempty : 0 < (change (state.engine id)).scopeStack.size)
    (exist : ∀ scope ∈ (change (state.engine id)).scopeStack, scope < state.graph.scopes.size) :
    (state.modifyEngine id change).Standing := by
  intro id' hid'
  rw [size_modifyEngine] at hid'
  rw [engine_modifyEngine]
  split
  · rename_i hid
    exact hid.1 ▸ ⟨nonempty, exist⟩
  · exact h id' hid'

theorem of_engines (h : state.Standing) (engines : state'.engines = state.engines)
    (scopes : state.graph.scopes.size ≤ state'.graph.scopes.size) : state'.Standing := by
  intro id hid
  rw [engines] at hid
  rw [engine_congr engines]
  exact ⟨(h id hid).1, fun scope hmem => Nat.lt_of_lt_of_le ((h id hid).2 scope hmem) scopes⟩

theorem of_scopeStack (h : state.Standing) (id : EngineId) {change : Engine → Engine}
    (same : ∀ engine, (change engine).scopeStack = engine.scopeStack) :
    (state.modifyEngine id change).Standing := by
  intro id' hid'
  rw [size_modifyEngine] at hid'
  rw [state.engine_modifyEngine_congr id Engine.scopeStack same]
  exact h id' hid'

theorem pushScope (h : state.Standing) (id : EngineId) {scope : ScopeId}
    (exists' : scope < state.graph.scopes.size) (running : id < state.engines.size) :
    (state.pushScope id scope).Standing := by
  refine h.modifyEngine id (by simp) ?_
  intro other hmem
  rcases Array.mem_push.1 hmem with hold | rfl
  · exact (h id running).2 other hold
  · exact exists'

theorem popScope (h : state.Standing) {id : EngineId} {good : ScopeId → Prop}
    (running : id < state.engines.size) (below : EndsIn good id (state.popScope id)) :
    (state.popScope id).Standing := by
  rcases below with ⟨scope, hback, -⟩
  have hpopped : ((state.popScope id).engine id).scopeStack = (state.engine id).scopeStack.pop := by
    simp [State.popScope, engine_modifyEngine, running]
  rw [hpopped] at hback
  have hmem : ∀ other ∈ (state.engine id).scopeStack.pop, other ∈ (state.engine id).scopeStack := by
    intro other hother
    rw [← Array.mem_toList_iff, Array.toList_pop] at hother
    exact Array.mem_toList_iff.1 ((List.dropLast_sublist _).mem hother)
  refine h.modifyEngine id ?_ fun other hother => (h id running).2 other (hmem other hother)
  -- What is left has a last scope, so it is not empty.
  rcases Nat.eq_zero_or_pos (state.engine id).scopeStack.pop.size with hzero | hpos
  · simp [Array.eq_empty_of_size_eq_zero hzero] at hback
  · exact hpos

theorem take (h : state.Standing) {caller owner : EngineId} (other : owner ≠ caller)
    (running : caller < state.engines.size) (exists' : owner < state.engines.size) :
    (Action.Loan.take caller owner state).2.Standing := by
  intro id hid
  rw [Action.Loan.size_take] at hid
  rw [Action.Loan.graph_take, ScopeGraph.size_modify]
  -- The owner goes on above its own scopes in those of the caller; all others keep theirs.
  by_cases howner : id = owner
  · subst howner
    rw [Action.Loan.engine_take_owner other exists']
    refine ⟨by simpa using Nat.add_pos_left (h id exists').1 _, fun scope hmem => ?_⟩
    rcases Array.mem_append.1 hmem with hown | hlent
    · exact (h id exists').2 scope hown
    · exact (h caller running).2 scope hlent
  · rw [Action.Loan.engine_take_ne howner, setCallStack,
      state.engine_modifyEngine_congr caller Engine.scopeStack (by intro _; rfl)]
    exact h id hid

theorem giveBack (h : state.Standing) {terms : Action.Loan} {caller owner : EngineId}
    (running : owner < state.engines.size) (nonempty : 0 < terms.scopes) :
    (terms.giveBack caller owner state).Standing := by
  have hreturned : (state.modifyEngine owner fun engine =>
      { engine with
        callStack := terms.callStack,
        scopeStack := engine.scopeStack.take terms.scopes }).Standing := by
    refine h.modifyEngine owner ?_ ?_
    -- The owner is left with the scopes that it had of its own, and it had some.
    · simpa using Nat.lt_min.2 ⟨nonempty, (h owner running).1⟩
    · intro scope hmem
      refine (h owner running).2 scope ?_
      rw [← Array.mem_toList_iff, Array.take_eq_extract, Array.toList_extract] at hmem
      exact Array.mem_toList_iff.1 (by simpa using List.mem_of_mem_take hmem)
  have hflagged : ((state.modifyEngine owner fun engine =>
      { engine with
        callStack := terms.callStack,
        scopeStack := engine.scopeStack.take terms.scopes }).modifyScope terms.top fun scope =>
          { scope with foreign := terms.wasForeign }).Standing :=
    hreturned.of_engines rfl (by simp)
  exact hflagged.of_scopeStack caller fun _ => rfl

end Standing

end State

/-! ## Ordered moments -/

/-- The owner of a block has scopes of its own below those that it borrows. -/
def Bracket.Grounded : Bracket → Prop
  | .loan terms _ => 0 < terms.scopes
  | _ => True

/-- At every moment of a run, what lookups come to is not older than the roots of the modules that
are being loaded. -/
structure Moment.Ordered (moment : Moment) : Prop where
  manned : moment.Manned
  acyclic : moment.state.graph.Acyclic
  exist : moment.state.graph.Closed (· < moment.state.graph.scopes.size)
  upward : ∀ module ∈ inProgress moment.pending moment.self,
    moment.state.graph.Closed ((moment.state.engine module).root ≤ ·)
  roots : ∀ id < moment.state.engines.size,
    (moment.state.engine id).root < moment.state.graph.scopes.size
  standing : moment.state.Standing
  grounded : ∀ bracket ∈ moment.pending, bracket.Grounded
  levels : moment.state.Levels moment.state.Placed moment.pending moment.self

/-- A move of an evaluation does not change what is being loaded. -/
theorem Move.inProgress {allowed : EngineId → Statement → Prop} {moment moment' : Moment}
    (move : Move allowed moment moment') :
    inProgress moment'.pending moment'.self = inProgress moment.pending moment.self := by
  cases move <;> rfl

/-- A scope that is added is inner. -/
theorem State.Placed.inner_new {state state' : State} {pending : List Bracket} {self : EngineId}
    {scope id : ScopeId} (h : state.Placed pending self scope) (keeps : KeepsRoots state state')
    (new : state.graph.scopes.size ≤ id) (exist : id < state'.graph.scopes.size) :
    state'.Inner pending self id := by
  refine ⟨exist, fun module hmem => ?_⟩
  rcases (h.current.mono keeps).2 module hmem with ⟨hlt, hroot⟩
  have hscope : scope < id := Nat.lt_of_lt_of_le h.current.1 new
  exact ⟨hlt, Nat.le_trans hroot (Nat.le_of_lt hscope)⟩

namespace Moment.Ordered

variable {moment moment' : Moment}

theorem closed (h : moment.Ordered) :
    moment.state.graph.Closed (moment.state.Inner moment.pending moment.self) where
  parents id hid parent hparent := by
    refine ⟨h.exist.parents id hid.1 parent hparent, fun module hmem => ?_⟩
    rcases hid.2 module hmem with ⟨hlt, hroot⟩
    exact ⟨hlt, (h.upward module hmem).parents id hroot parent hparent⟩
  stores id hid store hstore := by
    refine ⟨h.exist.stores id hid.1 store hstore, fun module hmem => ?_⟩
    rcases hid.2 module hmem with ⟨hlt, hroot⟩
    exact ⟨hlt, (h.upward module hmem).stores id hroot store hstore⟩

theorem links (h : moment.Ordered) {id : ScopeId} (links : moment.Links id) :
    moment.state.Inner moment.pending moment.self id :=
  h.levels.current.links h.closed links

section Move

variable {allowed : EngineId → Statement → Prop} (h : moment.Ordered)
  (move : Move allowed moment moment')
include h move

theorem acyclic_move : moment'.state.graph.Acyclic := by
  rcases move.parents with hsame | ⟨scope, hlinks, -, hadded⟩
  · exact h.acyclic.of_parents hsame
  -- A scope that is added has parents that are there, and is nobody's parent yet.
  · have hparents : ∀ parent ∈ scope.parents, parent < moment.state.graph.scopes.size :=
      fun parent hmem => (h.links (hlinks parent hmem)).1
    exact (h.acyclic.add h.exist.parents hparents).of_parents hadded

theorem exist_move : moment'.state.graph.Closed (· < moment'.state.graph.scopes.size) :=
  move.closed h.exist (fun _ hid => Nat.lt_of_lt_of_le hid move.size_le) (fun _ hid _ => hid)
    (fun _ hlinks => Nat.lt_of_lt_of_le (h.links hlinks).1 move.size_le) id

theorem upward_move : ∀ module ∈ inProgress moment'.pending moment'.self,
    moment'.state.graph.Closed ((moment'.state.engine module).root ≤ ·) := by
  intro module hmem
  rw [move.inProgress] at hmem
  rw [move.sameModules.root]
  refine move.closed (h.upward module hmem) (fun _ hid => hid) (fun _ _ hid => hid)
    (fun _ hlinks => ((h.links hlinks).2 module hmem).2) fun _ => ?_
  -- A scope that is added is newer than the current one, and that is not older than the root.
  have hcurrent := h.levels.current.current
  exact Nat.le_of_lt (Nat.lt_of_le_of_lt (hcurrent.2 module hmem).2 hcurrent.1)

theorem standing_move : moment'.state.Standing := by
  have hsize := move.size_le
  have hself := h.manned.self
  cases move with
  | @enterStore pending self ref name store state =>
      have hstore := (h.links (.stored rfl rfl)).1
      exact h.standing.pushScope self hstore hself
  | @enterCall pending self state ref awaited interpreted verbs arguments brought =>
      have hadded := h.standing.of_engines (state.engines_addScope (Call.scope
        (state.graph.block ref) (state.currentScope self) verbs arguments)) (by simp)
      exact hadded.pushScope self (by simp) hself
  | @enterTurn pending self state placeholder index =>
      have hadded := h.standing.of_engines (state.engines_addScope (Evaluation.turnScope placeholder
        (state.currentScope self) index)) (by simp)
      exact hadded.pushScope self (by simp) hself
  | leaveScope => exact h.standing.popScope hself h.levels.2.endsIn
  | enterFlow => exact h.standing.of_scopeStack _ fun _ => rfl
  | enterFrame => exact h.standing.of_scopeStack _ fun _ => rfl
  | leaveFrame => exact h.standing.of_scopeStack _ fun _ => rfl
  | @lend pending self state found owner owned lent =>
      have howner : owner < state.engines.size := owned ▸ h.manned.uses.lt_of_isLent lent
      exact h.standing.take (owned ▸ State.owner_ne_of_isLent lent) hself howner
  | @giveBack pending owner state terms caller =>
      have hscopes : 0 < terms.scopes := h.grounded _ List.mem_cons_self
      exact h.standing.giveBack hself hscopes
  | _ => exact h.standing.of_engines rfl hsize

theorem grounded_move : ∀ bracket ∈ moment'.pending, bracket.Grounded := by
  refine Bracket.forall_mem_of_tail move.tail_suffix h.grounded fun hopens => ?_
  cases move with
  | @lend pending self state found owner owned lent =>
      rintro _ ⟨⟩
      have howner : owner < state.engines.size := owned ▸ h.manned.uses.lt_of_isLent lent
      have hstack : ((state.modifyEngine self fun engine =>
          { engine with callStack := {} }).engine owner).scopeStack =
            (state.engine owner).scopeStack :=
        state.engine_modifyEngine_congr self Engine.scopeStack (by intro _; rfl) owner
      simpa [Bracket.Grounded, State.setCallStack, hstack] using (h.standing owner howner).1
  | _ => simp [Bracket.Grounded] at hopens ⊢

theorem levels_move : moment'.state.Levels moment'.state.Placed moment'.pending moment'.self := by
  have hkeeps : State.KeepsRoots moment.state moment'.state :=
    move.sameModules.keepsRoots move.size_le
  have hlevels := h.levels.mono fun _ _ _ hplaced => hplaced.mono hkeeps
  have hcurrent := hlevels.current
  have hself := h.manned.self
  have hnew : moment.state.graph.scopes.size < moment'.state.graph.scopes.size →
      moment'.state.Inner moment.pending moment.self moment.state.graph.scopes.size :=
    fun hgrown => h.levels.current.inner_new hkeeps (Nat.le_refl _) hgrown
  refine hlevels.move h.manned.uses move fun hopens => ?_
  cases move with
  | openBinding => exact ⟨hcurrent.current, trivial⟩
  | openBlock => exact ⟨hcurrent.current, hcurrent.current, fun _ hid => by cases hid⟩
  | openImplementing => exact ⟨hcurrent.current, hcurrent.current, fun _ hid => by cases hid⟩
  | attachStore =>
      have hstore := hnew (by simp [State.attachStore])
      exact ⟨hcurrent.current, hcurrent.opened.1, fun _ hid => by cases hid; exact hstore⟩
  | makeStore =>
      have hstore := hnew (by simp)
      exact ⟨hcurrent.current, hcurrent.opened.1, fun _ hid => by cases hid; exact hstore⟩
  | openCall seen => exact ⟨hcurrent.current, h.closed.findBlock? hcurrent.current seen⟩
  | @enterFlow pending self state frame =>
      refine ⟨?_, trivial⟩
      rw [State.currentScope_modifyCallStack]
      exact hcurrent.current
  | @enterFrame pending self state name room =>
      refine ⟨?_, trivial⟩
      rw [State.currentScope_modifyCallStack]
      exact hcurrent.current
  -- The scope that is entered is new, or the store that its block was just given.
  | @enterStore pending self ref name store state =>
      refine ⟨?_, trivial⟩
      rw [state.currentScope_pushScope store hself]
      exact hcurrent.opened.2 store rfl
  | @enterCall pending self state ref awaited interpreted verbs arguments brought =>
      refine ⟨?_, trivial⟩
      rw [state.currentScope_enter _ _ hself]
      exact hnew (by simp)
  | @enterTurn pending self state placeholder index =>
      refine ⟨?_, trivial⟩
      rw [state.currentScope_enter _ _ hself]
      exact hnew (by simp)
  | @lend pending self state found owner owned lent =>
      have howner : owner < state.engines.size := owned ▸ h.manned.uses.lt_of_isLent lent
      have hscope := hlevels.currentScope_take (owned ▸ State.owner_ne_of_isLent lent) howner
      refine ⟨?_, hcurrent.opened.lend _ owner⟩
      rw [hscope]
      exact hcurrent.current
  -- No other move opens a level.
  | _ => exact absurd (by simp) hopens

end Move

theorem move {allowed : EngineId → Statement → Prop} (h : moment.Ordered)
    (move : Move allowed moment moment') : moment'.Ordered where
  manned := h.manned.move move
  acyclic := h.acyclic_move move
  exist := h.exist_move move
  upward := h.upward_move move
  roots id hid := by
    have same := move.sameModules
    rw [same.size] at hid
    rw [same.root]
    exact Nat.lt_of_lt_of_le (h.roots id hid) move.size_le
  standing := h.standing_move move
  grounded := h.grounded_move move
  levels := h.levels_move move

end Moment.Ordered

/-! ## Loading -/

namespace LoadMove

variable {moment moment' : Moment} (move : LoadMove moment moment')
include move

theorem keepsRoots : State.KeepsRoots moment.state moment'.state := by
  cases move with
  | @read pending self state program parsed =>
      exact ⟨Nat.le_refl _, by simp, fun id _ =>
        state.engine_modifyEngine_congr self Engine.root (by intro _; rfl) id⟩
  | native => exact ⟨by simp, Nat.le_refl _, fun _ _ => rfl⟩
  | beginImports => exact ⟨Nat.le_refl _, Nat.le_refl _, fun _ _ => rfl⟩
  | endImports => exact ⟨Nat.le_refl _, Nat.le_refl _, fun _ _ => rfl⟩
  | @openModule pending self state path content =>
      exact ⟨by simp, by simp, fun id hid => by
        rw [State.engine_addEngine_of_lt path content hid]⟩
  | dropModule => exact ⟨Nat.le_refl _, Nat.le_refl _, fun _ _ => rfl⟩
  | @expose pending importer module state =>
      exact ⟨by simp [State.graph_expose], by simp, fun id _ =>
        State.engine_expose_congr Engine.root (by intro _ _; rfl) id⟩

/-- The one parent that loading gives a scope is the top scope of a module. -/
theorem parents {id parent : ScopeId} (h : moment'.state.graph.Parent id parent) :
    moment.state.graph.Parent id parent ∨
      (∃ importer outer, moment.pending = .module importer :: outer) ∧
        parent = moment.state.currentScope moment.self := by
  cases move with
  | native =>
      refine Or.inl ?_
      unfold ScopeGraph.Parent at h ⊢
      rwa [State.graph_modifyScope, ScopeGraph.get_modify_congr _ Scope.parents] at h
      exact fun _ => rfl
  | @openModule pending self state path content =>
      refine Or.inl ?_
      unfold ScopeGraph.Parent at h ⊢
      rw [State.graph_addEngine, ScopeGraph.get_add] at h
      split at h
      · cases h
      · exact h
  | @expose pending importer module state =>
      have hflagged : ((state.graph.modify (state.currentScope module) fun scope =>
          { scope with immutable := true, foreign := true }).get id).parents =
            (state.graph.get id).parents :=
        state.graph.get_modify_congr Scope.parents _ id (by intro _; rfl)
      unfold ScopeGraph.Parent at h ⊢
      rw [State.graph_expose, ScopeGraph.get_modify] at h
      split at h
      · rcases List.mem_append.1 h with hold | hnew
        · exact Or.inl (hflagged ▸ hold)
        · exact Or.inr ⟨⟨importer, pending, rfl⟩, List.mem_singleton.1 hnew⟩
      · exact Or.inl (hflagged ▸ h)
  | _ => exact Or.inl h

theorem stores {id store : ScopeId} (h : moment'.state.graph.Stores id store) :
    moment.state.graph.Stores id store := by
  cases move with
  | native => exact h.of_addBlock rfl
  | openModule => exact h.of_add rfl
  | expose =>
      rw [State.graph_expose] at h
      exact (h.of_modify fun _ => rfl).of_modify fun _ => rfl
  | _ => exact h

theorem closed {inside inside' : ScopeId → Prop} (h : moment.state.graph.Closed inside)
    (weaker : ∀ id, inside id → inside' id)
    (old : ∀ id < moment.state.graph.scopes.size, inside' id → inside id)
    (top : ∀ importer outer, moment.pending = .module importer :: outer →
      inside' (moment.state.currentScope moment.self)) :
    moment'.state.graph.Closed inside' where
  parents := by
    intro id hid parent hparent
    rcases move.parents hparent with hold | ⟨⟨importer, outer, hpending⟩, rfl⟩
    · exact weaker parent (h.parents id (old id hold.lt hid) parent hold)
    · exact top importer outer hpending
  stores := by
    intro id hid store hstore
    have hold := move.stores hstore
    exact weaker store (h.stores id (old id hold.lt hid) store hold)

/-- What is being loaded was being loaded before, or is a module whose root is new. -/
theorem inProgress {module : EngineId} (h : module ∈ inProgress moment'.pending moment'.self) :
    module ∈ Bir.inProgress moment.pending moment.self ∨
      (moment'.state.engine module).root = moment.state.graph.scopes.size ∧
        moment'.state.graph = (moment.state.graph.add {}).1 := by
  cases move with
  | @openModule pending self state path content =>
      rcases List.mem_cons.1 h with rfl | hold
      · exact Or.inr ⟨by simp [State.engine_addEngine], rfl⟩
      · exact Or.inl hold
  | dropModule => exact Or.inl (List.mem_cons_of_mem _ h)
  | expose => exact Or.inl (List.mem_cons_of_mem _ h)
  | _ => exact Or.inl h

end LoadMove

namespace Moment.Ordered

variable {moment moment' : Moment}

section LoadMove

variable (h : moment.Ordered) (move : LoadMove moment moment')
include h move

theorem acyclic_loadMove : moment'.state.graph.Acyclic := by
  cases move with
  | @native pending self state =>
      exact h.acyclic.of_parents fun id =>
        state.graph.get_modify_congr Scope.parents _ id (by intro _; rfl)
  | openModule => exact h.acyclic.add h.exist.parents (by simp)
  | @expose pending importer module state =>
      have hsame : ∀ id, ((state.graph.modify (state.currentScope module) fun scope =>
          { scope with immutable := true, foreign := true }).get id).parents =
            (state.graph.get id).parents :=
        fun id => state.graph.get_modify_congr Scope.parents _ id (by intro _; rfl)
      rw [State.graph_expose]
      refine (h.acyclic.of_parents hsame).addParent fun hpath => ?_
      rw [ScopeGraph.parent_congr hsame] at hpath
      -- What the module sees is not older than its root, and the root of the importer is.
      have htop := (h.levels.current.current.2 module List.mem_cons_self).2
      have hroot := (h.upward module List.mem_cons_self).ancestor htop hpath
      exact absurd h.levels.current.opened.2 (Nat.not_lt.2 hroot)
  | _ => exact h.acyclic

theorem exist_loadMove : moment'.state.graph.Closed (· < moment'.state.graph.scopes.size) := by
  have hsize := move.keepsRoots.scopes
  have hcurrent := h.levels.current.current.1
  exact move.closed h.exist (fun _ hid => Nat.lt_of_lt_of_le hid hsize) (fun _ hid _ => hid)
    (fun _ _ _ => Nat.lt_of_lt_of_le hcurrent hsize)

theorem upward_loadMove : ∀ module ∈ inProgress moment'.pending moment'.self,
    moment'.state.graph.Closed ((moment'.state.engine module).root ≤ ·) := by
  intro module hmem
  rcases move.inProgress hmem with hold | ⟨hroot, hnew⟩
  · rcases h.levels.current.current.2 module hold with ⟨hlt, hcurrent⟩
    rw [move.keepsRoots.root module hlt]
    exact move.closed (h.upward module hold) (fun _ hid => hid) (fun _ _ hid => hid)
      fun _ _ _ => hcurrent
  · rw [hroot, hnew]
    exact ScopeGraph.closed_add

theorem roots_loadMove : ∀ id < moment'.state.engines.size,
    (moment'.state.engine id).root < moment'.state.graph.scopes.size := by
  have hkeeps := move.keepsRoots
  have hold : ∀ id < moment.state.engines.size,
      (moment'.state.engine id).root < moment'.state.graph.scopes.size := by
    intro id hid
    rw [hkeeps.root id hid]
    exact Nat.lt_of_lt_of_le (h.roots id hid) hkeeps.scopes
  intro id hid
  cases move with
  | @openModule pending self state path content =>
      rcases State.lt_addEngine path content hid with hlt | rfl
      · exact hold id hlt
      · simp [State.engine_addEngine]
  | read => exact hold id (by simpa using hid)
  | expose => exact hold id (by simpa using hid)
  | _ => exact hold id hid

theorem standing_loadMove : moment'.state.Standing := by
  cases move with
  | read => exact h.standing.of_scopeStack _ fun _ => rfl
  | native => exact h.standing.of_engines rfl (by simp)
  | @openModule pending self state path content =>
      intro id hid
      rw [State.graph_addEngine, ScopeGraph.size_add]
      rcases State.lt_addEngine path content hid with hlt | rfl
      · rw [State.engine_addEngine_of_lt path content hlt]
        exact ⟨(h.standing id hlt).1, fun scope hmem =>
          Nat.lt_succ_of_lt ((h.standing id hlt).2 scope hmem)⟩
      · simp [State.engine_addEngine]
  | @expose pending importer module state =>
      intro id hid
      rw [State.size_expose] at hid
      have hstack : ((state.expose importer module).engine id).scopeStack =
          (state.engine id).scopeStack :=
        State.engine_expose_congr Engine.scopeStack (by intro _ _; rfl) id
      simpa [hstack, State.graph_expose] using h.standing id hid
  | _ => exact h.standing.of_engines rfl (Nat.le_refl _)

theorem levels_loadMove :
    moment'.state.Levels moment'.state.Placed moment'.pending moment'.self := by
  have hkeeps := move.keepsRoots
  have hlevels := h.levels.mono fun _ _ _ hplaced => hplaced.mono hkeeps
  have hcurrent := hlevels.current
  refine hlevels.loadMove move fun hopens => ?_
  cases move with
  | beginImports => exact ⟨hcurrent.current, trivial⟩
  | @openModule pending self state path content =>
      have hself := h.manned.self
      have hroot : ((state.addEngine path content).1.engine state.engines.size).root =
          state.graph.scopes.size := by simp [State.engine_addEngine]
      have hscope : (state.addEngine path content).1.currentScope state.engines.size =
          state.graph.scopes.size := by
        simp [State.currentScope, Engine.currentScope, State.engine_addEngine]
      refine ⟨⟨?_, ?_⟩, ?_⟩
      · rw [hscope]
        simp
      · intro module hmem
        rw [hscope]
        rcases List.mem_cons.1 hmem with rfl | hmem
        · exact ⟨by simp, Nat.le_of_eq hroot⟩
        · rcases hcurrent.current.2 module hmem with ⟨hlt, hle⟩
          have hscopes := h.levels.current.current.1
          exact ⟨hlt, Nat.le_trans hle (Nat.le_of_lt hscopes)⟩
      · refine ⟨by simpa using Nat.lt_succ_of_lt hself, ?_⟩
        rw [hroot, State.engine_addEngine_of_lt path content hself]
        exact h.roots self hself
  | _ => exact absurd (by simp) hopens

end LoadMove

theorem loadMove (h : moment.Ordered) (move : LoadMove moment moment') : moment'.Ordered where
  manned := h.manned.loadMove move
  acyclic := h.acyclic_loadMove move
  exist := h.exist_loadMove move
  upward := h.upward_loadMove move
  roots := h.roots_loadMove move
  standing := h.standing_loadMove move
  grounded := by
    refine Bracket.forall_mem_of_tail move.tail_suffix h.grounded fun hopens => ?_
    cases move with
    | _ => simp [Bracket.Grounded] at hopens ⊢
  levels := h.levels_loadMove move

/-- Whatever is left of a run when it stops, any engine may go on in it. -/
theorem rest (h : moment.Ordered) {self : EngineId} (running : self < moment.state.engines.size) :
    Ordered ⟨[], self, moment.state⟩ where
  manned := ⟨h.manned.uses, running, fun _ hmem => by cases hmem⟩
  acyclic := h.acyclic
  exist := h.exist
  upward _ hmem := by cases hmem
  roots := h.roots
  standing := h.standing
  grounded _ hmem := by cases hmem
  levels := by
    rcases h.standing self running with ⟨hnonempty, hexist⟩
    have hlast : (moment.state.engine self).scopeStack.size - 1 <
        (moment.state.engine self).scopeStack.size := Nat.sub_lt hnonempty Nat.one_pos
    refine ⟨(moment.state.engine self).scopeStack[(moment.state.engine self).scopeStack.size - 1],
      ?_, ?_⟩
    · simp [Array.back?]
    · exact ⟨⟨hexist _ (Array.getElem_mem hlast), fun _ hmem => by cases hmem⟩, trivial⟩

/-- Asking for the value of an expression opens no scope. -/
theorem ask {self : EngineId} {state : State} (h : Ordered ⟨[], self, state⟩) :
    Ordered ⟨[.question], self, state⟩ where
  manned := ⟨h.manned.uses, h.manned.self, by simp [Bracket.waiting?]⟩
  acyclic := h.acyclic
  exist := h.exist
  upward := h.upward
  roots := h.roots
  standing := h.standing
  grounded := by simp [Bracket.Grounded]
  levels := ⟨h.levels.endsIn.mono fun _ hplaced => ⟨hplaced.current, trivial⟩, h.levels⟩

end Moment.Ordered

theorem State.initial_ordered (config : Config) (files : FileTree) (source : Source) (path : Path)
    (content : String) :
    Moment.Ordered ⟨[], Script.main, State.initial config files source path content⟩ := by
  have hsize : (State.initial config files source path content).graph.scopes.size = 1 := rfl
  have hengine : ∀ id < (State.initial config files source path content).engines.size,
      ((State.initial config files source path content).engine id).scopeStack = #[0] ∧
        ((State.initial config files source path content).engine id).root = 0 := by
    intro id hid
    have hone : (State.initial config files source path content).engines.size = 1 := by
      simp [State.initial]
    have hmain : id = 0 := Nat.lt_one_iff.1 (hone ▸ hid)
    subst hmain
    exact ⟨rfl, rfl⟩
  exact
    { manned := State.initial_manned config files source path content
      acyclic := .empty
      exist := ScopeGraph.closed_empty
      upward := fun _ hmem => by cases hmem
      roots := fun id hid => by simp [hengine id hid, hsize]
      standing := fun id hid => by simp [hengine id hid, hsize]
      grounded := fun _ hmem => by cases hmem
      levels := ⟨0, rfl, ⟨Nat.one_pos, fun _ hmem => by cases hmem⟩, trivial⟩ }

/-- In every reachable state what lookups come to is ordered, whichever engine starts from it. -/
theorem State.Reachable.ordered {state : State} (h : state.Reachable) {self : EngineId}
    (running : self < state.engines.size) : Moment.Ordered ⟨[], self, state⟩ := by
  have hmain : Moment.Ordered ⟨[], Script.main, state⟩ := by
    refine (of_invariant State.initial_ordered (fun hordered _ => hordered.move)
      (fun hordered _ => hordered.loadMove) ?_ h).1
    intro pending self state hordered
    exact hordered.rest (Nat.lt_of_le_of_lt (Nat.zero_le _) hordered.manned.self)
  exact hmain.rest running

/-! ## The result -/

theorem Moment.Ordered.lookupsEnd {moment : Moment} (h : moment.Ordered) :
    moment.state.graph.LookupsEnd := by
  have hroot := h.roots moment.self h.manned.self
  exact h.acyclic.lookupsEnd h.exist.parents (Nat.lt_of_le_of_lt (Nat.zero_le _) hroot)

/-- In every reachable state, and wherever an engine leaves off that evaluates something from there,
no scope is its own ancestor.  So all lookups come to an end, and none enters a scope that it is
inside of. -/
theorem scope_graph_is_acyclic {state : State} (reachable : state.Reachable) :
    (state.graph.Acyclic ∧ state.graph.LookupsEnd) ∧
      ∀ self < state.engines.size, state.EvaluationsLeave self fun after =>
        after.graph.Acyclic ∧ after.graph.LookupsEnd := by
  have hevaluations : ∀ self < state.engines.size, state.EvaluationsLeave self fun after =>
      after.graph.Acyclic ∧ after.graph.LookupsEnd := by
    intro self running
    have hends := State.EvaluationsLeave.of_invariant (reachable.ordered running)
      fun hordered move => hordered.move move
    exact hends.mono fun after hordered => ⟨hordered.acyclic, hordered.lookupsEnd⟩
  have hstate := reachable.ordered reachable.manned.self
  exact ⟨⟨hstate.acyclic, hstate.lookupsEnd⟩, hevaluations⟩

/-- A script that has imported a module, as an instance: its root has got a parent, and whatever
the script runs then, the scopes stay acyclic. -/
theorem scope_graph_is_acyclic_of_import :
    ∃ state : State, state.Reachable ∧ (state.graph.get 0).parents = [1] ∧ state.graph.Acyclic ∧
      state.EvaluationsLeave Script.main fun after =>
        after.graph.Acyclic ∧ after.graph.LookupsEnd := by
  let files := FileTree.putFile {} ["bir", "m.bir"] (.file "deep[] { deep() }".toUTF8)
  let start := State.initial {} files (.prepared []) "main.bir" "use \"m\"\ndeep()"
  have hends : ((Script.perform 20 .load start).state?).isSome = true := by decide +kernel
  obtain ⟨state, hstate⟩ := Option.isSome_iff_exists.1 hends
  have hreachable : state.Reachable := .performed (.initial ..) hstate
  have hparents : ((Script.perform 20 .load start).state?).map
      (fun state => (state.graph.get 0).parents) = some [1] := by decide +kernel
  rw [hstate] at hparents
  have hacyclic := scope_graph_is_acyclic hreachable
  exact ⟨state, hreachable, by simpa using hparents, hacyclic.1.1,
    hacyclic.2 Script.main hreachable.manned.self⟩

end Bir
