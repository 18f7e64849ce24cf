import Bir.Proofs.Frozen.Graph
import Bir.Proofs.Levels
import Bir.Proofs.Monotone

/-!
# Frozen tops — evaluations leave the top scopes of modules as they are

Writes ask whether a scope is immutable; declarations, slots and stores do not.  These change the
current scope of the engine in control, the scope of a block that is being declared there, or the
store of a block, and none of them is ever the top scope of a module.  This file defines:

* `State.Exposed` and `State.IsTop` — the modules that are imported, and their top scopes;
* `State.Anchored` — the current scope of an engine is good, and so it will be wherever control
  returns to: the case of `State.Levels` in which the same scopes are good at every level;
* `State.Sealed` and `Moment.Sealed` — what keeps all changes away from the tops.

`Move.sealed` shows that every move keeps moments sealed, and `runMain_sealed` what follows for the
main program of an engine.
-/

namespace Bir

/-! ## Tops -/

namespace State

variable (state : State)

/-- The import of a module is done: an engine uses it. -/
def Exposed (module : EngineId) : Prop :=
  ∃ importer, module ∈ (state.engine importer).uses

/-- A scope is the top scope of a module whose import is done. -/
def IsTop (scope : ScopeId) : Prop :=
  ∃ module, state.Exposed module ∧ (state.engine module).root = scope

/-- The top scope of an engine, but for its flag. -/
def top (module : EngineId) : Scope :=
  (state.graph.get (state.engine module).root).contents

/-- A scope is there and is no top. -/
def Outside (size : Nat) (scope : ScopeId) : Prop :=
  scope < size ∧ ¬ state.IsTop scope

/-- A scope is there, and no engine has it as its root. -/
def Aside (size : Nat) (scope : ScopeId) : Prop :=
  scope < size ∧ ∀ id < state.engines.size, (state.engine id).root ≠ scope

/-- Tops refuse writes, and no block has one as its store. -/
structure Sealed : Prop where
  exist : state.UsesExist
  guards : state.graph.Guards state.IsTop
  roots : ∀ id < state.engines.size, (state.engine id).root < state.graph.scopes.size
  stores : state.graph.EveryBlock fun block =>
    ∀ store ∈ block.store, state.Aside state.graph.scopes.size store

variable {state}

theorem Outside.mono {size size' : Nat} {scope : ScopeId} (h : state.Outside size scope)
    (hsize : size ≤ size') : state.Outside size' scope :=
  ⟨Nat.lt_of_lt_of_le h.1 hsize, h.2⟩

theorem Aside.mono {size size' : Nat} {scope : ScopeId} (h : state.Aside size scope)
    (hsize : size ≤ size') : state.Aside size' scope :=
  ⟨Nat.lt_of_lt_of_le h.1 hsize, h.2⟩

namespace Sealed

variable (h : state.Sealed)
include h

theorem lt_of_exposed {module : EngineId} (exposed : state.Exposed module) :
    module < state.engines.size := by
  rcases exposed with ⟨importer, hmem⟩
  exact h.exist importer module hmem

theorem outside_of_aside {size : Nat} {scope : ScopeId} (aside : state.Aside size scope) :
    state.Outside size scope := by
  refine ⟨aside.1, ?_⟩
  rintro ⟨module, hexposed, hroot⟩
  exact aside.2 module (h.lt_of_exposed hexposed) hroot

/-- A scope that is new is no root. -/
theorem aside_of_new {size : Nat} (hsize : state.graph.scopes.size ≤ size) :
    state.Aside (size + 1) size := by
  refine ⟨Nat.lt_succ_self size, ?_⟩
  intro id hid hroot
  have hlt : (state.engine id).root < size := Nat.lt_of_lt_of_le (h.roots id hid) hsize
  exact Nat.lt_irrefl size (hroot ▸ hlt)

theorem outside_of_new {size : Nat} (hsize : state.graph.scopes.size ≤ size) :
    state.Outside (size + 1) size :=
  h.outside_of_aside (h.aside_of_new hsize)

end Sealed

/-- Wherever control goes as brackets are ended, the current scope is a good one. -/
abbrev Anchored (good : ScopeId → Prop) : List Bracket → EngineId → State → Prop :=
  Levels fun _ _ => good

end State

/-! ## Moments -/

/-- The store of a block lies aside. -/
def Block.StoredAside (start : State) (size : Nat) (block : Block) : Prop :=
  ∀ store ∈ block.store, start.Aside size store

/-- What will be changed when a bracket is closed is no top. -/
def Bracket.Sealed (start : State) (graph : ScopeGraph) : Bracket → Prop
  | .binding holder _ _ => ¬ start.IsTop holder
  | .block ref name store => ¬ start.IsTop ref.scope ∧ ScopeGraph.unmarked name = name ∧
      (graph.get ref.scope).declares name = true ∧ ∀ id ∈ store, start.Aside graph.scopes.size id
  | _ => True

/-- A moment of an evaluation that has spared the tops of the state that it began in. -/
structure Moment.Sealed (start : State) (moment : Moment) : Prop where
  same : State.SameModules start moment.state
  spares : start.graph.Spares start.IsTop moment.state.graph
  stores : moment.state.graph.EveryBlock (Block.StoredAside start moment.state.graph.scopes.size)
  pending : ∀ bracket ∈ moment.pending, bracket.Sealed start moment.state.graph
  anchored : State.Anchored (start.Outside moment.state.graph.scopes.size) moment.pending
    moment.self moment.state

theorem Bracket.Sealed.mono {start : State} {graph graph' : ScopeGraph} {bracket : Bracket}
    (h : bracket.Sealed start graph) (spares : graph.Spares start.IsTop graph') :
    bracket.Sealed start graph' := by
  cases bracket with
  | block ref name store =>
      rcases h with ⟨houtside, hunmarked, hdeclares, hstore⟩
      refine ⟨houtside, hunmarked, spares.declares _ _ hdeclares, ?_⟩
      intro id hid
      exact (hstore id hid).mono spares.size
  | binding holder name kind => exact h
  | _ => exact trivial

namespace Moment.Sealed

variable {start : State} {moment : Moment}

/-- Slots are kept aside. -/
theorem slotStore (h : moment.Sealed start) {store : ScopeId}
    (target : moment.state.slotStore? moment.self = some store) :
    start.Aside moment.state.graph.scopes.size store := by
  rcases Option.bind_eq_some_iff.1 target with ⟨ref, -, hstore⟩
  have hmissing : Block.StoredAside start moment.state.graph.scopes.size default := by
    intro id hid
    cases hid
  exact h.stores.block hmissing ref store hstore

variable {moment' : Moment}

/-- No move changes what is in a top. -/
theorem spares_move (h : moment.Sealed start) (sealed : start.Sealed)
    (move : Move (fun _ statement => statement.Sound) moment moment') :
    moment.state.graph.Spares start.IsTop moment'.state.graph := by
  have hguards := h.spares.guards sealed.guards
  have hcurrent := h.anchored.endsIn.currentScope
  cases move with
  -- Writes ask whether a scope is immutable, and tops are.
  | write => exact .update hguards _ _ _
  | slotWrite => exact .update hguards _ _ _
  -- Other changes of slots are changes of stores.
  | slotPush index value target missing =>
      have hstore := sealed.outside_of_aside (h.slotStore target)
      exact .modify hstore.2 fun _ _ hdeclares => hdeclares
  | slotErase index target found =>
      have hstore := sealed.outside_of_aside (h.slotStore target)
      exact .delete hstore.2 found
  -- What is declared is declared in the current scope.
  | closeBinding =>
      have hscope := h.pending _ List.mem_cons_self
      exact .modify hscope fun _ _ hdeclares => hdeclares
  | openBlock =>
      exact .modify hcurrent.2 fun _ _ hdeclares => Scope.declares_addBlock hdeclares _
  | openImplementing =>
      exact .modify hcurrent.2 fun _ _ hdeclares => Scope.declares_addBlock hdeclares _
  | attachStore =>
      have hscope := (h.pending _ List.mem_cons_self).1
      exact (ScopeGraph.Spares.add hguards _).trans (.modifyBlock hscope fun _ => rfl)
  | closeBlock =>
      rcases h.pending _ List.mem_cons_self with ⟨hscope, hunmarked, hdeclares, -⟩
      exact .markInitialized hscope hunmarked hdeclares _
  | @closeSeeded pending self ref name store state values =>
      rcases h.pending _ List.mem_cons_self with ⟨hscope, hunmarked, hdeclares, hstore⟩
      have houtside := sealed.outside_of_aside (hstore store rfl)
      have hseeded : state.graph.Spares start.IsTop
          (state.modifyScope store (Declaration.seed values)).graph :=
        .modify houtside.2 fun _ _ hdeclares => hdeclares
      exact hseeded.trans (.markInitialized hscope hunmarked (hseeded.declares _ _ hdeclares) _)
  -- New scopes are no tops, and loans change flags alone.
  | makeStore => exact .add hguards _
  | enterCall => exact .add hguards _
  | enterTurn => exact .add hguards _
  | lend => exact .flag _ fun _ => rfl
  | giveBack => exact .flag _ fun _ => rfl
  | _ => exact .refl _

/-- The store that a block gets is a new scope, or lies aside since its declaration began. -/
theorem stores_move (h : moment.Sealed start) (sealed : start.Sealed)
    (move : Move (fun _ statement => statement.Sound) moment moment') :
    moment'.state.graph.EveryBlock
      (Block.StoredAside start moment'.state.graph.scopes.size) := by
  have hsize := (h.spares_move sealed move).size
  have hkept : moment.state.graph.EveryBlock
      (Block.StoredAside start moment'.state.graph.scopes.size) :=
    h.stores.mono fun block hblock store hstore => (hblock store hstore).mono hsize
  have hunstored : ∀ {block : Block}, block.store = none →
      Block.StoredAside start moment'.state.graph.scopes.size block := by
    intro block hnone store hstore
    rw [hnone] at hstore
    cases hstore
  cases move with
  | write => exact hkept.update _ _ _
  | slotWrite => exact hkept.update _ _ _
  | slotErase => exact hkept.delete _ _
  | openBlock =>
      refine hkept.modify _ fun scope block hmem => ?_
      rcases List.mem_append.1 hmem with hold | hnew
      · exact Or.inl hold
      · exact Or.inr (hunstored (by rw [List.mem_singleton.1 hnew]; rfl))
  | openImplementing =>
      refine hkept.modify _ fun scope block hmem => ?_
      rcases List.mem_append.1 hmem with hold | hnew
      · exact Or.inl hold
      · exact Or.inr (hunstored (by rw [List.mem_singleton.1 hnew]; rfl))
  | @attachStore pending self state ref name =>
      have hnew : start.Aside (state.graph.scopes.size + 1) state.graph.scopes.size :=
        sealed.aside_of_new h.spares.size
      refine (hkept.add rfl).modifyBlock ref fun block _ store hstore => ?_
      cases hstore
      simpa [State.attachStore] using hnew
  | closeBlock =>
      rcases h.pending _ List.mem_cons_self with ⟨-, -, -, hstore⟩
      refine hkept.markInitialized _ _ fun block _ store hmem => ?_
      exact (hstore store hmem).mono hsize
  | @closeSeeded pending self ref name store state values =>
      rcases h.pending _ List.mem_cons_self with ⟨-, -, -, hstore⟩
      have hseeded : (state.modifyScope store (Declaration.seed values)).graph.EveryBlock _ :=
        hkept.modify store fun _ _ => Or.inl
      refine hseeded.markInitialized _ _ fun block _ store hmem => ?_
      exact (hstore store hmem).mono hsize
  | makeStore => exact hkept.add rfl
  | enterCall => exact hkept.add (by rfl)
  | enterTurn => exact hkept.add (by rfl)
  | slotPush => exact hkept.modify _ fun _ _ => Or.inl
  | closeBinding => exact hkept.modify _ fun _ _ => Or.inl
  | lend => exact hkept.modify _ fun _ _ => Or.inl
  | giveBack => exact hkept.modify _ fun _ _ => Or.inl
  | _ => exact hkept

/-- What a move begins will change no top when it is ended. -/
theorem pending_move (h : moment.Sealed start) (sealed : start.Sealed)
    (move : Move (fun _ statement => statement.Sound) moment moment') :
    ∀ bracket ∈ moment'.pending, bracket.Sealed start moment'.state.graph := by
  have hspares := h.spares_move sealed move
  have hcurrent := h.anchored.endsIn.currentScope
  have hkept : ∀ bracket ∈ moment.pending, bracket.Sealed start moment'.state.graph :=
    fun bracket hmem => (h.pending bracket hmem).mono hspares
  have hrest : ∀ {bracket pending}, moment.pending = bracket :: pending →
      ∀ other ∈ pending, other.Sealed start moment'.state.graph :=
    fun hpending other hmem => hkept other (by simp [hpending, hmem])
  cases move with
  | openBinding => exact List.forall_mem_cons.2 ⟨hcurrent.2, hkept⟩
  | @openBlock pending self state name verbs arguments init program _ _ statement missing =>
      have hname : ScopeGraph.unmarked name.name = name.name :=
        (statement.name (by simp [Statement.names])).1
      have hdeclares := state.graph.declares_modify_addBlock hcurrent.1
        (.declared self name.name (verbs.map (·.name)) (arguments.map (·.name)) init program)
      refine List.forall_mem_cons.2 ⟨⟨hcurrent.2, hname, hdeclares, ?_⟩, hkept⟩
      exact fun _ hid => by cases hid
  | @openImplementing pending self state name parent populate _ found _ statement implemented
      missing =>
      have hname : ScopeGraph.unmarked name.name = name.name :=
        (statement.name (by simp [Statement.names])).1
      have hdeclares := state.graph.declares_modify_addBlock hcurrent.1
        (.implementing self name.name (state.graph.block found.block))
      refine List.forall_mem_cons.2 ⟨⟨hcurrent.2, hname, hdeclares, ?_⟩, hkept⟩
      exact fun _ hid => by cases hid
  | @attachStore pending self state ref name =>
      have hnew : start.Aside (state.graph.scopes.size + 1) state.graph.scopes.size :=
        sealed.aside_of_new h.spares.size
      rcases hkept _ List.mem_cons_self with ⟨houtside, hunmarked, hdeclares, -⟩
      refine List.forall_mem_cons.2 ⟨⟨houtside, hunmarked, hdeclares, fun id hid => ?_⟩, hrest rfl⟩
      cases hid
      simpa [State.attachStore] using hnew
  | enterStore => exact List.forall_mem_cons.2 ⟨trivial, hkept⟩
  | @makeStore pending self state ref name =>
      have hnew : start.Aside (state.graph.scopes.size + 1) state.graph.scopes.size :=
        sealed.aside_of_new h.spares.size
      rcases hkept _ List.mem_cons_self with ⟨houtside, hunmarked, hdeclares, -⟩
      refine List.forall_mem_cons.2 ⟨⟨houtside, hunmarked, hdeclares, fun id hid => ?_⟩, hrest rfl⟩
      cases hid
      simpa using hnew
  | openCall => exact List.forall_mem_cons.2 ⟨trivial, hkept⟩
  | closeCall => exact hrest rfl
  | enterCall => exact List.forall_mem_cons.2 ⟨trivial, hkept⟩
  | enterTurn => exact List.forall_mem_cons.2 ⟨trivial, hkept⟩
  | enterFlow => exact List.forall_mem_cons.2 ⟨trivial, hkept⟩
  | enterFrame => exact List.forall_mem_cons.2 ⟨trivial, hkept⟩
  | lend => exact List.forall_mem_cons.2 ⟨trivial, hkept⟩
  | closeBinding => exact hrest rfl
  | dropBinding => exact hrest rfl
  | closeBlock => exact hrest rfl
  | closeSeeded => exact hrest rfl
  | dropBlock => exact hrest rfl
  | leaveScope => exact hrest rfl
  | leaveFrame => exact hrest rfl
  | giveBack => exact hrest rfl
  | _ => exact hkept

/-- Wherever control goes, the current scope is no top. -/
theorem anchored_move (h : moment.Sealed start) (sealed : start.Sealed)
    (move : Move (fun _ statement => statement.Sound) moment moment') :
    State.Anchored (start.Outside moment'.state.graph.scopes.size) moment'.pending moment'.self
      moment'.state := by
  have hsize := (h.spares_move sealed move).size
  have hkept : State.Anchored (start.Outside moment'.state.graph.scopes.size) moment.pending
      moment.self moment.state := h.anchored.mono fun _ _ _ houtside => houtside.mono hsize
  have hnew : start.Outside (moment.state.graph.scopes.size + 1) moment.state.graph.scopes.size :=
    sealed.outside_of_new h.spares.size
  have hexist := h.same.sameUses.usesExist sealed.exist
  have hlt := hkept.endsIn.lt
  refine hkept.move hexist move fun hopens => ?_
  cases move with
  | @enterStore pending self ref name store state =>
      rcases h.pending _ List.mem_cons_self with ⟨-, -, -, hstore⟩
      have houtside := sealed.outside_of_aside (hstore store rfl)
      simpa [state.currentScope_pushScope store hlt] using houtside
  | @enterCall pending self state ref awaited interpreted verbs arguments brought =>
      simpa [State.currentScope_enter state _ _ hlt] using hnew
  | @enterTurn pending self state placeholder index =>
      simpa [State.currentScope_enter state _ _ hlt] using hnew
  | enterFlow frame => simpa using hkept.current
  | enterFrame name => simpa using hkept.current
  | @lend pending self state found owner owned lent =>
      have hexists : owner < state.engines.size := owned ▸ hexist.lt_of_isLent lent
      have hcurrent := hkept.currentScope_take (owned ▸ State.owner_ne_of_isLent lent) hexists
      exact hcurrent ▸ hkept.current
  | openBinding => exact hkept.current
  | openBlock => exact hkept.current
  | openImplementing => exact hkept.current
  | openCall => exact hkept.current
  | attachStore => exact hkept.current
  | makeStore => exact hkept.current
  -- No other move opens a level.
  | _ => exact absurd (by simp) hopens

theorem move (h : moment.Sealed start) (sealed : start.Sealed)
    (move : Move (fun _ statement => statement.Sound) moment moment') :
    moment'.Sealed start where
  same := h.same.trans move.sameModules
  spares := h.spares.trans (h.spares_move sealed move)
  stores := h.stores_move sealed move
  pending := h.pending_move sealed move
  anchored := h.anchored_move sealed move

end Moment.Sealed

/-! ## Records of tops -/

/-- Known modules are imported, and what the tops of all imported modules have in them is on
record. -/
structure State.Shows (known : EngineId → Prop) (tops : EngineId → Scope) (state : State) :
    Prop where
  exposed : ∀ module, known module → state.Exposed module
  top : ∀ module, state.Exposed module → state.top module = tops module

open Classical in
/-- The watch that finds a state that is not as recorded. -/
noncomputable def Watch.changed (known : EngineId → Prop) (tops : EngineId → Scope) : Watch :=
  fun _ _ state => decide (¬ state.Shows known tops)

/-- Modules that are imported stay imported and keep their tops. -/
structure State.Keeps (before after : State) : Prop where
  exposed : ∀ module, before.Exposed module → after.Exposed module
  top : ∀ module, before.Exposed module → after.top module = before.top module

namespace State.Keeps

variable {before between after : State}

theorem refl (state : State) : Keeps state state := ⟨fun _ h => h, fun _ _ => rfl⟩

theorem trans (h : Keeps before between) (h' : Keeps between after) : Keeps before after where
  exposed module hexposed := h'.exposed module (h.exposed module hexposed)
  top module hexposed := by
    calc
      after.top module = between.top module := h'.top module (h.exposed module hexposed)
      _ = before.top module := h.top module hexposed

/-- A later record is right about what was imported earlier. -/
theorem shows {known : EngineId → Prop} {tops : EngineId → Scope} (h : Keeps before after)
    (imported : ∀ module, known module → before.Exposed module) (shows : after.Shows known tops) :
    before.Shows known tops where
  exposed := imported
  top module hexposed := by
    rw [← h.top module hexposed]
    exact shows.top module (h.exposed module hexposed)

end State.Keeps

namespace Moment.Sealed

variable {start : State} {moment : Moment}

theorem exposed_iff (h : moment.Sealed start) (module : EngineId) :
    moment.state.Exposed module ↔ start.Exposed module := by
  unfold State.Exposed
  simp only [h.same.uses]

theorem top_eq (h : moment.Sealed start) {module : EngineId} (exposed : start.Exposed module) :
    moment.state.top module = start.top module := by
  unfold State.top
  rw [h.same.root]
  exact h.spares.contents _ ⟨module, exposed, rfl⟩

theorem keeps (h : moment.Sealed start) : start.Keeps moment.state where
  exposed module hexposed := (h.exposed_iff module).2 hexposed
  top _ hexposed := h.top_eq hexposed

/-- What was on record when an evaluation began is right at every moment of it. -/
theorem shows {known : EngineId → Prop} {tops : EngineId → Scope} (h : moment.Sealed start)
    (shows : start.Shows known tops) : moment.state.Shows known tops where
  exposed module hknown := (h.exposed_iff module).2 (shows.exposed module hknown)
  top module hexposed := by
    have hstart := (h.exposed_iff module).1 hexposed
    rw [h.top_eq hstart]
    exact shows.top module hstart

end Moment.Sealed

/-! ## Evaluations -/

/-- Tops are spared, as a discipline of evaluation under the watch for changes. -/
noncomputable def Discipline.sealing {start : State} (sealed : start.Sealed) {known : EngineId → Prop}
    {tops : EngineId → Scope} (shows : start.Shows known tops) :
    Discipline (Watch.changed known tops) :=
  .ofInvariant (Watch.changed known tops) .sound
    (fun moment => moment.Sealed start ∧ moment.state.Sound) False
    (fun h _ _ hchanged => by simp [Watch.changed, h.1.shows shows] at hchanged)
    (fun h hbody => h.2.block _ _ _ hbody)
    (fun h move => ⟨h.1.move sealed move, move.sound h.2⟩)

/-- The main program of an engine whose current scope is no top spares all tops, at every point of
it and to its end. -/
theorem runMain_sealed {start : State} (sealed : start.Sealed) (sound : start.Sound)
    {self : EngineId} (ends : State.EndsIn (start.Outside start.graph.scopes.size) self start)
    {known : EngineId → Prop} {tops : EngineId → Scope} (shows : start.Shows known tops)
    (bound : Nat) :
    runMain (executeUnder (Watch.changed known tops) bound) self start =
        runMain (execute bound) self start ∧
      (runMain (execute bound) self start).Leaves fun after =>
        Moment.Sealed start ⟨[], self, after⟩ ∧ after.Sound := by
  have hstart : Moment.Sealed start ⟨[], self, start⟩ :=
    ⟨.of_engines rfl, .refl _, sealed.stores, fun _ hmem => (by cases hmem), ends⟩
  have hmain := (Discipline.sealing sealed shows).runMain_completes bound (sound.programs self)
    ⟨hstart, sound⟩
  -- The watch finds no change, so the run is as it is without it.
  have hsilent : (runMain (executeUnder (Watch.changed known tops) bound) self start).isStopped =
      false :=
    Outcome.isStopped_eq_false (hmain.mono (fun _ _ h => h) fun _ _ h => h.2.1)
  have hrefines := Loss.stop_refines (Watch.changed known tops) bound
  have hsame := (hrefines.runMain_upTo self start).eq_of_not_stopped hsilent ()
  rw [(evaluateUnder_silent bound).2] at hsame
  rw [hsame] at hmain
  exact ⟨hsame, hmain.mono (fun _ _ h => h) fun _ _ h => h.1⟩

end Bir
