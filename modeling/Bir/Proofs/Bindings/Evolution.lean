import Bir.Proofs.Acyclic.Graph
import Bir.Proofs.Declarations

/-!
# Evolving bindings — what a move does to the bindings of a scope

Bindings get new values, unless they are constants; bindings join behind the others; and slots
leave.  This file defines:

* `Binding.Revises` — a binding with another value, if it is no constant;
* `Bindings.Evolve` — the bindings of a scope, and those of the scope later on;
* `Slot.Named` — the name of a slot;
* `ScopeGraph.HasSlot` — a name is that of a slot where slots are kept.

`Move.bindings` says which names may leave or join a scope in a move.
-/

namespace Bir

/-- A binding later on: of the same name and kind and, if it is a constant, of the same value. -/
structure Binding.Revises (later earlier : Binding) : Prop where
  name : later.name = earlier.name
  kind : later.kind = earlier.kind
  value : earlier.kind = .const → later.value = earlier.value

/-- A name is that of a slot. -/
def Slot.Named (name : String) : Prop := ∃ index, name = Slot.name index

/-- A scope is the store of a block, and a name is that of a slot. -/
def ScopeGraph.HasSlot (graph : ScopeGraph) (id : ScopeId) (name : String) : Prop :=
  Slot.Named name ∧ ∃ holder, graph.Stores holder id

/-- Slots at work are kept in the store of a block. -/
theorem State.stores_of_slotStore? {state : State} {self : EngineId} {store : ScopeId}
    (target : state.slotStore? self = some store) :
    ∃ holder, state.graph.Stores holder store := by
  rcases Option.bind_eq_some_iff.1 target with ⟨ref, -, hstore⟩
  exact ⟨ref.scope, .of_block hstore⟩

namespace Bindings

/-- The bindings of a scope later on: some have left it, the others are there in the same order, and
behind them are those that have joined. -/
inductive Evolve (leaves joins : String → Prop) : List Binding → List Binding → Prop where
  | joined {new : List Binding} (joined : ∀ binding ∈ new, joins binding.name) :
      Evolve leaves joins [] new
  | kept {old new : Binding} {rest rest' : List Binding} (revised : new.Revises old)
      (behind : Evolve leaves joins rest rest') : Evolve leaves joins (old :: rest) (new :: rest')
  | left {old : Binding} {rest rest' : List Binding} (left : leaves old.name)
      (behind : Evolve leaves joins rest rest') : Evolve leaves joins (old :: rest) rest'

end Bindings

namespace Binding.Revises

variable {earlier between later : Binding}

theorem refl (binding : Binding) : binding.Revises binding := ⟨rfl, rfl, fun _ => rfl⟩

theorem trans (h : between.Revises earlier) (h' : later.Revises between) :
    later.Revises earlier where
  name := h'.name.trans h.name
  kind := h'.kind.trans h.kind
  value hconst := (h'.value (h.kind.trans hconst)).trans (h.value hconst)

end Binding.Revises

/-! ## Evolving bindings -/

namespace Bindings.Evolve

variable {leaves joins : String → Prop} {before between after : List Binding}

theorem refl (bindings : List Binding) : Evolve leaves joins bindings bindings := by
  induction bindings with
  | nil => exact .joined fun _ hmem => by cases hmem
  | cons binding rest ih => exact .kept (.refl binding) ih

/-- What has joined may be revised or leave, and more may join. -/
theorem forall_joins (h : Evolve leaves joins before after)
    (joined : ∀ binding ∈ before, joins binding.name) : ∀ binding ∈ after, joins binding.name := by
  induction h with
  | joined hjoined => exact hjoined
  | @kept old new rest rest' revised _ ih =>
      have hrest := ih fun binding hmem => joined binding (List.mem_cons_of_mem old hmem)
      refine List.forall_mem_cons.2 ⟨?_, hrest⟩
      exact revised.name ▸ joined old List.mem_cons_self
  | @left old rest rest' _ _ ih =>
      exact ih fun binding hmem => joined binding (List.mem_cons_of_mem old hmem)

theorem trans (h : Evolve leaves joins before between) (h' : Evolve leaves joins between after) :
    Evolve leaves joins before after := by
  -- Along the first list: what left is gone, and what was kept is followed on in `h'`.
  induction h generalizing after with
  | joined hjoined => exact .joined (h'.forall_joins hjoined)
  | kept revised _ ih =>
      cases h' with
      | kept revised' behind => exact .kept (revised.trans revised') (ih behind)
      | left left behind => exact .left (revised.name ▸ left) (ih behind)
  | left left _ ih => exact .left left (ih h')

/-- A binding may join behind the others. -/
theorem push {binding : Binding} (joined : joins binding.name) (bindings : List Binding) :
    Evolve leaves joins bindings (bindings ++ [binding]) := by
  induction bindings with
  | nil => exact .joined (by simpa using joined)
  | cons first rest ih => exact .kept (.refl first) ih

/-- The first binding of a name may get another value if it is no constant. -/
theorem overwrite {name : String} (bindings : List Binding) (value : Int64)
    (unconst : ∀ binding ∈ bindings.find? (·.name == name), binding.kind ≠ .const) :
    Evolve leaves joins bindings (bindings.modify (bindings.findIdx (·.name == name))
      fun binding => { binding with value }) := by
  induction bindings with
  | nil => exact .refl []
  | cons first rest ih =>
      cases hname : first.name == name with
      | true =>
          have hvariable : first.kind ≠ .const := unconst first (by simp [hname])
          have hrevised : ({ first with value } : Binding).Revises first :=
            ⟨rfl, rfl, fun hconst => absurd hconst hvariable⟩
          simpa [List.findIdx_cons, hname] using Evolve.kept hrevised (.refl rest)
      | false =>
          have hrest := ih fun binding hbinding => unconst binding (by simpa [hname] using hbinding)
          simpa [List.findIdx_cons, hname] using Evolve.kept (.refl first) hrest

/-- The first binding of a name may leave. -/
theorem erase {name : String} (left : leaves name) (bindings : List Binding) :
    Evolve leaves joins bindings (bindings.eraseP (·.name == name)) := by
  induction bindings with
  | nil => exact .refl []
  | cons first rest ih =>
      cases hname : first.name == name with
      | true =>
          have hfirst : leaves first.name := (beq_iff_eq.1 hname).symm ▸ left
          simpa [hname] using Evolve.left hfirst (.refl rest)
      | false => simpa [hname] using Evolve.kept (.refl first) ih

end Bindings.Evolve

/-! ## Moves -/

namespace ScopeGraph

variable (graph : ScopeGraph) {leaves joins : String → Prop}

theorem bindings_modify {id scope : ScopeId} {change : Scope → Scope}
    (h : scope = id → Bindings.Evolve leaves joins (graph.get id).bindings
      (change (graph.get id)).bindings) :
    Bindings.Evolve leaves joins (graph.get id).bindings
      ((graph.modify scope change).get id).bindings := by
  rw [get_modify]
  split
  · rename_i hscope
    exact h hscope.1
  · exact .refl _

/-- A write revises bindings, and none of them is a constant. -/
theorem bindings_update (scope id : ScopeId) (name : String) (value : Int64) :
    Bindings.Evolve leaves joins (graph.get id).bindings
      ((graph.update scope name value).1.get id).bindings := by
  -- One scope after the other is written, and each of them has a variable of the name.
  refine update_induction
    (motive := fun after => Bindings.Evolve leaves joins (graph.get id).bindings
      (after.get id).bindings) graph scope name value (.refl _) ?_
  intro after holder hafter hwritable
  refine hafter.trans (after.bindings_modify fun hholder => ?_)
  subst hholder
  exact .overwrite _ value hwritable.unconst

theorem bindings_congr {graph' : ScopeGraph} {id : ScopeId}
    (same : (graph'.get id).bindings = (graph.get id).bindings) :
    Bindings.Evolve leaves joins (graph.get id).bindings (graph'.get id).bindings := by
  rw [same]
  exact .refl _

theorem bindings_markInitialized (scope id : ScopeId) (name : String) (store : Option ScopeId) :
    ((graph.markInitialized scope name store).get id).bindings = (graph.get id).bindings := by
  rcases graph.markInitialized_cases scope name store with hsame | ⟨found, -, hmarked⟩
  · rw [hsame]
  · rw [hmarked]
    exact graph.get_modify_congr Scope.bindings found.block.scope id fun _ => rfl

end ScopeGraph

/-- The bindings of a scope evolve in a move.  Slots leave and join it if it is the store of the
block that is running, a name joins it if it is being declared there, and it is not a store that is
being seeded. -/
theorem Move.bindings {allowed : EngineId → Statement → Prop} {moment moment' : Moment}
    (move : Move allowed moment moment') {leaves joins : String → Prop} {id : ScopeId}
    (exists' : id < moment.state.graph.scopes.size)
    (slots : moment.state.slotStore? moment.self = some id →
      ∀ index, leaves (Slot.name index) ∧ joins (Slot.name index))
    (declared : ∀ name kind outer, moment.pending = .binding id name kind :: outer → joins name)
    (seeded : ∀ ref name outer, moment.pending ≠ .block ref name (some id) :: outer) :
    Bindings.Evolve leaves joins (moment.state.graph.get id).bindings
      (moment'.state.graph.get id).bindings := by
  cases move with
  | write => exact ScopeGraph.bindings_update _ _ id _ _
  | slotWrite => exact ScopeGraph.bindings_update _ _ id _ _
  | @slotPush pending self state store index value target missing =>
      refine state.graph.bindings_modify fun hstore => ?_
      subst hstore
      exact .push (slots target index).2 _
  | @slotErase pending self state store index target found =>
      rw [State.graph_modifyGraph, state.graph.delete_eq_of_binds found]
      refine state.graph.bindings_modify fun hstore => ?_
      subst hstore
      exact .erase (slots target index).1 _
  | @closeBinding pending self state scope name kind value =>
      refine state.graph.bindings_modify fun hscope => ?_
      subst hscope
      exact .push (declared name kind pending rfl) _
  -- Seeding does not ask for the kind of `index`, so the scope must not be the store.
  | @closeSeeded pending self ref name store state values =>
      have hstore : store ≠ id := by
        rintro rfl
        exact seeded ref name pending rfl
      apply ScopeGraph.bindings_congr
      rw [State.graph_modifyGraph, ScopeGraph.bindings_markInitialized, State.graph_modifyScope,
        state.graph.get_modify_ne _ hstore]
  | closeBlock => exact ScopeGraph.bindings_congr _ (ScopeGraph.bindings_markInitialized _ _ id _ _)
  | openBlock => exact ScopeGraph.bindings_modify _ fun _ => .refl _
  | openImplementing => exact ScopeGraph.bindings_modify _ fun _ => .refl _
  | lend => exact ScopeGraph.bindings_modify _ fun _ => .refl _
  | giveBack => exact ScopeGraph.bindings_modify _ fun _ => .refl _
  -- Scopes that are there are not touched when others are added.
  | @attachStore pending self state ref name =>
      have hadded := state.graph.get_add_of_lt { parents := [state.currentScope self] } exists'
      refine hadded ▸ ScopeGraph.bindings_modify _ fun _ => .refl _
  | @makeStore pending self state ref name =>
      exact ScopeGraph.bindings_congr _ (by simp [state.graph.get_add_of_lt _ exists'])
  | @enterCall pending self state ref awaited interpreted verbs arguments brought =>
      exact ScopeGraph.bindings_congr _ (by simp [state.graph.get_add_of_lt _ exists'])
  | @enterTurn pending self state placeholder index =>
      exact ScopeGraph.bindings_congr _ (by simp [state.graph.get_add_of_lt _ exists'])
  | _ => exact .refl _

end Bir
