import Bir.Proofs.Bindings.Evolution
import Bir.Proofs.Nesting

/-!
# Names — which of them a scope binds more than once

A declaration asks whether its name is bound, and so does `$write`.  But in three cases a name gets
a second binding in a scope: the slots of a store are seeded without being asked about; a slot may
be made while a declaration of its name waits for a value; and a call binds all parameters of a
block, also those of the same name.  This file shows that there are no others.  It defines:

* `ScopeGraph.OpensCall` — a scope begins with the parameters of a block, among them all bindings of
  a name;
* `Bracket.Suffices` — a call brings what its block asks for;
* `Moment.HasStore` — a scope is the store of a block, or is being made for one;
* `Moment.Distinct` — what is known of the names of scopes at every moment of a run.

`names_are_distinct` is the result, and `slots_and_parameters_repeat` has the exceptions.
-/

namespace Bir

/-! ## Names of a scope -/

namespace Scope

variable (scope : Scope) (name : String) (value : Int64)

theorem names_push (kind : BindingKind) :
    (scope.push name value kind).names = scope.names ++ [name] := by
  simp [names, push]

theorem names_erase : (scope.erase name).names = scope.names.erase name := by
  simp [names, erase, List.erase_eq_eraseP', List.eraseP_map, Function.comp_def]

theorem not_mem_names (h : scope.binds name = false) : name ∉ scope.names := by
  simpa [names, binds] using h

/-- Making a slot binds no other name. -/
theorem count_names_push (index : Int64) (other : ¬ Slot.Named name) :
    (scope.push (Slot.name index) value .let).names.count name = scope.names.count name := by
  have hname : Slot.name index ≠ name := fun heq => other ⟨index, heq.symm⟩
  rw [names_push, List.count_append]
  simp [hname]

theorem count_names_erase (index : Int64) (other : ¬ Slot.Named name) :
    (scope.erase (Slot.name index)).names.count name = scope.names.count name := by
  have hname : name ≠ Slot.name index := fun heq => other ⟨index, heq⟩
  rw [names_erase]
  exact List.count_erase_of_ne hname

/-- Only slots are seeded. -/
theorem count_names_seed (values : List Int64) (other : ¬ Slot.Named name) :
    (Declaration.seed values scope).names.count name = scope.names.count name := by
  have hseeded : name ∉ (Declaration.seededSlots values).map fun binding => binding.name := by
    intro hmem
    simp only [Declaration.seededSlots, List.map_map, List.mem_map, Function.comp_apply] at hmem
    rcases hmem with ⟨⟨value, index⟩, -, rfl⟩
    exact other ⟨_, rfl⟩
  have hnames : (Declaration.seed values scope).names =
      scope.names ++ (Declaration.seededSlots values).map fun binding => binding.name := by
    unfold Declaration.seed
    rw [names_overwrite]
    simp [names]
  rw [hnames, List.count_append, List.count_eq_zero.2 hseeded, Nat.add_zero]

end Scope

namespace ScopeGraph

/-- A scope begins with all parameters of a block, its verbs and then its arguments, and has no
bindings of a name but these. -/
def OpensCall (graph : ScopeGraph) (id : ScopeId) (name : String) : Prop :=
  ∃ holder, ∃ block ∈ (graph.get holder).blocks,
    block.verbs ++ block.arguments <+: (graph.get id).names ∧
      (graph.get id).names.count name = (block.verbs ++ block.arguments).count name

/-- A scope binds a name once at most, unless the name is that of a slot and the scope is a store,
or the name is that of parameters and the scope is entered for a call. -/
def Distinct (graph : ScopeGraph) (id : ScopeId) (name : String) : Prop :=
  (graph.get id).names.count name ≤ 1 ∨ graph.HasSlot id name ∨ graph.OpensCall id name

variable {graph graph' : ScopeGraph} {id : ScopeId} {name : String}

theorem HasSlot.mono (h : graph.HasSlot id name)
    (stores : ∀ holder store, graph.Stores holder store → graph'.Stores holder store) :
    graph'.HasSlot id name := by
  rcases h with ⟨hnamed, holder, hstores⟩
  exact ⟨hnamed, holder, stores holder id hstores⟩

/-- More may be bound behind the parameters of a call. -/
theorem OpensCall.mono (h : graph.OpensCall id name)
    (signatures : ∀ holder, graph.signatures holder <+: graph'.signatures holder)
    (names : (graph.get id).names <+: (graph'.get id).names)
    (count : (graph'.get id).names.count name = (graph.get id).names.count name) :
    graph'.OpensCall id name := by
  rcases h with ⟨holder, block, hmem, hbegins, hcount⟩
  have hsignature : block.signature ∈ graph'.signatures holder :=
    (signatures holder).subset (List.mem_map_of_mem hmem)
  obtain ⟨block', hmem', hsame⟩ := List.mem_map.1 hsignature
  -- The parameters are part of the signature.
  simp only [Block.signature, Prod.mk.injEq] at hsame
  refine ⟨holder, block', hmem', ?_, ?_⟩
  · rw [hsame.2.1, hsame.2.2]
    exact hbegins.trans names
  · rw [hsame.2.1, hsame.2.2, count, hcount]

theorem Distinct.mono (h : graph.Distinct id name)
    (stores : ∀ holder store, graph.Stores holder store → graph'.Stores holder store)
    (signatures : ∀ holder, graph.signatures holder <+: graph'.signatures holder)
    (names : (graph.get id).names <+: (graph'.get id).names)
    (count : (graph'.get id).names.count name = (graph.get id).names.count name) :
    graph'.Distinct id name := by
  rcases h with honce | hslot | hcall
  · exact Or.inl (count ▸ honce)
  · exact Or.inr (Or.inl (hslot.mono stores))
  · exact Or.inr (Or.inr (hcall.mono signatures names count))

end ScopeGraph

/-! ## Calls -/

/-- A call that brings what a block asks for binds all parameters of the block. -/
theorem Call.names_parameters {block : Block} {verbs arguments : List Int64}
    (interpreted : block.isNative = false)
    (enough : mismatches block verbs.length arguments.length = []) :
    (parameters block verbs arguments).map (fun binding => binding.name) =
      block.verbs ++ block.arguments := by
  simp only [mismatches, interpreted, Bool.false_eq_true, if_false, List.append_eq_nil_iff,
    ite_eq_right_iff, List.cons_ne_nil, imp_false, Nat.not_lt] at enough
  have hnames : ∀ {names : List String} {values : List Int64}, names.length ≤ values.length →
      (names.zip values).map (fun pair => pair.1) = names := List.map_fst_zip
  simp [parameters, Function.comp_def, hnames enough.1, hnames enough.2]

/-- What a call asks of a block is no matter of the state of the block. -/
theorem Call.stateless_mismatches : Block.Stateless mismatches := fun _ _ _ => rfl

/-- The block that is called is there, and the call brings what it asks for. -/
def Bracket.Suffices (graph : ScopeGraph) : Bracket → Prop
  | .call ref verbs arguments => ∃ block, (graph.get ref.scope).blocks[ref.index]? = some block ∧
      Call.mismatches block verbs arguments = []
  | _ => True

/-- Blocks stay where they are, and go on to ask for what they have asked for. -/
theorem Bracket.Suffices.mono {graph graph' : ScopeGraph} {bracket : Bracket}
    (h : bracket.Suffices graph)
    (blocks : ∀ id, (graph.get id).blocks.map Call.mismatches <+:
      (graph'.get id).blocks.map Call.mismatches) : bracket.Suffices graph' := by
  cases bracket with
  | call ref verbs arguments =>
      obtain ⟨block, hblock, henough⟩ := h
      have hplace : ((graph.get ref.scope).blocks.map Call.mismatches)[ref.index]? =
          some (Call.mismatches block) := by simp [hblock]
      obtain ⟨added, hadded⟩ := blocks ref.scope
      rw [← List.getElem?_append_left (List.getElem?_eq_some_iff.1 hplace).1, hadded,
        List.getElem?_map, Option.map_eq_some_iff] at hplace
      obtain ⟨block', hblock', hsame⟩ := hplace
      exact ⟨block', hblock', by rw [hsame, henough]⟩
  | _ => trivial

/-- A block that is called with something is called in the innermost bracket, or in the one that is
behind a loan. -/
theorem mem_of_awaited? {pending : List Bracket} {ref : BlockRef} {verbs arguments : Nat}
    (awaited : awaited? pending = some ref) (brought : brought? pending = some (verbs, arguments)) :
    .call ref verbs arguments ∈ pending := by
  unfold awaited? at awaited
  split at awaited <;> simp_all [brought?]

/-! ## Moves -/

/-- A scope is the store of a block, or is being made for one. -/
def Moment.HasStore (moment : Moment) (id : ScopeId) : Prop :=
  (∃ holder, moment.state.graph.Stores holder id) ∨
    ∃ bracket ∈ moment.pending, id ∈ bracket.store?

variable {moment moment' : Moment}

/-- Calls bring what is asked for, when they begin and from then on. -/
theorem Move.suffices {allowed : EngineId → Statement → Prop} (move : Move allowed moment moment')
    (h : ∀ bracket ∈ moment.pending, bracket.Suffices moment.state.graph) :
    ∀ bracket ∈ moment'.pending, bracket.Suffices moment'.state.graph := by
  have hkept : ∀ bracket ∈ moment.pending, bracket.Suffices moment'.state.graph :=
    fun bracket hmem => (h bracket hmem).mono (move.blocks_prefix Call.stateless_mismatches)
  refine Bracket.forall_mem_of_tail move.tail_suffix hkept fun hopens => ?_
  cases move with
  | @openCall pending self state name found verbs arguments seen enough =>
      rintro _ ⟨⟩
      have hindex := (state.graph.findBlock?_eq_some seen).2.1
      obtain ⟨hlt, -⟩ := List.findIdx?_eq_some_iff_getElem.1 hindex
      refine ⟨_, List.getElem?_eq_getElem hlt, ?_⟩
      simpa [ScopeGraph.block, hlt] using enough
  | _ => simp [Bracket.Suffices] at hopens ⊢

theorem LoadMove.suffices (move : LoadMove moment moment')
    (h : ∀ bracket ∈ moment.pending, bracket.Suffices moment.state.graph) :
    ∀ bracket ∈ moment'.pending, bracket.Suffices moment'.state.graph := by
  have hkept : ∀ bracket ∈ moment.pending, bracket.Suffices moment'.state.graph :=
    fun bracket hmem => (h bracket hmem).mono fun id => (move.blocks id).map _
  refine Bracket.forall_mem_of_tail move.tail_suffix hkept fun hopens => ?_
  cases move with
  | _ => simp [Bracket.Suffices] at hopens ⊢

/-- What becomes of the names of a scope in a move. -/
inductive Moment.Renames (moment moment' : Moment) (id : ScopeId) : Prop where
  | same (names : (moment'.state.graph.get id).names = (moment.state.graph.get id).names)
  /-- A declaration ends in the scope. -/
  | declared {name : String} {kind : BindingKind}
      (ended : moment.pending = .binding id name kind :: moment'.pending)
      (names : (moment'.state.graph.get id).names = (moment.state.graph.get id).names ++ [name])
  /-- The scope is a store, and has other slots now. -/
  | slots (had : moment.HasStore id) (has : ∃ holder, moment'.state.graph.Stores holder id)
      (count : ∀ name, ¬ Slot.Named name → (moment'.state.graph.get id).names.count name =
        (moment.state.graph.get id).names.count name)
  /-- The scope is new, and a store or that of a turn. -/
  | made (new : id = moment.state.graph.scopes.size)
      (names : (moment'.state.graph.get id).names.length ≤ 1)
  /-- The scope is new, and that of a call. -/
  | called (new : id = moment.state.graph.scopes.size) {holder : ScopeId} {block : Block}
      (declared : block ∈ (moment'.state.graph.get holder).blocks)
      (names : (moment'.state.graph.get id).names = block.verbs ++ block.arguments)

namespace Moment.Renames

variable {id : ScopeId}

/-- Only slots come and go when a store is changed. -/
theorem of_slots {store : ScopeId} {change : Scope → Scope} (had : moment.HasStore store)
    (has : ∃ holder, moment'.state.graph.Stores holder store)
    (names : (moment'.state.graph.get id).names =
      ((moment.state.graph.modify store change).get id).names)
    (count : ∀ scope name, ¬ Slot.Named name →
      (change scope).names.count name = scope.names.count name) : moment.Renames moment' id := by
  by_cases hid : store = id
  · subst hid
    refine .slots had has fun name other => ?_
    rw [names]
    exact ScopeGraph.get_modify_congr _ (fun scope => scope.names.count name) store store
      fun scope => count scope name other
  · exact .same (by rw [names, ScopeGraph.get_modify_ne _ _ hid])

/-- A scope that is added binds names when it is made, and all others bind the same as before. -/
theorem of_add {scope : Scope} (names : (moment'.state.graph.get id).names =
      ((moment.state.graph.add scope).1.get id).names) (few : scope.names.length ≤ 1) :
    moment.Renames moment' id := by
  by_cases hid : id = moment.state.graph.scopes.size
  · refine .made hid ?_
    rw [names, ScopeGraph.get_add, if_pos hid]
    exact few
  · exact .same (by rw [names, ScopeGraph.get_add, if_neg hid])

end Moment.Renames

/-- Slots come and go in stores, and names are bound where declarations end; there are no other
names in a scope than those that it has been made with. -/
theorem Move.renames {allowed : EngineId → Statement → Prop} (move : Move allowed moment moment')
    (declares : ∀ bracket ∈ moment.pending, bracket.Declares moment.state.graph)
    (stores : ∀ holder store, moment.state.graph.Stores holder store →
      moment'.state.graph.Stores holder store)
    (calls : ∀ bracket ∈ moment.pending, bracket.Suffices moment.state.graph) (id : ScopeId) :
    moment.Renames moment' id := by
  have hmodify : ∀ (graph : ScopeGraph) (scope : ScopeId) {change : Scope → Scope},
      (∀ scope, (change scope).names = scope.names) →
        ((graph.modify scope change).get id).names = (graph.get id).names :=
    fun graph scope _ same => graph.get_modify_congr Scope.names scope id same
  cases move with
  | write =>
      exact .same (ScopeGraph.get_update_congr _ Scope.names Scope.names_overwrite _ id _ _)
  | slotWrite =>
      exact .same (ScopeGraph.get_update_congr _ Scope.names Scope.names_overwrite _ id _ _)
  -- Slots that are at work are in the store of a block, and blocks keep their stores.
  | @slotPush pending self state store index value target missing =>
      obtain ⟨holder, hstores⟩ := State.stores_of_slotStore? target
      exact .of_slots (Or.inl ⟨holder, hstores⟩) ⟨holder, stores holder store hstores⟩ rfl
        fun scope name other => scope.count_names_push name value index other
  | @slotErase pending self state store index target found =>
      obtain ⟨holder, hstores⟩ := State.stores_of_slotStore? target
      refine .of_slots (Or.inl ⟨holder, hstores⟩) ⟨holder, stores holder store hstores⟩ ?_
        fun scope name other => scope.count_names_erase name index other
      rw [State.graph_modifyGraph, state.graph.delete_eq_of_binds found]
  | @closeBinding pending self state scope name kind value =>
      by_cases hid : scope = id ∧ id < state.graph.scopes.size
      · refine .declared (by rw [hid.1]) ?_
        rw [State.graph_modifyScope, ScopeGraph.get_modify, if_pos hid, Scope.names_push]
      · exact .same (by rw [State.graph_modifyScope, ScopeGraph.get_modify, if_neg hid])
  | openBlock => exact .same (hmodify _ _ fun _ => rfl)
  | openImplementing => exact .same (hmodify _ _ fun _ => rfl)
  | lend => exact .same (hmodify _ _ fun _ => rfl)
  | giveBack => exact .same (hmodify _ _ fun _ => rfl)
  -- Scopes are added for stores, for calls and for turns.
  | attachStore => exact .of_add (hmodify _ _ fun _ => rfl) (Nat.zero_le 1)
  | makeStore => exact .of_add rfl (Nat.zero_le 1)
  | enterTurn => exact .of_add rfl (Nat.le_refl 1)
  | @enterCall pending self state ref awaited interpreted verbs arguments brought =>
      by_cases hid : id = state.graph.scopes.size
      · obtain ⟨block, hplace, henough⟩ : Bracket.Suffices state.graph
            (.call ref verbs.length arguments.length) := calls _ (mem_of_awaited? awaited brought)
        have hblock : state.graph.block ref = block := by simp [ScopeGraph.block, hplace]
        rw [hblock] at interpreted
        have hblocks : ((state.graph.add (Call.scope block (state.currentScope self) verbs
            arguments)).1.get ref.scope).blocks = (state.graph.get ref.scope).blocks :=
          state.graph.get_add_congr Scope.blocks ref.scope rfl
        rw [hblock]
        refine .called hid (hblocks ▸ List.mem_of_getElem? hplace) ?_
        rw [State.graph_pushScope, State.graph_addScope, ScopeGraph.get_add, if_pos hid]
        exact Call.names_parameters interpreted henough
      · exact .same (by
          rw [State.graph_pushScope, State.graph_addScope, ScopeGraph.get_add, if_neg hid])
  | @closeBlock pending self state ref name store =>
      refine .same ?_
      unfold Scope.names
      rw [State.graph_modifyGraph, ScopeGraph.bindings_markInitialized]
  -- The store that is seeded is the one that the block has from now on.
  | @closeSeeded pending self ref name store state values =>
      have hdeclares : (state.graph.modify store (Declaration.seed values)).Declares ref name :=
        ScopeGraph.Declares.modify (declares _ List.mem_cons_self) store fun _ => rfl
      refine .of_slots (Or.inr ⟨_, List.mem_cons_self, rfl⟩)
        ⟨ref.scope, hdeclares.stores_markInitialized store⟩ ?_
        fun scope name other => scope.count_names_seed name values other
      unfold Scope.names
      rw [State.graph_modifyGraph, State.graph_modifyScope, ScopeGraph.bindings_markInitialized]
  | _ => exact .same rfl

/-- No move of loading binds a name. -/
theorem LoadMove.names (move : LoadMove moment moment') (id : ScopeId) :
    (moment'.state.graph.get id).names = (moment.state.graph.get id).names := by
  cases move with
  | native => exact ScopeGraph.get_modify_congr _ Scope.names _ id fun _ => rfl
  | openModule => exact ScopeGraph.get_add_congr _ Scope.names id rfl
  | expose =>
      rw [State.graph_expose, ScopeGraph.get_modify_congr _ Scope.names _ id (by intro _; rfl),
        ScopeGraph.get_modify_congr _ Scope.names _ id (by intro _; rfl)]
  | _ => rfl

/-! ## Moments -/

/-- The name that is being declared is not bound where it will be, unless it is that of a slot. -/
def Bracket.Awaits (graph : ScopeGraph) : Bracket → Prop
  | .binding holder name _ => name ∉ (graph.get holder).names ∨ graph.HasSlot holder name
  | _ => True

/-- The names that scopes bind are distinct but for slots and parameters. -/
structure Moment.Distinct (moment : Moment) : Prop where
  nested : moment.Nested
  names : ∀ id name, moment.state.graph.Distinct id name
  /-- No store is entered for a call. -/
  stores : ∀ id, moment.HasStore id → ∀ name,
    (moment.state.graph.get id).names.count name ≤ 1 ∨ Slot.Named name
  awaits : ∀ bracket ∈ moment.pending, bracket.Awaits moment.state.graph
  calls : ∀ bracket ∈ moment.pending, bracket.Suffices moment.state.graph

namespace Moment.Distinct

theorem lt_of_hasStore (h : moment.Nested) {id : ScopeId} (has : moment.HasStore id) :
    id < moment.state.graph.scopes.size := by
  rcases has with ⟨holder, hstores⟩ | ⟨bracket, hmem, hmade⟩
  · exact h.ordered.exist.stores holder hstores.lt id hstores
  · exact h.made bracket hmem id hmade

section Move

variable (h : moment.Distinct) (move : Move (fun _ statement => statement.Sound) moment moment')
include h move

theorem renames (id : ScopeId) : moment.Renames moment' id :=
  move.renames h.nested.declares
    (fun _ _ => move.keepsStores h.nested.declares h.nested.stored) h.calls id

theorem keepsStores (holder store : ScopeId) (hstores : moment.state.graph.Stores holder store) :
    moment'.state.graph.Stores holder store :=
  move.keepsStores h.nested.declares h.nested.stored hstores

/-- A name that is declared in a scope is bound once there, or it is that of a slot. -/
theorem declared_move {id : ScopeId} {name : String} {kind : BindingKind}
    (ended : moment.pending = .binding id name kind :: moment'.pending)
    (names : (moment'.state.graph.get id).names = (moment.state.graph.get id).names ++ [name]) :
    (moment'.state.graph.get id).names.count name ≤ 1 ∨ moment'.state.graph.HasSlot id name := by
  have hawaits : name ∉ (moment.state.graph.get id).names ∨ moment.state.graph.HasSlot id name :=
    h.awaits (.binding id name kind) (ended ▸ List.mem_cons_self)
  rcases hawaits with hnew | hslot
  · refine Or.inl ?_
    rw [names, List.count_append, List.count_eq_zero.2 hnew]
    simp
  · exact Or.inr (hslot.mono (h.keepsStores move))

theorem names_move (id : ScopeId) (name : String) : moment'.state.graph.Distinct id name := by
  have hnames := h.names id name
  have hstores := h.keepsStores move
  cases h.renames move id with
  | same names =>
      exact hnames.mono hstores move.signatures (names ▸ List.prefix_rfl) (by rw [names])
  | @declared other kind ended names =>
      -- Other names are bound as often as before, and so are the parameters of a call.
      by_cases hname : name = other
      · rcases h.declared_move move ended names with honce | hslot
        · exact Or.inl (hname ▸ honce)
        · exact Or.inr (Or.inl (hname ▸ hslot))
      · refine hnames.mono hstores move.signatures (names ▸ List.prefix_append _ _) ?_
        simp [names, List.count_append, Ne.symm hname]
  | slots had has count =>
      -- A store is no scope of a call, so what is not a slot is bound once there.
      by_cases hslot : Slot.Named name
      · exact Or.inr (Or.inl ⟨hslot, has⟩)
      · rcases h.stores id had name with honce | hnamed
        · exact Or.inl (count name hslot ▸ honce)
        · exact absurd hnamed hslot
  | made new names => exact Or.inl (Nat.le_trans List.count_le_length names)
  | called new declared names =>
      exact Or.inr (Or.inr ⟨_, _, declared, names ▸ List.prefix_rfl, by rw [names]⟩)

/-- What is a store after a move was one before, or has no bindings yet. -/
theorem hasStore_move {id : ScopeId} (has : moment'.HasStore id) :
    moment.HasStore id ∨ (moment'.state.graph.get id).bindings = [] := by
  rcases has with ⟨holder, hstores⟩ | ⟨bracket, hmem, hmade⟩
  · rcases move.stores hstores with hold | ⟨bracket, hhead, hmade⟩ | ⟨-, -, hempty⟩
    · exact Or.inl (Or.inl ⟨holder, hold⟩)
    · exact Or.inl (Or.inr ⟨bracket, List.mem_of_mem_head? hhead, hmade⟩)
    · exact Or.inr hempty
  · have hkept : ∀ bracket ∈ moment.pending, ∀ id ∈ bracket.store?,
        moment.HasStore id ∨ (moment'.state.graph.get id).bindings = [] :=
      fun bracket hmem id hid => Or.inl (Or.inr ⟨bracket, hmem, hid⟩)
    refine Bracket.forall_mem_of_tail move.tail_suffix hkept (fun hopens => ?_) bracket hmem id
      hmade
    cases move with
    | @attachStore pending self state ref name =>
        rintro _ ⟨⟩ id ⟨⟩
        exact Or.inr (state.bindings_attachStore self ref)
    | makeStore =>
        rintro _ ⟨⟩ id ⟨⟩
        exact Or.inr (by simp [ScopeGraph.get_add])
    | _ => simp [Bracket.store?] at hopens ⊢

theorem stores_move (id : ScopeId) (has : moment'.HasStore id) (name : String) :
    (moment'.state.graph.get id).names.count name ≤ 1 ∨ Slot.Named name := by
  rcases h.hasStore_move move has with had | hempty
  -- The scopes that are made for turns and calls are not those that are stores already.
  · have hstores := h.stores id had name
    cases h.renames move id with
    | same names => exact names ▸ hstores
    | @declared other kind ended names =>
        by_cases hname : name = other
        · subst hname
          exact (h.declared_move move ended names).imp_right fun hslot => hslot.1
        · have hcount : (moment'.state.graph.get id).names.count name =
              (moment.state.graph.get id).names.count name := by
            simp [names, List.count_append, Ne.symm hname]
          exact hcount ▸ hstores
    | slots _ _ count =>
        by_cases hslot : Slot.Named name
        · exact Or.inr hslot
        · exact count name hslot ▸ hstores
    | made _ names => exact Or.inl (Nat.le_trans List.count_le_length names)
    | called new => exact absurd (lt_of_hasStore h.nested had) (new ▸ Nat.lt_irrefl _)
  · exact Or.inl (by simp [Scope.names, hempty])

theorem awaits_move : ∀ bracket ∈ moment'.pending, bracket.Awaits moment'.state.graph := by
  refine Bracket.forall_mem_of_kept move.tail_suffix ?_ fun hopens => ?_
  · intro bracket hmem hkept
    cases bracket with
    | binding holder name kind =>
        have hawaits : name ∉ (moment.state.graph.get holder).names ∨
            moment.state.graph.HasSlot holder name := h.awaits _ hmem
        have hlt := h.nested.site_lt (mem_sites hmem rfl)
        rcases hawaits with hnew | hslot
        · cases h.renames move holder with
          | same names => exact Or.inl (names ▸ hnew)
          | @declared other kind' ended names =>
              -- Two declarations would go on in one scope.
              rcases hkept with hsuffix | htail
              · have hlength := hsuffix.length_le
                rw [ended, List.length_cons] at hlength
                exact absurd hlength (Nat.not_succ_le_self _)
              · have hinner : Bracket.binding holder other kind' ∈ moment.pending.head? := by
                  simp [ended]
                exact absurd (h.nested.lt_of_mem_tail htail hinner rfl rfl) (Nat.lt_irrefl holder)
          | slots had has count =>
              by_cases hnamed : Slot.Named name
              · exact Or.inr ⟨hnamed, has⟩
              · refine Or.inl (List.count_eq_zero.1 ?_)
                rw [count name hnamed, List.count_eq_zero.2 hnew]
          | made new => exact absurd hlt (new ▸ Nat.lt_irrefl _)
          | called new => exact absurd hlt (new ▸ Nat.lt_irrefl _)
        · exact Or.inr (hslot.mono (h.keepsStores move))
    | _ => exact trivial
  · cases move with
    | @openBinding pending self state kind name value keyword framed statement missing =>
        rintro _ ⟨⟩
        exact Or.inl (Scope.not_mem_names _ _ missing)
    | _ => simp [Bracket.Awaits] at hopens ⊢

end Move

theorem move (h : moment.Distinct)
    (move : Move (fun _ statement => statement.Sound) moment moment') : moment'.Distinct where
  nested := h.nested.move move
  names := h.names_move move
  stores := h.stores_move move
  awaits := h.awaits_move move
  calls := move.suffices h.calls

theorem loadMove (h : moment.Distinct) (move : LoadMove moment moment') : moment'.Distinct where
  nested := h.nested.loadMove move
  names id name := by
    have hnames := move.names id
    exact (h.names id name).mono (fun _ _ => move.keepsStores) move.signatures
      (hnames ▸ List.prefix_rfl) (by rw [hnames])
  stores id has name := by
    have hkept : ∀ bracket ∈ moment.pending, ∀ id ∈ bracket.store?, moment.HasStore id :=
      fun bracket hmem id hid => Or.inr ⟨bracket, hmem, hid⟩
    have hpending : ∀ bracket ∈ moment'.pending, ∀ id ∈ bracket.store?, moment.HasStore id := by
      refine Bracket.forall_mem_of_tail move.tail_suffix hkept fun hopens => ?_
      cases move with
      | _ => simp [Bracket.store?] at hopens ⊢
    have had : moment.HasStore id := by
      rcases has with ⟨holder, hstores⟩ | ⟨bracket, hmem, hmade⟩
      · exact Or.inl ⟨holder, move.stores hstores⟩
      · exact hpending bracket hmem id hmade
    rw [move.names id]
    exact h.stores id had name
  awaits := by
    have hkept : ∀ bracket ∈ moment.pending, bracket.Awaits moment'.state.graph := by
      intro bracket hmem
      cases bracket with
      | binding holder name kind =>
          have hawaits : name ∉ (moment.state.graph.get holder).names ∨
              moment.state.graph.HasSlot holder name := h.awaits _ hmem
          refine hawaits.imp (fun hnew => ?_) fun hslot => hslot.mono fun _ _ => move.keepsStores
          rw [move.names holder]
          exact hnew
      | _ => exact trivial
    refine Bracket.forall_mem_of_tail move.tail_suffix hkept fun hopens => ?_
    cases move with
    | _ => simp [Bracket.Awaits] at hopens ⊢
  calls := move.suffices h.calls

/-- Whatever is left of a run when it stops, any engine may go on in it. -/
theorem rest (h : moment.Distinct) {self : EngineId} (running : self < moment.state.engines.size) :
    Distinct ⟨[], self, moment.state⟩ where
  nested := .of_ordered (h.nested.ordered.rest running)
  names := h.names
  stores id has := by
    rcases has with hstores | ⟨bracket, hmem, -⟩
    · exact h.stores id (Or.inl hstores)
    · cases hmem
  awaits _ hmem := by cases hmem
  calls _ hmem := by cases hmem

end Moment.Distinct

theorem State.initial_distinct (config : Config) (files : FileTree) (source : Source) (path : Path)
    (content : String) :
    Moment.Distinct ⟨[], Script.main, State.initial config files source path content⟩ := by
  have hnames : ∀ id,
      ((State.initial config files source path content).graph.get id).names = [] := by
    intro id
    change ((({} : ScopeGraph).add {}).1.get id).names = []
    rw [ScopeGraph.get_add]
    split <;> rfl
  exact
    { nested := .of_ordered (State.initial_ordered config files source path content)
      names := fun id name => Or.inl (by simp [hnames])
      stores := fun id _ name => Or.inl (by simp [hnames])
      awaits := fun _ hmem => by cases hmem
      calls := fun _ hmem => by cases hmem }

/-! ## The result -/

/-- In every reachable state, no scope binds a name more than once, except that a store may have
several bindings of a slot, and the scope of a call as many of a name as the block has parameters of
that name. -/
theorem names_are_distinct {state : State} (reachable : state.Reachable) (id : ScopeId)
    (name : String) : state.graph.Distinct id name := by
  have hdistinct : Moment.Distinct ⟨[], Script.main, state⟩ := by
    refine (State.Reachable.of_invariant State.initial_distinct (fun h _ => h.move)
      (fun h _ => h.loadMove) ?_ reachable).1
    intro pending self state h
    exact h.rest (Nat.lt_of_le_of_lt (Nat.zero_le _) h.nested.ordered.manned.self)
  exact hdistinct.names id name

/-- A script that calls a block, as an instance: the scope of the call binds the parameter and what
the block declares, each once. -/
theorem names_are_distinct_of_call :
    ∃ state : State, state.Reachable ∧ (state.graph.get 1).names = ["n", "m"] ∧
      ∀ id name, state.graph.Distinct id name := by
  let start := State.initial {} {} (.prepared []) "main.bir"
    "f[n] { let m = n return m } let y = f(1)"
  have hloads : ((Script.perform 20 .load start).state?).isSome = true := by decide +kernel
  obtain ⟨loaded, hloaded⟩ := Option.isSome_iff_exists.1 hloads
  have hnames : ((Script.perform 20 .load start).state?.bind fun loaded =>
      (Script.perform 20 .run loaded).state?.map fun state => (state.graph.get 1).names) =
        some ["n", "m"] := by decide +kernel
  rw [hloaded, Option.bind_some, Option.map_eq_some_iff] at hnames
  obtain ⟨state, hstate, hnames⟩ := hnames
  have hreachable : state.Reachable := .performed (.performed (.initial ..) hloaded) hstate
  exact ⟨state, hreachable, hnames, names_are_distinct hreachable⟩

/-- Names do repeat: the slot that `init` has made is seeded as if it were not there, and the scope
of a call binds both parameters of one name. -/
theorem slots_and_parameters_repeat :
    ∃ state : State, state.Reachable ∧ (state.graph.get 2).names = ["value_0", "value_0"] ∧
      (state.graph.get 3).names = ["x", "x"] ∧ ¬ ∀ id, (state.graph.get id).names.Nodup := by
  let start := State.initial {} {} (.prepared []) "main.bir"
    ("b[] { init { $write(0, 7) } return 0 } c implements b { [5] } " ++
      "f[x, x] { return x } let y = f(1, 2)")
  have hloads : ((Script.perform 20 .load start).state?).isSome = true := by decide +kernel
  obtain ⟨loaded, hloaded⟩ := Option.isSome_iff_exists.1 hloads
  have hnames : ((Script.perform 20 .load start).state?.bind fun loaded =>
      (Script.perform 20 .run loaded).state?.map fun state =>
        ((state.graph.get 2).names, (state.graph.get 3).names)) =
        some (["value_0", "value_0"], ["x", "x"]) := by decide +kernel
  rw [hloaded, Option.bind_some, Option.map_eq_some_iff] at hnames
  obtain ⟨state, hstate, hnames⟩ := hnames
  rw [Prod.mk.injEq] at hnames
  have hreachable : state.Reachable := .performed (.performed (.initial ..) hloaded) hstate
  refine ⟨state, hreachable, hnames.1, hnames.2, fun hnodup => ?_⟩
  have hslots := hnodup 2
  rw [hnames.1] at hslots
  simp at hslots

end Bir
