import Bir.Proofs.Acyclic.Order

/-!
# Nested declarations — no two declarations go on in one scope

A declaration waits for a value or for an `init` section, and these may make declarations of their
own.  But statements are run in a scope that is newer than all that wait for them.  So what is being
declared is declared in scopes that are different from each other.  This file defines:

* `sites` — the scopes that something is being declared in;
* `Nests` — the current scope and a store that is being made are newer than these;
* `Bracket.Stored` — the store that a block has by now is the one that is being made for it;
* `Moment.Nested` — all this holds at every moment of a run.

`Moment.Nested.keepsStores` is what it comes to for stores: a block that has one keeps it.
-/

namespace Bir

/-- The scopes that something is being declared in, the innermost first. -/
def sites (pending : List Bracket) : List ScopeId := pending.filterMap Bracket.site?

/-- The current scope, if statements are run in it, is newer than all scopes that something is being
declared in, and so is a store that is being made. -/
structure Nests (pending : List Bracket) (scope : ScopeId) : Prop where
  current : Framed pending → ∀ site ∈ sites pending, site < scope
  made : ∀ bracket ∈ pending.head?, ∀ store ∈ bracket.store?, ∀ site ∈ sites pending, site < store

theorem Nests.of_storeless {bracket : Bracket} {pending : List Bracket} {scope : ScopeId}
    (storeless : bracket.store? = none)
    (current : Framed (bracket :: pending) → ∀ site ∈ sites (bracket :: pending), site < scope) :
    Nests (bracket :: pending) scope where
  current := current
  made := by
    rintro _ ⟨⟩ store hstore
    rw [storeless] at hstore
    cases hstore

/-- The store that a block has by now is the one that is being made. -/
def Bracket.Stored (graph : ScopeGraph) : Bracket → Prop
  | .block ref _ store => ∀ id ∈ (graph.block ref).store, id ∈ store
  | _ => True

/-- What is being declared at a moment of a run is declared in different scopes. -/
structure Moment.Nested (moment : Moment) : Prop where
  ordered : moment.Ordered
  declares : ∀ bracket ∈ moment.pending, bracket.Declares moment.state.graph
  stored : ∀ bracket ∈ moment.pending, bracket.Stored moment.state.graph
  made : ∀ bracket ∈ moment.pending, ∀ id ∈ bracket.store?, id < moment.state.graph.scopes.size
  descending : (moment.state.graph.scopes.size :: sites moment.pending).Pairwise (· > ·)
  levels : moment.state.Levels (fun pending _ scope => Nests pending scope) moment.pending
    moment.self

/-! ## Stores that stay -/

namespace ScopeGraph

variable {graph : ScopeGraph}

namespace Stores

variable {id store : ScopeId} (h : graph.Stores id store)
include h

theorem modify {scope : ScopeId} {change : Scope → Scope}
    (kept : ∀ scope, ∀ block ∈ scope.blocks, block ∈ (change scope).blocks) :
    (graph.modify scope change).Stores id store := by
  rcases h with ⟨block, hmem, hstore⟩
  refine ⟨block, ?_, hstore⟩
  rw [get_modify]
  split
  · exact kept _ block hmem
  · exact hmem

theorem add {scope : Scope} (unstored : scope.blocks = []) : (graph.add scope).1.Stores id store :=
  h.of_blocks (graph.get_add_congr Scope.blocks id unstored).symm

/-- A block may be changed if it keeps its store. -/
theorem modifyBlock {ref : BlockRef} {change : Block → Block}
    (kept : store ∈ (graph.block ref).store → store ∈ (change (graph.block ref)).store) :
    (graph.modifyBlock ref change).Stores id store := by
  rcases h with ⟨block, hmem, hstore⟩
  have hlt : id < graph.scopes.size := lt ⟨block, hmem, hstore⟩
  obtain ⟨index, hindex⟩ := List.mem_iff_getElem?.1 hmem
  by_cases hid : ref.scope = id
  · have hget : (graph.modifyBlock ref change).get id =
        (graph.get id).modifyBlock ref.index change := by
      simp [ScopeGraph.modifyBlock, get_modify, hid, hlt]
    -- The block that has the store is the one that is changed, or it is another one.
    by_cases hplace : ref.index = index
    · have hblock : graph.block ref = block := by simp [ScopeGraph.block, hid, hplace, hindex]
      refine ⟨change block, ?_, hblock ▸ kept (hblock ▸ hstore)⟩
      rw [hget]
      exact List.mem_of_getElem? (i := index) (by simp [Scope.modifyBlock, hplace, hindex])
    · refine ⟨block, ?_, hstore⟩
      rw [hget]
      exact List.mem_of_getElem? (i := index) (by simp [Scope.modifyBlock, hplace, hindex])
  · refine ⟨block, ?_, hstore⟩
    rw [ScopeGraph.modifyBlock, get_modify_ne _ _ hid]
    exact hmem

end Stores

theorem Declares.block_modifyBlock {ref : BlockRef} {name : String}
    (h : graph.Declares ref name) (change : Block → Block) :
    (graph.modifyBlock ref change).block ref = change (graph.block ref) := by
  have hget := h.getElem?_eq
  simp only [ScopeGraph.block, ScopeGraph.modifyBlock, get_modify, h.lt, and_self, if_true]
  simp [Scope.modifyBlock, hget]

/-- What is marked as initialized has its store. -/
theorem Declares.stores_markInitialized {ref : BlockRef} {name : String}
    (h : graph.Declares ref name) (store : ScopeId) :
    (graph.markInitialized ref.scope name (some store)).Stores ref.scope store := by
  rw [h.markInitialized]
  apply Stores.of_block
  rw [h.block_modifyBlock]
  exact rfl

end ScopeGraph

/-! ## Moves -/

variable {moment moment' : Moment}

/-- A store that is declared for stays one, and no block loses its store. -/
theorem Move.keepsStores {allowed : EngineId → Statement → Prop}
    (move : Move allowed moment moment')
    (declares : ∀ bracket ∈ moment.pending, bracket.Declares moment.state.graph)
    (stored : ∀ bracket ∈ moment.pending, bracket.Stored moment.state.graph) {id store : ScopeId}
    (h : moment.state.graph.Stores id store) : moment'.state.graph.Stores id store := by
  cases move with
  | write =>
      exact h.of_blocks
        (ScopeGraph.get_update_congr _ Scope.blocks (fun _ _ _ => rfl) _ id _ _).symm
  | slotWrite =>
      exact h.of_blocks
        (ScopeGraph.get_update_congr _ Scope.blocks (fun _ _ _ => rfl) _ id _ _).symm
  | slotErase index target found =>
      rw [State.graph_modifyGraph, ScopeGraph.delete_eq_of_binds _ found]
      exact h.modify fun _ _ hmem => hmem
  | slotPush => exact h.modify fun _ _ hmem => hmem
  | closeBinding => exact h.modify fun _ _ hmem => hmem
  | openBlock => exact h.modify fun _ _ hmem => List.mem_append_left _ hmem
  | openImplementing => exact h.modify fun _ _ hmem => List.mem_append_left _ hmem
  | lend => exact h.modify fun _ _ hmem => hmem
  | giveBack => exact h.modify fun _ _ hmem => hmem
  | makeStore => exact h.add rfl
  | enterCall => exact h.add rfl
  | enterTurn => exact h.add rfl
  -- A block gets its store when it has none, or the one that it has.
  | @attachStore pending self state ref name =>
      have hdeclares : state.graph.Declares ref name := declares _ List.mem_cons_self
      have hstored : ∀ id ∈ (state.graph.block ref).store, id ∈ none := stored _ List.mem_cons_self
      have hblock : (state.graph.add { parents := [state.currentScope self] }).1.block ref =
          state.graph.block ref := state.graph.block_add rfl ref
      refine (h.add rfl).modifyBlock fun hstore => ?_
      cases hstored store (hblock ▸ hstore)
  | @closeBlock pending self state ref name own =>
      have hdeclares : state.graph.Declares ref name := declares _ List.mem_cons_self
      have hstored : ∀ id ∈ (state.graph.block ref).store, id ∈ own := stored _ List.mem_cons_self
      rw [State.graph_modifyGraph, hdeclares.markInitialized]
      exact h.modifyBlock fun hstore => hstored store hstore
  | @closeSeeded pending self ref name own state values =>
      have hdeclares : state.graph.Declares ref name := declares _ List.mem_cons_self
      have hstored : ∀ id ∈ (state.graph.block ref).store, id ∈ some own :=
        stored _ List.mem_cons_self
      have hseeded : (state.graph.modify own (Declaration.seed values)).Declares ref name :=
        hdeclares.modify own fun _ => rfl
      have hblock : (state.graph.modify own (Declaration.seed values)).block ref =
          state.graph.block ref :=
        ScopeGraph.block_congr _ (state.graph.get_modify_congr Scope.blocks own _ fun _ => rfl)
      have hkept : (state.graph.modify own (Declaration.seed values)).Stores id store :=
        h.modify fun _ _ hmem => hmem
      rw [State.graph_modifyGraph, State.graph_modifyScope, hseeded.markInitialized]
      refine hkept.modifyBlock fun hstore => ?_
      rw [hblock] at hstore
      exact hstored store hstore
  | _ => exact h

theorem LoadMove.keepsStores (move : LoadMove moment moment') {id store : ScopeId}
    (h : moment.state.graph.Stores id store) : moment'.state.graph.Stores id store := by
  rcases h with ⟨block, hmem, hstore⟩
  exact ⟨block, (move.blocks id).subset hmem, hstore⟩

theorem mem_sites {pending : List Bracket} {bracket : Bracket} (hmem : bracket ∈ pending)
    {id : ScopeId} (hsite : id ∈ bracket.site?) : id ∈ sites pending :=
  List.mem_filterMap.2 ⟨bracket, hmem, hsite⟩

namespace Moment.Nested

section Sites

variable (h : moment.Nested)
include h

theorem site_lt {id : ScopeId} (hsite : id ∈ sites moment.pending) :
    id < moment.state.graph.scopes.size :=
  (List.pairwise_cons.1 h.descending).1 id hsite

theorem currentScope_lt :
    moment.state.currentScope moment.self < moment.state.graph.scopes.size :=
  h.ordered.levels.current.current.1

/-- What waits for the innermost bracket is declared in an older scope. -/
theorem lt_of_mem_tail {bracket first : Bracket} (hmem : bracket ∈ moment.pending.tail)
    (hfirst : first ∈ moment.pending.head?) {id inner : ScopeId} (hsite : id ∈ bracket.site?)
    (hinner : inner ∈ first.site?) : id < inner := by
  have hdescending := (List.pairwise_cons.1 h.descending).2
  cases hpending : moment.pending with
  | nil => simp [hpending] at hmem
  | cons head rest =>
      rw [hpending] at hmem hfirst hdescending
      cases hfirst
      have hsites : sites (first :: rest) = inner :: sites rest := List.filterMap_cons_some hinner
      rw [hsites] at hdescending
      exact (List.pairwise_cons.1 hdescending).1 id (mem_sites hmem hsite)

/-- Where something is being declared, no block is declared in a move, unless the move ends that
declaration or gets on with it. -/
theorem shape_eq {allowed : EngineId → Statement → Prop} (move : Move allowed moment moment')
    {bracket : Bracket} (hmem : bracket ∈ moment.pending)
    (kept : moment.pending <:+ moment'.pending ∨ bracket ∈ moment.pending.tail) {id : ScopeId}
    (hsite : id ∈ bracket.site?) :
    (moment'.state.graph.get id).shape = (moment.state.graph.get id).shape := by
  have hid := mem_sites hmem hsite
  refine move.shape (h.site_lt hid) ?_ ?_ h.declares
  -- Statements are run in a newer scope than those that wait for them.
  · intro framed heq
    exact absurd (h.levels.current.current framed id hid) (heq ▸ Nat.lt_irrefl _)
  -- What is ended or gets on was begun in a newer scope, or it is the declaration itself.
  · intro hended first hfirst hinner
    rcases kept with hkept | htail
    · exact hended hkept
    · exact Nat.lt_irrefl id (h.lt_of_mem_tail htail hfirst hsite hinner)

end Sites

section Move

variable (h : moment.Nested) (move : Move (fun _ statement => statement.Sound) moment moment')
include h move

theorem stored_move : ∀ bracket ∈ moment'.pending, bracket.Stored moment'.state.graph := by
  refine Bracket.forall_mem_of_kept move.tail_suffix ?_ fun hopens => ?_
  · intro bracket hmem hkept
    cases bracket with
    | block ref name own =>
        -- No block is declared or changed where this one waits, so it is as it was.
        have hshape := Scope.eq_of_shape (h.shape_eq move hmem hkept rfl)
        intro id hid
        rw [ScopeGraph.block_congr _ hshape.2.2] at hid
        exact h.stored _ hmem id hid
    | _ => exact trivial
  · have hcurrent := h.currentScope_lt
    cases move with
    -- A block that is added has no store.
    | @openBlock pending self state =>
        rintro _ ⟨⟩ id hid
        simp [ScopeGraph.block, ScopeGraph.get_modify, hcurrent, Scope.addBlock, Block.declared]
          at hid
    | @openImplementing pending self state =>
        rintro _ ⟨⟩ id hid
        simp [ScopeGraph.block, ScopeGraph.get_modify, hcurrent, Scope.addBlock,
          Block.implementing] at hid
    | @attachStore pending self state ref name =>
        have hdeclares : state.graph.Declares ref name := h.declares _ List.mem_cons_self
        have hadded : (state.graph.add { parents := [state.currentScope self] }).1.Declares ref
            name := hdeclares.add rfl
        rintro _ ⟨⟩ id hid
        rw [State.attachStore, State.graph_modifyGraph, State.graph_addScope,
          hadded.block_modifyBlock] at hid
        exact hid
    | @makeStore pending self state ref name =>
        have hdeclares : state.graph.Declares ref name := h.declares _ List.mem_cons_self
        have hstored : ∀ id ∈ (state.graph.block ref).store, id ∈ none :=
          h.stored _ List.mem_cons_self
        rintro _ ⟨⟩ id hid
        have hblock : (state.graph.add { parents := [ref.scope] }).1.block ref =
            state.graph.block ref := state.graph.block_add rfl ref
        rw [State.graph_addScope, hblock] at hid
        cases hstored id hid
    | _ => simp [Bracket.Stored] at hopens ⊢

theorem made_move : ∀ bracket ∈ moment'.pending, ∀ id ∈ bracket.store?,
    id < moment'.state.graph.scopes.size := by
  have hkept : ∀ bracket ∈ moment.pending, ∀ id ∈ bracket.store?,
      id < moment'.state.graph.scopes.size :=
    fun bracket hmem id hid => Nat.lt_of_lt_of_le (h.made bracket hmem id hid) move.size_le
  refine Bracket.forall_mem_of_tail move.tail_suffix hkept fun hopens => ?_
  cases move with
  | attachStore =>
      rintro _ ⟨⟩ id ⟨⟩
      simp [State.attachStore]
  | makeStore =>
      rintro _ ⟨⟩ id ⟨⟩
      simp
  | _ => simp [Bracket.store?] at hopens ⊢

theorem descending_move :
    (moment'.state.graph.scopes.size :: sites moment'.pending).Pairwise (· > ·) := by
  have hsize := move.size_le
  have hcurrent := h.currentScope_lt
  rcases List.pairwise_cons.1 h.descending with ⟨hlt, hpairwise⟩
  -- What is ended leaves the others in order, and what is begun is begun in a newer scope.
  have hkept : ∀ {pending : List Bracket}, List.Sublist (sites pending) (sites moment.pending) →
      (moment'.state.graph.scopes.size :: sites pending).Pairwise (· > ·) := by
    intro pending hsublist
    refine List.pairwise_cons.2 ⟨fun id hid => ?_, hpairwise.sublist hsublist⟩
    exact Nat.lt_of_lt_of_le (hlt id (hsublist.subset hid)) hsize
  have hopened : Framed moment.pending → (moment'.state.graph.scopes.size ::
      moment.state.currentScope moment.self :: sites moment.pending).Pairwise (· > ·) := by
    intro framed
    refine List.pairwise_cons.2 ⟨?_, List.pairwise_cons.2 ⟨?_, hpairwise⟩⟩
    · refine List.forall_mem_cons.2 ⟨Nat.lt_of_lt_of_le hcurrent hsize, fun id hid => ?_⟩
      exact Nat.lt_of_lt_of_le (hlt id hid) hsize
    · exact h.levels.current.current framed
  cases move with
  | @openBinding _ _ _ _ _ _ _ framed => exact hopened framed
  | @openBlock _ _ _ _ _ _ _ _ _ framed => exact hopened framed
  | @openImplementing _ _ _ _ _ _ _ _ framed => exact hopened framed
  | closeBinding => exact hkept (List.sublist_cons_self _ _)
  | dropBinding => exact hkept (List.sublist_cons_self _ _)
  | closeBlock => exact hkept (List.sublist_cons_self _ _)
  | closeSeeded => exact hkept (List.sublist_cons_self _ _)
  | dropBlock => exact hkept (List.sublist_cons_self _ _)
  | _ => exact hkept (List.Sublist.refl _)

theorem levels_move : moment'.state.Levels (fun pending _ scope => Nests pending scope)
    moment'.pending moment'.self := by
  have hlt := h.levels.endsIn.lt
  have hnests := h.levels.current
  have hsites : ∀ site ∈ sites moment.pending, site < moment.state.graph.scopes.size :=
    fun site hsite => h.site_lt hsite
  refine h.levels.move h.ordered.manned.uses move fun hopens => ?_
  cases move with
  -- The scope that is entered is new, or the store that was made for the declaration around it.
  | @enterStore pending self ref name store state =>
      refine .of_storeless rfl fun _ => ?_
      rw [state.currentScope_pushScope store hlt]
      exact hnests.made _ rfl store rfl
  | @enterCall pending self state ref awaited interpreted verbs arguments brought =>
      refine .of_storeless rfl fun _ => ?_
      rw [State.currentScope_enter state _ _ hlt]
      exact hsites
  | @enterTurn pending self state placeholder index =>
      refine .of_storeless rfl fun _ => ?_
      rw [State.currentScope_enter state _ _ hlt]
      exact hsites
  | enterFlow =>
      refine .of_storeless rfl fun hframed => ?_
      cases hframed with
      | frame framed =>
          rw [State.currentScope_modifyCallStack]
          exact hnests.current framed
  | enterFrame =>
      refine .of_storeless rfl fun hframed => ?_
      cases hframed with
      | frame framed =>
          rw [State.currentScope_modifyCallStack]
          exact hnests.current framed
  -- A store that is made is newer than all scopes.
  | attachStore =>
      refine ⟨by rintro ⟨⟩, ?_⟩
      rintro _ ⟨⟩ _ ⟨⟩
      exact hsites
  | makeStore =>
      refine ⟨by rintro ⟨⟩, ?_⟩
      rintro _ ⟨⟩ _ ⟨⟩
      exact hsites
  -- No statement is run where anything else is begun.
  | openBinding => exact .of_storeless rfl (by rintro ⟨⟩)
  | openBlock => exact .of_storeless rfl (by rintro ⟨⟩)
  | openImplementing => exact .of_storeless rfl (by rintro ⟨⟩)
  | openCall => exact .of_storeless rfl (by rintro ⟨⟩)
  | lend => exact .of_storeless rfl (by rintro ⟨⟩)
  | _ => exact absurd (by simp) hopens

end Move

theorem move (h : moment.Nested)
    (move : Move (fun _ statement => statement.Sound) moment moment') : moment'.Nested where
  ordered := h.ordered.move move
  declares := move.declares (fun _ => h.currentScope_lt) h.declares
  stored := h.stored_move move
  made := h.made_move move
  descending := h.descending_move move
  levels := h.levels_move move

/-! ## Moves of loading -/

section LoadMove

variable (h : moment.Nested) (move : LoadMove moment moment')
include h move

theorem stored_loadMove : ∀ bracket ∈ moment'.pending, bracket.Stored moment'.state.graph := by
  have hkept : ∀ bracket ∈ moment.pending, bracket.Stored moment'.state.graph := by
    intro bracket hmem
    cases bracket with
    | block ref name own =>
        have hdeclares : moment.state.graph.Declares ref name := h.declares _ hmem
        intro id hid
        rw [hdeclares.block_of_blocks (move.blocks ref.scope)] at hid
        exact h.stored _ hmem id hid
    | _ => exact trivial
  refine Bracket.forall_mem_of_tail move.tail_suffix hkept fun hopens => ?_
  cases move with
  | _ => simp [Bracket.Stored] at hopens ⊢

theorem made_loadMove : ∀ bracket ∈ moment'.pending, ∀ id ∈ bracket.store?,
    id < moment'.state.graph.scopes.size := by
  have hsize := move.keepsRoots.scopes
  have hkept : ∀ bracket ∈ moment.pending, ∀ id ∈ bracket.store?,
      id < moment'.state.graph.scopes.size :=
    fun bracket hmem id hid => Nat.lt_of_lt_of_le (h.made bracket hmem id hid) hsize
  refine Bracket.forall_mem_of_tail move.tail_suffix hkept fun hopens => ?_
  cases move with
  | _ => simp [Bracket.store?] at hopens ⊢

theorem descending_loadMove :
    (moment'.state.graph.scopes.size :: sites moment'.pending).Pairwise (· > ·) := by
  have hsize := move.keepsRoots.scopes
  rcases List.pairwise_cons.1 h.descending with ⟨hlt, hpairwise⟩
  have hsites : sites moment'.pending = sites moment.pending := by
    cases move <;> rfl
  rw [hsites]
  exact List.pairwise_cons.2 ⟨fun id hid => Nat.lt_of_lt_of_le (hlt id hid) hsize, hpairwise⟩

theorem levels_loadMove : moment'.state.Levels (fun pending _ scope => Nests pending scope)
    moment'.pending moment'.self := by
  refine h.levels.loadMove move fun hopens => ?_
  cases move with
  | beginImports => exact .of_storeless rfl (by rintro ⟨⟩)
  | @openModule pending self state path content =>
      have hscope : (state.addEngine path content).1.currentScope state.engines.size =
          state.graph.scopes.size := by
        simp [State.currentScope, Engine.currentScope, State.engine_addEngine]
      refine .of_storeless rfl fun _ => ?_
      rw [hscope]
      exact fun site hsite => h.site_lt hsite
  | _ => exact absurd (by simp) hopens

end LoadMove

theorem loadMove (h : moment.Nested) (move : LoadMove moment moment') : moment'.Nested where
  ordered := h.ordered.loadMove move
  declares := move.declares h.declares
  stored := h.stored_loadMove move
  made := h.made_loadMove move
  descending := h.descending_loadMove move
  levels := h.levels_loadMove move

/-- Whatever is left of a run when it stops, nothing is being declared in it. -/
theorem of_ordered {self : EngineId} {state : State} (h : Moment.Ordered ⟨[], self, state⟩) :
    Nested ⟨[], self, state⟩ where
  ordered := h
  declares _ hmem := by cases hmem
  stored _ hmem := by cases hmem
  made _ hmem := by cases hmem
  descending := List.pairwise_singleton _ _
  levels := h.levels.endsIn.mono fun _ _ => ⟨by simp [sites], by simp⟩

end Moment.Nested

end Bir
