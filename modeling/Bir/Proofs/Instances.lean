import Bir.Proofs.Course
import Bir.Proofs.Nesting

/-!
# Instances — each block has a store of its own, and keeps it

The store of a block is made while the block is declared, and attached to it by its name.  Between
these two an `init` section is run, which may call and declare blocks of all kinds.  This file
defines:

* `ScopeGraph.Private` — no two blocks share a store, and stores stand in the scopes of their blocks;
* `ScopeGraph.KeepsInstances` — what is initialized stays as it is;
* `Moment.Turns` — what may become of a block in a move;
* `Moment.Owns` — a store is that of a block, or it is being made for it;
* `Moment.Instanced` — at every moment of a run stores have one owner.

`instances_are_private_and_permanent` is the result.
-/

namespace Bir

namespace ScopeGraph

/-! ## Stores of blocks -/

/-- No two blocks share a store, and lookups go on from a store to the scope that its block is
declared in, and to no other. -/
structure Private (graph : ScopeGraph) : Prop where
  distinct : ∀ {ref ref' : BlockRef} {store : ScopeId}, store ∈ (graph.block ref).store →
    store ∈ (graph.block ref').store → ref = ref'
  parents : ∀ {ref : BlockRef} {store : ScopeId}, store ∈ (graph.block ref).store →
    (graph.get store).parents = [ref.scope]

/-- Blocks that are initialized stay so, and stay as they are. -/
def KeepsInstances (graph graph' : ScopeGraph) : Prop :=
  ∀ ref, (graph.block ref).initialized = true → graph'.block ref = graph.block ref

variable {graph graph' : ScopeGraph} {ref : BlockRef}

theorem KeepsInstances.trans {graph'' : ScopeGraph} (h : graph.KeepsInstances graph')
    (h' : graph'.KeepsInstances graph'') : graph.KeepsInstances graph'' := by
  intro ref hinitialized
  have hkept := h ref hinitialized
  exact (h' ref (hkept ▸ hinitialized)).trans hkept

/-! ## Blocks that change -/

theorem block_eq_default (missing : (graph.get ref.scope).blocks[ref.index]? = none) :
    graph.block ref = default := by
  simp [ScopeGraph.block, missing]

/-- A block that is there stays as it is if others join behind it. -/
theorem block_of_prefix (there : graph.block ref ≠ default)
    (blocks : (graph.get ref.scope).blocks <+: (graph'.get ref.scope).blocks) :
    graph'.block ref = graph.block ref := by
  cases hblock : (graph.get ref.scope).blocks[ref.index]? with
  | none => exact absurd (block_eq_default hblock) there
  | some block =>
      obtain ⟨added, hadded⟩ := blocks
      have hlength := (List.getElem?_eq_some_iff.1 hblock).1
      simp [ScopeGraph.block, ← hadded, List.getElem?_append_left hlength]

theorem block_modifyBlock_ne {ref' : BlockRef} (other : ref' ≠ ref) (change : Block → Block) :
    (graph.modifyBlock ref' change).block ref = graph.block ref := by
  unfold ScopeGraph.modifyBlock
  by_cases hscope : ref'.scope = ref.scope
  · have hindex : ref'.index ≠ ref.index := by
      intro hindex
      cases ref
      cases ref'
      simp_all
    simp only [ScopeGraph.block, get_modify]
    split
    · simp [Scope.modifyBlock, hindex]
    · rfl
  · simp [ScopeGraph.block, get_modify_ne _ _ hscope]

/-- A block that is added is the only one that changes. -/
theorem block_addBlock (id : ScopeId) (block : Block) (ref : BlockRef) :
    (graph.modify id fun scope => scope.addBlock block).block ref = graph.block ref ∨
      graph.block ref = default ∧
        (graph.modify id fun scope => scope.addBlock block).block ref = block := by
  simp only [ScopeGraph.block, get_modify]
  split
  · rcases Nat.lt_trichotomy ref.index (graph.get ref.scope).blocks.length with hlt | heq | hgt
    · exact Or.inl (by simp [Scope.addBlock, List.getElem?_append_left hlt])
    · exact Or.inr (by simp [Scope.addBlock, heq])
    · refine Or.inl ?_
      rw [List.getElem?_eq_none (Nat.le_of_lt hgt), List.getElem?_eq_none]
      simpa [Scope.addBlock] using Nat.succ_le_of_lt hgt
  · exact Or.inl rfl

end ScopeGraph

/-! ## Moves -/

variable {moment moment' : Moment}

/-- What may become of the block at a place in a move. -/
inductive Moment.Turns (moment moment' : Moment) (ref : BlockRef) : Prop where
  | kept (same : moment'.state.graph.block ref = moment.state.graph.block ref)
  /-- The block is new. -/
  | opened (missing : moment.state.graph.block ref = default)
      (storeless : (moment'.state.graph.block ref).store = none)
      (begun : (moment'.state.graph.block ref).initialized = false)
  /-- The block gets the store that its `init` section runs in. -/
  | attached {name : String} (begun : .block ref name none ∈ moment.pending)
      (declared : .block ref name (some moment.state.graph.scopes.size) ∈ moment'.pending)
      (store : moment'.state.graph.block ref =
        { moment.state.graph.block ref with store := some moment.state.graph.scopes.size })
  /-- The block is initialized, with the store that was made for it. -/
  | closed {name : String} {store : Option ScopeId}
      (declared : moment.pending = .block ref name store :: moment'.pending)
      (initialized : moment'.state.graph.block ref =
        { moment.state.graph.block ref with initialized := true, store })

theorem Move.turns {allowed : EngineId → Statement → Prop} (move : Move allowed moment moment')
    (declares : ∀ bracket ∈ moment.pending, bracket.Declares moment.state.graph)
    (ref : BlockRef) : moment.Turns moment' ref := by
  have hmodify : ∀ (graph : ScopeGraph) (scope : ScopeId) {change : Scope → Scope},
      (∀ scope, (change scope).blocks = scope.blocks) →
        (graph.modify scope change).block ref = graph.block ref :=
    fun graph scope _ same => graph.block_congr (graph.get_modify_congr Scope.blocks scope _ same)
  have hupdate : ∀ (graph : ScopeGraph) (scope : ScopeId) (name : String) (value : Int64),
      (graph.update scope name value).1.block ref = graph.block ref :=
    fun graph scope name value => graph.block_congr
      (graph.get_update_congr Scope.blocks (fun _ _ _ => rfl) scope _ name value)
  cases move with
  | write => exact .kept (hupdate _ _ _ _)
  | slotWrite => exact .kept (hupdate _ _ _ _)
  | slotPush => exact .kept (hmodify _ _ fun _ => rfl)
  | slotErase index target found =>
      refine .kept ?_
      rw [State.graph_modifyGraph, ScopeGraph.delete_eq_of_binds _ found]
      exact hmodify _ _ fun _ => rfl
  | closeBinding => exact .kept (hmodify _ _ fun _ => rfl)
  | lend => exact .kept (hmodify _ _ fun _ => rfl)
  | giveBack => exact .kept (hmodify _ _ fun _ => rfl)
  | makeStore => exact .kept (ScopeGraph.block_add _ rfl ref)
  | enterCall => exact .kept (ScopeGraph.block_add _ rfl ref)
  | enterTurn => exact .kept (ScopeGraph.block_add _ rfl ref)
  -- A block is added, and has no store.
  | openBlock =>
      rcases ScopeGraph.block_addBlock _ _ ref with hsame | ⟨hmissing, hnew⟩
      · exact .kept hsame
      · exact .opened hmissing (congrArg Block.store hnew) (congrArg Block.initialized hnew)
  | openImplementing =>
      rcases ScopeGraph.block_addBlock _ _ ref with hsame | ⟨hmissing, hnew⟩
      · exact .kept hsame
      · exact .opened hmissing (congrArg Block.store hnew) (congrArg Block.initialized hnew)
  -- The block that is declared changes, and no other one does.
  | @attachStore pending self state place name =>
      have hdeclares : state.graph.Declares place name := declares _ List.mem_cons_self
      have hadded : (state.graph.add { parents := [state.currentScope self] }).1.Declares place
          name := hdeclares.add rfl
      by_cases hplace : place = ref
      · subst hplace
        refine .attached List.mem_cons_self List.mem_cons_self ?_
        rw [State.attachStore, State.graph_modifyGraph, State.graph_addScope,
          hadded.block_modifyBlock, ScopeGraph.block_add _ rfl]
      · refine .kept ?_
        rw [State.attachStore, State.graph_modifyGraph, State.graph_addScope,
          ScopeGraph.block_modifyBlock_ne hplace, ScopeGraph.block_add _ rfl]
  | @closeBlock pending self state place name store =>
      have hdeclares : state.graph.Declares place name := declares _ List.mem_cons_self
      by_cases hplace : place = ref
      · subst hplace
        refine .closed rfl ?_
        rw [State.graph_modifyGraph, hdeclares.markInitialized, hdeclares.block_modifyBlock]
      · refine .kept ?_
        rw [State.graph_modifyGraph, hdeclares.markInitialized,
          ScopeGraph.block_modifyBlock_ne hplace]
  | @closeSeeded pending self place name store state values =>
      have hdeclares : state.graph.Declares place name := declares _ List.mem_cons_self
      have hseeded : (state.graph.modify store (Declaration.seed values)).Declares place name :=
        hdeclares.modify store fun _ => rfl
      have hsame : (state.graph.modify store (Declaration.seed values)).block ref =
          state.graph.block ref := hmodify _ _ fun _ => rfl
      by_cases hplace : place = ref
      · subst hplace
        refine .closed rfl ?_
        rw [State.graph_modifyGraph, State.graph_modifyScope, hseeded.markInitialized,
          hseeded.block_modifyBlock, hsame]
      · refine .kept ?_
        rw [State.graph_modifyGraph, State.graph_modifyScope, hseeded.markInitialized,
          ScopeGraph.block_modifyBlock_ne hplace, hsame]
  | _ => exact .kept rfl

/-! ## Owners -/

/-- A store is that of a block, or it is being made for it. -/
def Moment.Owns (moment : Moment) (ref : BlockRef) (store : ScopeId) : Prop :=
  store ∈ (moment.state.graph.block ref).store ∨ ∃ name, .block ref name (some store) ∈ moment.pending

/-- The block that a bracket declares is not initialized. -/
def Bracket.Begun (graph : ScopeGraph) : Bracket → Prop
  | .block ref _ _ => (graph.block ref).initialized = false
  | _ => True

/-- The block that a bracket declares is declared in a scope. -/
def Bracket.StandsIn (scope : ScopeId) : Bracket → Prop
  | .block ref _ _ => ref.scope = scope
  | _ => True

/-- At every moment of a run, stores have one owner, and stand in the scope that it is declared
in. -/
structure Moment.Instanced (moment : Moment) : Prop where
  nested : moment.Nested
  distinct : ∀ {ref ref' : BlockRef} {store : ScopeId}, moment.Owns ref store →
    moment.Owns ref' store → ref = ref'
  parents : ∀ {ref : BlockRef} {store : ScopeId}, moment.Owns ref store →
    (moment.state.graph.get store).parents = [ref.scope]
  rootless : ∀ {ref : BlockRef} {store : ScopeId}, moment.Owns ref store →
    ∀ id < moment.state.engines.size, (moment.state.engine id).root ≠ store
  begun : ∀ bracket ∈ moment.pending, bracket.Begun moment.state.graph
  levels : moment.state.Levels (fun pending _ scope => ∀ bracket ∈ pending.head?,
    bracket.StandsIn scope) moment.pending moment.self

/-- What owns a store after a move owned it before, or the store is new and stands in the scope of
the block that it is made for. -/
theorem Move.owns {allowed : EngineId → Statement → Prop} (move : Move allowed moment moment')
    (declares : ∀ bracket ∈ moment.pending, bracket.Declares moment.state.graph)
    (stands : ∀ bracket ∈ moment.pending.head?,
      bracket.StandsIn (moment.state.currentScope moment.self))
    {ref : BlockRef} {store : ScopeId} (h : moment'.Owns ref store) :
    moment.Owns ref store ∨ store = moment.state.graph.scopes.size ∧
      (moment'.state.graph.get store).parents = [ref.scope] ∧
        ∃ name, moment.pending.head? = some (.block ref name none) := by
  -- The store is being made: it was before, or this is the move that makes it.
  have hmade : ∀ name, .block ref name (some store) ∈ moment'.pending →
      moment.Owns ref store ∨ store = moment.state.graph.scopes.size ∧
        (moment'.state.graph.get store).parents = [ref.scope] ∧
          ∃ name, moment.pending.head? = some (.block ref name none) := by
    intro name
    have hkept : ∀ pending, pending <:+ moment.pending → .block ref name (some store) ∈ pending →
        moment.Owns ref store := fun pending hsuffix hmem =>
      Or.inr ⟨name, hsuffix.subset hmem⟩
    cases move with
    | @attachStore pending self state place called =>
        intro hmem
        rcases List.mem_cons.1 hmem with hnew | hold
        · cases hnew
          have hstands : ref.scope = state.currentScope self := stands _ rfl
          refine Or.inr ⟨rfl, ?_, name, rfl⟩
          rw [State.attachStore, State.graph_modifyGraph, ScopeGraph.modifyBlock,
            ScopeGraph.get_modify_congr _ Scope.parents _ _ (by intro _; rfl), State.graph_addScope]
          simp [ScopeGraph.get_add, hstands]
        · exact Or.inl (hkept pending (List.suffix_cons _ _) hold)
    | @makeStore pending self state place called =>
        intro hmem
        rcases List.mem_cons.1 hmem with hnew | hold
        · cases hnew
          exact Or.inr ⟨rfl, by simp [ScopeGraph.get_add], name, rfl⟩
        · exact Or.inl (hkept pending (List.suffix_cons _ _) hold)
    | _ =>
        intro hmem
        refine Or.inl (hkept _ List.suffix_rfl ?_)
        simp_all
  rcases h with hstore | ⟨name, hmem⟩
  · cases move.turns declares ref with
    | kept same => exact Or.inl (Or.inl (same ▸ hstore))
    | opened _ storeless =>
        rw [storeless] at hstore
        cases hstore
    | attached _ declared hattached =>
        rw [hattached] at hstore
        cases hstore
        exact hmade _ declared
    | @closed name own declared hclosed =>
        rw [hclosed] at hstore
        cases hstore
        exact Or.inl (Or.inr ⟨name, declared ▸ List.mem_cons_self⟩)
  · exact hmade name hmem

namespace Moment.Instanced

theorem lt (h : moment.Instanced) {ref : BlockRef} {store : ScopeId} (owns : moment.Owns ref store) :
    store < moment.state.graph.scopes.size := by
  rcases owns with hstore | ⟨name, hmem⟩
  · have hstores : moment.state.graph.Stores ref.scope store := .of_block hstore
    exact h.nested.ordered.exist.stores ref.scope hstores.lt store hstores
  · exact h.nested.made _ hmem store rfl

theorem isPrivate (h : moment.Instanced) : moment.state.graph.Private where
  distinct hstore hstore' := h.distinct (Or.inl hstore) (Or.inl hstore')
  parents hstore := h.parents (Or.inl hstore)

section Move

variable (h : moment.Instanced) (move : Move (fun _ statement => statement.Sound) moment moment')
include h move

theorem distinct_move {ref ref' : BlockRef} {store : ScopeId} (owns : moment'.Owns ref store)
    (owns' : moment'.Owns ref' store) : ref = ref' := by
  have hold := move.owns h.nested.declares h.levels.current owns
  have hold' := move.owns h.nested.declares h.levels.current owns'
  -- A store that is new is made for one block, and has no other owner.
  rcases hold with hold | ⟨hnew, -, name, hhead⟩ <;> rcases hold' with hold' | ⟨hnew', -, name', hhead'⟩
  · exact h.distinct hold hold'
  · exact absurd (h.lt hold) (hnew' ▸ Nat.lt_irrefl _)
  · exact absurd (h.lt hold') (hnew ▸ Nat.lt_irrefl _)
  · rw [hhead] at hhead'
    cases hhead'
    rfl

theorem parents_move {ref : BlockRef} {store : ScopeId} (owns : moment'.Owns ref store) :
    (moment'.state.graph.get store).parents = [ref.scope] := by
  rcases move.owns h.nested.declares h.levels.current owns with hold | ⟨-, hparents, -⟩
  · have hlt := h.lt hold
    rw [← h.parents hold]
    rcases move.parents with hsame | ⟨scope, -, -, hadded⟩
    · exact hsame store
    · rw [hadded, ScopeGraph.get_add_of_lt _ _ hlt]
  · exact hparents

theorem rootless_move {ref : BlockRef} {store : ScopeId} (owns : moment'.Owns ref store) :
    ∀ id < moment'.state.engines.size, (moment'.state.engine id).root ≠ store := by
  have hsame := move.sameModules
  intro id hid
  rw [hsame.size] at hid
  rw [hsame.root]
  rcases move.owns h.nested.declares h.levels.current owns with hold | ⟨rfl, -, -⟩
  · exact h.rootless hold id hid
  · exact Nat.ne_of_lt (h.nested.ordered.roots id hid)

theorem begun_move : ∀ bracket ∈ moment'.pending, bracket.Begun moment'.state.graph := by
  refine Bracket.forall_mem_of_kept move.tail_suffix ?_ fun hopens => ?_
  · intro bracket hmem hkept
    cases bracket with
    | block ref name own =>
        -- No block is declared or changed where this one waits, so it is as it was.
        have hshape := Scope.eq_of_shape (h.nested.shape_eq move hmem hkept rfl)
        have hbegun : (moment.state.graph.block ref).initialized = false := h.begun _ hmem
        exact (congrArg Block.initialized (ScopeGraph.block_congr _ hshape.2.2)).trans hbegun
    | _ => exact trivial
  · have hcurrent := h.nested.currentScope_lt
    cases move with
    | openBlock =>
        rintro _ ⟨⟩
        simp [Bracket.Begun, ScopeGraph.block, ScopeGraph.get_modify, hcurrent, Scope.addBlock,
          Block.declared]
    | openImplementing =>
        rintro _ ⟨⟩
        simp [Bracket.Begun, ScopeGraph.block, ScopeGraph.get_modify, hcurrent, Scope.addBlock,
          Block.implementing]
    | @attachStore pending self state ref name =>
        have hdeclares : state.graph.Declares ref name := h.nested.declares _ List.mem_cons_self
        have hadded : (state.graph.add { parents := [state.currentScope self] }).1.Declares ref
            name := hdeclares.add rfl
        have hbegun : (state.graph.block ref).initialized = false := h.begun _ List.mem_cons_self
        rintro _ ⟨⟩
        rw [Bracket.Begun, State.attachStore, State.graph_modifyGraph, State.graph_addScope,
          hadded.block_modifyBlock, ScopeGraph.block_add _ rfl]
        exact hbegun
    | @makeStore pending self state ref name =>
        have hbegun : (state.graph.block ref).initialized = false := h.begun _ List.mem_cons_self
        rintro _ ⟨⟩
        rw [Bracket.Begun, State.graph_addScope, ScopeGraph.block_add _ rfl]
        exact hbegun
    | _ => simp [Bracket.Begun] at hopens ⊢

theorem levels_move : moment'.state.Levels (fun pending _ scope => ∀ bracket ∈ pending.head?,
    bracket.StandsIn scope) moment'.pending moment'.self := by
  have hstands := h.levels.current
  refine h.levels.move h.nested.ordered.manned.uses move fun hopens => ?_
  cases move with
  | openBlock =>
      rintro _ ⟨⟩
      exact rfl
  | openImplementing =>
      rintro _ ⟨⟩
      exact rfl
  | attachStore =>
      rintro _ ⟨⟩
      exact hstands (.block _ _ none) rfl
  | makeStore =>
      rintro _ ⟨⟩
      exact hstands (.block _ _ none) rfl
  | _ => simp [Bracket.StandsIn] at hopens ⊢

end Move

theorem move (h : moment.Instanced)
    (move : Move (fun _ statement => statement.Sound) moment moment') : moment'.Instanced where
  nested := h.nested.move move
  distinct := h.distinct_move move
  parents := h.parents_move move
  rootless := h.rootless_move move
  begun := h.begun_move move
  levels := h.levels_move move

end Moment.Instanced

/-! ## Moves of loading -/

/-- Loading gives no block a store. -/
theorem LoadMove.store_eq (move : LoadMove moment moment') (ref : BlockRef) :
    (moment'.state.graph.block ref).store = (moment.state.graph.block ref).store := by
  cases move with
  | native =>
      rcases ScopeGraph.block_addBlock _ _ ref with hsame | ⟨hmissing, hnew⟩
      · exact congrArg Block.store hsame
      · exact (congrArg Block.store hnew).trans (congrArg Block.store hmissing).symm
  | openModule => exact congrArg Block.store (ScopeGraph.block_add _ rfl ref)
  | @expose pending importer module state =>
      refine congrArg Block.store (ScopeGraph.block_congr _ ?_)
      rw [State.graph_expose, ScopeGraph.get_modify_congr _ Scope.blocks _ _ (by intro _; rfl),
        ScopeGraph.get_modify_congr _ Scope.blocks _ _ (by intro _; rfl)]
  | _ => rfl

theorem LoadMove.owns (move : LoadMove moment moment') {ref : BlockRef} {store : ScopeId}
    (h : moment'.Owns ref store) : moment.Owns ref store := by
  rcases h with hstore | ⟨name, hmem⟩
  · exact Or.inl (move.store_eq ref ▸ hstore)
  · refine Or.inr ⟨name, ?_⟩
    cases move <;> simp_all

namespace Moment.Instanced

section LoadMove

variable (h : moment.Instanced) (move : LoadMove moment moment')
include h move

theorem parents_loadMove {ref : BlockRef} {store : ScopeId} (owns : moment'.Owns ref store) :
    (moment'.state.graph.get store).parents = [ref.scope] := by
  have hold := move.owns owns
  have hparents := h.parents hold
  have hlt := h.lt hold
  cases move with
  | native =>
      rw [State.graph_modifyScope, ScopeGraph.get_modify_congr _ Scope.parents _ _ (by intro _; rfl)]
      exact hparents
  | openModule =>
      rw [State.graph_addEngine, ScopeGraph.get_add_of_lt _ _ hlt]
      exact hparents
  -- The scope that gets a parent is the root of an engine, and that is no store.
  | @expose pending importer module state =>
      have himporter : importer < state.engines.size := h.nested.ordered.levels.2.endsIn.lt
      have hroot := h.rootless hold importer himporter
      rw [State.graph_expose, ScopeGraph.get_modify_ne _ _ hroot,
        ScopeGraph.get_modify_congr _ Scope.parents _ _ (by intro _; rfl)]
      exact hparents
  | _ => exact hparents

theorem rootless_loadMove {ref : BlockRef} {store : ScopeId} (owns : moment'.Owns ref store) :
    ∀ id < moment'.state.engines.size, (moment'.state.engine id).root ≠ store := by
  have hold := move.owns owns
  have hkeeps := move.keepsRoots
  have hroots : ∀ id < moment.state.engines.size, (moment'.state.engine id).root ≠ store := by
    intro id hid
    rw [hkeeps.root id hid]
    exact h.rootless hold id hid
  intro id hid
  cases move with
  | @openModule pending self state path content =>
      rcases State.lt_addEngine path content hid with hlt | rfl
      · exact hroots id hlt
      · simpa [State.engine_addEngine] using Ne.symm (Nat.ne_of_lt (h.lt hold))
  | read => exact hroots id (by simpa using hid)
  | expose => exact hroots id (by simpa using hid)
  | _ => exact hroots id hid

theorem begun_loadMove : ∀ bracket ∈ moment'.pending, bracket.Begun moment'.state.graph := by
  have hkept : ∀ bracket ∈ moment.pending, bracket.Begun moment'.state.graph := by
    intro bracket hmem
    cases bracket with
    | block ref name own =>
        have hdeclares : moment.state.graph.Declares ref name := h.nested.declares _ hmem
        have hbegun : (moment.state.graph.block ref).initialized = false := h.begun _ hmem
        rw [Bracket.Begun, hdeclares.block_of_blocks (move.blocks ref.scope)]
        exact hbegun
    | _ => exact trivial
  refine Bracket.forall_mem_of_tail move.tail_suffix hkept fun hopens => ?_
  cases move with
  | _ => simp [Bracket.Begun] at hopens ⊢

end LoadMove

theorem loadMove (h : moment.Instanced) (move : LoadMove moment moment') : moment'.Instanced where
  nested := h.nested.loadMove move
  distinct owns owns' := h.distinct (move.owns owns) (move.owns owns')
  parents := h.parents_loadMove move
  rootless := h.rootless_loadMove move
  begun := h.begun_loadMove move
  levels := by
    refine h.levels.loadMove move fun hopens => ?_
    cases move with
    | _ => simp [Bracket.StandsIn] at hopens ⊢

/-- Whatever is left of a run when it stops, any engine may go on in it. -/
theorem rest (h : moment.Instanced) {self : EngineId} (running : self < moment.state.engines.size) :
    Instanced ⟨[], self, moment.state⟩ := by
  have hordered := h.nested.ordered.rest running
  have howns : ∀ {ref store}, Owns ⟨[], self, moment.state⟩ ref store → moment.Owns ref store := by
    rintro ref store (hstore | ⟨name, hmem⟩)
    · exact Or.inl hstore
    · cases hmem
  exact
    { nested := .of_ordered hordered
      distinct := fun owns owns' => h.distinct (howns owns) (howns owns')
      parents := fun owns => h.parents (howns owns)
      rootless := fun owns => h.rootless (howns owns)
      begun := fun _ hmem => by cases hmem
      levels := hordered.levels.endsIn.mono fun _ _ _ hmem => by cases hmem }

end Moment.Instanced

theorem State.initial_instanced (config : Config) (files : FileTree) (source : Source) (path : Path)
    (content : String) :
    Moment.Instanced ⟨[], Script.main, State.initial config files source path content⟩ := by
  have hordered := State.initial_ordered config files source path content
  have hnone : ∀ {ref store}, ¬ Moment.Owns ⟨[], Script.main,
      State.initial config files source path content⟩ ref store := by
    rintro ref store (hstore | ⟨name, hmem⟩)
    · have hempty : (State.initial config files source path content).graph.block ref = default :=
        ScopeGraph.block_add {} rfl ref
      rw [hempty] at hstore
      cases hstore
    · cases hmem
  exact
    { nested := .of_ordered hordered
      distinct := fun owns => absurd owns hnone
      parents := fun owns => absurd owns hnone
      rootless := fun owns => absurd owns hnone
      begun := fun _ hmem => by cases hmem
      levels := hordered.levels.endsIn.mono fun _ _ _ hmem => by cases hmem }

/-- In every reachable state stores have one owner, whichever engine starts from it. -/
theorem State.Reachable.instanced {state : State} (h : state.Reachable) :
    Moment.Instanced ⟨[], Script.main, state⟩ := by
  refine (of_invariant State.initial_instanced (fun hinstanced _ => hinstanced.move)
    (fun hinstanced _ => hinstanced.loadMove) ?_ h).1
  intro pending self state hinstanced
  have hself := hinstanced.nested.ordered.manned.self
  exact hinstanced.rest (Nat.lt_of_le_of_lt (Nat.zero_le _) hself)

/-! ## Permanence -/

namespace Moment.Instanced

/-- No move changes a block that is initialized. -/
theorem keepsInstances_move (h : moment.Instanced) {allowed : EngineId → Statement → Prop}
    (move : Move allowed moment moment') :
    moment.state.graph.KeepsInstances moment'.state.graph := by
  intro ref hinitialized
  cases move.turns h.nested.declares ref with
  | kept same => exact same
  | opened missing =>
      rw [missing] at hinitialized
      cases hinitialized
  | @attached name begun _ hattached =>
      have hbegun : (moment.state.graph.block ref).initialized = false :=
        h.begun (.block ref name none) begun
      rw [hbegun] at hinitialized
      cases hinitialized
  | @closed name store declared hclosed =>
      have hbegun : (moment.state.graph.block ref).initialized = false :=
        h.begun (.block ref name store) (declared ▸ List.mem_cons_self)
      rw [hbegun] at hinitialized
      cases hinitialized

theorem keepsInstances_loadMove (move : LoadMove moment moment') :
    moment.state.graph.KeepsInstances moment'.state.graph := by
  intro ref hinitialized
  refine ScopeGraph.block_of_prefix ?_ (move.blocks ref.scope)
  intro hmissing
  rw [hmissing] at hinitialized
  cases hinitialized

end Moment.Instanced

/-- Wherever moves lead to from a state of a run, stores have one owner, and all code is sound. -/
theorem Moment.Leads.instanced (h : moment.Leads moment') (start : moment.Instanced)
    (sound : moment.state.Sound) : moment'.Instanced ∧ moment'.state.Sound :=
  h.keeps (fun after => after.Instanced ∧ after.state.Sound) ⟨start, sound⟩
    (fun h move => ⟨h.1.move move, move.sound h.2⟩) fun h move => ⟨h.1.loadMove move, move.sound h.2⟩

/-- Along the moves of a run, blocks that are initialized stay as they are. -/
theorem Moment.Leads.keepsInstances (h : moment.Leads moment') (start : moment.Instanced) :
    moment.state.graph.KeepsInstances moment'.state.graph := by
  have hkept := h.keeps
    (fun after => after.Instanced ∧ moment.state.graph.KeepsInstances after.state.graph)
    ⟨start, fun _ _ => rfl⟩ (fun hkept move => ⟨hkept.1.move move,
      hkept.2.trans (hkept.1.keepsInstances_move move)⟩)
    fun hkept move => ⟨hkept.1.loadMove move,
      hkept.2.trans (Moment.Instanced.keepsInstances_loadMove move)⟩
  exact hkept.2

/-! ## Declarations -/

/-- The name that a statement declares a block by, if it does. -/
def Statement.declared? : Statement → Option Identifier
  | .block name _ _ _ _ => some name
  | .implementing name _ _ => some name
  | _ => none

/-- The place of the block that an engine declares next. -/
def State.nextBlock (state : State) (self : EngineId) : BlockRef :=
  ⟨state.currentScope self, (state.graph.get (state.currentScope self)).blocks.length⟩

/-- A block has the name that it is declared by. -/
theorem ScopeGraph.Declares.name_block {graph : ScopeGraph} {ref : BlockRef} {name : String}
    (h : graph.Declares ref name) : (graph.block ref).name = name := by
  obtain ⟨hlt, hname, -⟩ := List.findIdx?_eq_some_iff_getElem.1 h.first
  simpa [ScopeGraph.block, hlt] using hname

/-- A block is initialized, under its name. -/
structure ScopeGraph.Initialized (graph : ScopeGraph) (ref : BlockRef) (name : String) : Prop where
  initialized : (graph.block ref).initialized = true
  name : (graph.block ref).name = name

/-- The store of a block, if it has one, is a scope that was made between two states. -/
def ScopeGraph.MakesStore (before after : ScopeGraph) (ref : BlockRef) : Prop :=
  ∀ store ∈ (after.block ref).store, before.scopes.size ≤ store ∧ store < after.scopes.size

/-- Marking what is being declared leaves it initialized. -/
theorem ScopeGraph.Declares.initialized {graph : ScopeGraph} {ref : BlockRef} {name : String}
    (h : graph.Declares ref name) (store : Option ScopeId) :
    (graph.markInitialized ref.scope name store).Initialized ref name := by
  rw [h.markInitialized]
  constructor
  · rw [h.block_modifyBlock]
  · rw [h.block_modifyBlock]
    exact h.name_block

/-- What is known while a block is declared: its stores are newer than the declaration. -/
structure Moment.Declaring (start : Moment) (ref : BlockRef) (moment : Moment) : Prop where
  instanced : moment.Instanced
  sound : moment.state.Sound
  grown : start.state.graph.scopes.size ≤ moment.state.graph.scopes.size
  new : ∀ {store : ScopeId}, moment.Owns ref store → start.state.graph.scopes.size ≤ store

namespace Moment.Declaring

variable {start : Moment} {ref : BlockRef}

theorem of_instanced (h : moment.Instanced) (sound : moment.state.Sound) :
    Declaring moment (moment.state.nextBlock moment.self) moment := by
  have hmissing : moment.state.graph.block (moment.state.nextBlock moment.self) = default :=
    ScopeGraph.block_eq_default (by simp [State.nextBlock])
  refine ⟨h, sound, Nat.le_refl _, ?_⟩
  rintro store (hstore | ⟨name, hmem⟩)
  · rw [hmissing] at hstore
    cases hstore
  · -- What is being declared is there, and no block is at the place of the next one.
    have hdeclares : moment.state.graph.Declares (moment.state.nextBlock moment.self) name :=
      h.nested.declares _ hmem
    have hthere := hdeclares.getElem?_eq
    simp [State.nextBlock] at hthere

theorem move (h : Declaring start ref moment)
    (move : Move (fun _ statement => statement.Sound) moment moment') :
    Declaring start ref moment' where
  instanced := h.instanced.move move
  sound := move.sound h.sound
  grown := Nat.le_trans h.grown move.size_le
  new owns := by
    rcases move.owns h.instanced.nested.declares h.instanced.levels.current owns with
      hold | ⟨rfl, -, -⟩
    · exact h.new hold
    · exact h.grown

/-- A block that is declared gets no store but one that is made meanwhile. -/
theorem makesStore (h : Declaring start ref moment) :
    start.state.graph.MakesStore moment.state.graph ref :=
  fun _ hstore => ⟨h.new (Or.inl hstore), h.instanced.lt (Or.inl hstore)⟩

end Moment.Declaring

/-- Whatever the engine in control declares a block by, the block is initialized if the declaration
ends well, and in any case it has no store but one that was made meanwhile. -/
def Moment.MakesInstances (moment : Moment) : Prop :=
  ∀ bound turns statement, statement.Sound → ∀ name ∈ statement.declared?,
    let ref := moment.state.nextBlock moment.self
    (Evaluation.statement (evaluate bound) (execute bound) turns moment.self statement
        moment.state).Ends
      (fun _ after => moment.state.graph.MakesStore after.graph ref ∧
        after.graph.Initialized ref name.name)
      fun _ after => moment.state.graph.MakesStore after.graph ref

theorem Moment.Instanced.makesInstances [framed : Framed moment.pending] (h : moment.Instanced)
    (sound : moment.state.Sound) : moment.MakesInstances := by
  obtain ⟨pending, self, state⟩ := moment
  intro bound turns statement hstatement name hname ref
  let D := Discipline.ofInvariant Watch.silent .sound
    (Moment.Declaring ⟨pending, self, state⟩ ref) True (fun _ _ _ _ => trivial)
    (fun hdeclaring => hdeclaring.sound.block _ _ _) fun hdeclaring => hdeclaring.move
  have knot := D.regimen.knot_silent bound
  have hstart : D.holds ⟨pending, self, state⟩ := .of_instanced h sound
  have hdeclares : ∀ {store state'}, D.holds ⟨.block ref name.name store :: pending, self, state'⟩ →
      state'.graph.Declares ref name.name :=
    fun hholds => hholds.instanced.nested.declares _ List.mem_cons_self
  -- The last move of a declaration marks its block.
  have hclosed : ∀ {store state'}, D.holds ⟨.block ref name.name store :: pending, self, state'⟩ →
      let after := state'.modifyGraph fun graph => graph.markInitialized ref.scope name.name store
      D.holds ⟨pending, self, after⟩ ∧ after.graph.Initialized ref name.name :=
    fun hholds => ⟨D.move hholds .closeBlock, (hdeclares hholds).initialized _⟩
  have hseeded : ∀ {store state'} values,
      D.holds ⟨.block ref name.name (some store) :: pending, self, state'⟩ →
        let after := (state'.modifyScope store (Declaration.seed values)).modifyGraph fun graph =>
          graph.markInitialized ref.scope name.name (some store)
        D.holds ⟨pending, self, after⟩ ∧ after.graph.Initialized ref name.name := by
    intro store state' values hholds
    have hmade : (state'.graph.modify store (Declaration.seed values)).Declares ref name.name :=
      (hdeclares hholds).modify store fun _ => rfl
    exact ⟨D.move hholds (.closeSeeded values), hmade.initialized (some store)⟩
  have hends : ∀ {action : Action Unit}, (action state).Within True
        (fun _ after => D.holds ⟨pending, self, after⟩ ∧ after.graph.Initialized ref name.name)
        (fun failure after => D.holds ⟨pending, self, after⟩ ∧ D.blames self failure) →
      (Evaluation.thenNext action state).Ends
        (fun _ after => state.graph.MakesStore after.graph ref ∧
          after.graph.Initialized ref name.name)
        fun _ after => state.graph.MakesStore after.graph ref := by
    intro action haction
    apply Action.ends_bind
    refine haction.ends.mono ?_ ?_
    · rintro _ after ⟨hholds, hinitialized⟩
      exact ⟨hholds.makesStore, hinitialized⟩
    · rintro _ after ⟨hholds, -⟩
      exact hholds.makesStore
  cases statement with
  | block name' verbs arguments init program =>
      cases hname
      exact hends (knot.plain_within hstatement hstart hclosed)
  | implementing name' parent populate =>
      cases hname
      exact hends (knot.implementing_within hstatement hstart hclosed hseeded)
  | _ => cases hname

/-! ## The result -/

/-- Runs from a reachable state go from moment to moment by moves: steps, frames and statements do,
and the frames that a step comes to are met where statements are run.  At every moment no two blocks
share a store, and a store goes on to the scope that its block is declared in and to nothing else.
Whatever moves follow, a block that is initialized stays so and keeps its store.  Whatever block is
declared there, it is initialized when its declaration has ended well, and its store is one that the
declaration made. -/
theorem instances_are_private_and_permanent {state : State} (reachable : state.Reachable) :
    (∀ bound step, (Script.perform bound step state).Leaves fun after =>
      Moment.Leads ⟨[], Script.main, state⟩ ⟨[], Script.main, after⟩) ∧
    (∀ bound step self code point, Script.Meets bound step state self code point → ∃ pending,
      code.Fits FrameSound pending ∧
        Moment.Leads ⟨[], Script.main, state⟩ ⟨pending, self, point⟩) ∧
    ∀ moment, Moment.Leads ⟨[], Script.main, state⟩ moment →
      moment.state.graph.Private ∧
      (∀ moment', moment.Leads moment' →
        moment.state.graph.KeepsInstances moment'.state.graph) ∧
      (Framed moment.pending → moment.GoesOn ∧ moment.MakesInstances) := by
  refine ⟨Moment.leads_of_perform reachable.sound,
    fun _ _ _ _ _ meets => Moment.leads_of_meets reachable.sound meets, fun moment hleads => ?_⟩
  have hmoment := hleads.instanced reachable.instanced reachable.sound
  exact ⟨hmoment.1.isPrivate, fun _ hnext => hnext.keepsInstances hmoment.1,
    fun _ => ⟨.of_sound hmoment.2, hmoment.1.makesInstances hmoment.2⟩⟩

/-- Two blocks that implement a third one, as an instance: each has a store of its own, below the
scope that all three are declared in. -/
theorem instances_are_private_and_permanent_of_implements :
    ∃ state : State, state.Reachable ∧ (state.graph.block ⟨0, 2⟩).store = some 2 ∧
      (state.graph.block ⟨0, 3⟩).store = some 3 ∧ (state.graph.get 2).parents = [0] ∧
        state.graph.Private ∧ ∀ moment', Moment.Leads ⟨[], Script.main, state⟩ moment' →
          state.graph.KeepsInstances moment'.state.graph := by
  let start := State.initial {} {} (.prepared []) "main.bir"
    ("counter [by] { init { let count = 0 } count += by return count } " ++
      "left implements counter right implements counter left(1) right(10)")
  have hloads : ((Script.perform 20 .load start).state?).isSome = true := by decide +kernel
  obtain ⟨loaded, hloaded⟩ := Option.isSome_iff_exists.1 hloads
  have hstores : ((Script.perform 20 .load start).state?.bind fun loaded =>
      (Script.perform 20 .run loaded).state?.map fun state =>
        ((state.graph.block ⟨0, 2⟩).store, (state.graph.block ⟨0, 3⟩).store)) =
          some (some 2, some 3) := by decide +kernel
  rw [hloaded, Option.bind_some, Option.map_eq_some_iff] at hstores
  obtain ⟨state, hstate, hstores⟩ := hstores
  have hreachable : state.Reachable := .performed (.performed (.initial ..) hloaded) hstate
  obtain ⟨hleft, hright⟩ := Prod.mk.inj hstores
  have hresult := (instances_are_private_and_permanent hreachable).2.2 _ .refl
  exact ⟨state, hreachable, hleft, hright, hresult.1.parents hleft, hresult.1, hresult.2.1⟩

end Bir
