import Bir.Proofs.Levels

/-!
# Declarations — what is being declared, and where

A declaration adds a block to the end of the current scope, and marks it as initialized by its name
when its store is made.  In between other blocks may be declared, but names never go away, so it is
the same block that is marked.  This file defines:

* `Bracket.site?` and `Bracket.store?` — the scope that a bracket declares something in, and the
  store that is being made;
* `Scope.shape` — a scope without its bindings;
* `ScopeGraph.signatures` — the names of the blocks of a scope, with their parameters;
* `ScopeGraph.Declares` — a block is the one that its name stands for in its scope;
* `Bracket.Declares` — this holds of the block that a bracket declares.

`Move.declares` shows that it holds at every moment of a run, and `Move.shape` what follows for the
scopes that nothing is declared in.
-/

namespace Bir

/-! ## Brackets -/

namespace Bracket

/-- The scope that something is being declared in. -/
def site? : Bracket → Option ScopeId
  | .binding holder _ _ => some holder
  | .block ref _ _ => some ref.scope
  | _ => none

/-- The store that is being made for a block. -/
def store? : Bracket → Option ScopeId
  | .block _ _ store => store
  | _ => none

end Bracket

/-- A scope without its bindings, whoever its blocks belong to. -/
def Scope.shape (scope : Scope) : Scope := { scope with bindings := [], foreign := false }

theorem Scope.eq_of_shape {scope scope' : Scope} (h : scope'.shape = scope.shape) :
    scope'.parents = scope.parents ∧ scope'.immutable = scope.immutable ∧
      scope'.blocks = scope.blocks := by
  simp only [shape, Scope.mk.injEq, and_true, true_and] at h
  exact ⟨h.1, h.2.2, h.2.1⟩

/-- The name of a block, its verbs and its arguments. -/
def Block.signature (block : Block) : String × List String × List String :=
  (block.name, block.verbs, block.arguments)

/-- What is read of a block is the same whether it is initialized or not, with whatever store. -/
def Block.Stateless {β : Type} (part : Block → β) : Prop :=
  ∀ block initialized store, part { block with initialized, store } = part block

theorem Block.stateless_signature : Block.Stateless Block.signature := fun _ _ _ => rfl

namespace ScopeGraph

/-- What is read of blocks, in the order of declaration, changes with none of them if it does not
with the block that is changed. -/
theorem map_blocks_modifyBlock (graph : ScopeGraph) {β : Type} {part : Block → β} (ref : BlockRef)
    {change : Block → Block} (same : ∀ block, part (change block) = part block) (id : ScopeId) :
    ((graph.modifyBlock ref change).get id).blocks.map part = (graph.get id).blocks.map part := by
  refine graph.get_modify_congr (fun scope => scope.blocks.map part) ref.scope id fun scope => ?_
  apply List.ext_getElem?
  intro place
  by_cases hplace : ref.index = place
  · cases hblock : scope.blocks[place]? <;> simp [Scope.modifyBlock, hplace, hblock, same]
  · simp [Scope.modifyBlock, hplace]

theorem map_blocks_markInitialized (graph : ScopeGraph) {β : Type} {part : Block → β}
    (stateless : Block.Stateless part) (scope : ScopeId) (name : String) (store : Option ScopeId)
    (id : ScopeId) :
    ((graph.markInitialized scope name store).get id).blocks.map part =
      (graph.get id).blocks.map part := by
  rcases graph.markInitialized_cases scope name store with hsame | ⟨found, -, hmarked⟩
  · rw [hsame]
  · rw [hmarked]
    exact graph.map_blocks_modifyBlock found.block (fun block => stateless block true store) id

theorem map_blocks_addBlock (graph : ScopeGraph) {β : Type} (part : Block → β) (scope : ScopeId)
    (block : Block) (id : ScopeId) :
    ((graph.modify scope fun scope => scope.addBlock block).get id).blocks.map part =
        (graph.get id).blocks.map part ∨
      id = scope ∧ ((graph.modify scope fun scope => scope.addBlock block).get id).blocks.map part =
        (graph.get id).blocks.map part ++ [part block] := by
  rw [get_modify]
  split
  · rename_i hid
    exact Or.inr ⟨hid.1.symm, by simp [Scope.addBlock]⟩
  · exact Or.inl rfl

/-- The signatures of the blocks of a scope, in the order of declaration. -/
def signatures (graph : ScopeGraph) (id : ScopeId) :
    List (String × List String × List String) :=
  (graph.get id).blocks.map Block.signature

/-- A block is the first of its name in its scope, and lookups of the name ask for it. -/
structure Declares (graph : ScopeGraph) (ref : BlockRef) (name : String) : Prop where
  unmarked : unmarked name = name
  first : (graph.get ref.scope).blockIndex? name = some ref.index

variable (graph : ScopeGraph)

/-! ## Signatures -/

theorem blockIndex?_eq (id : ScopeId) (name : String) :
    (graph.get id).blockIndex? name = (graph.signatures id).findIdx? (·.1 == name) := by
  simp [Scope.blockIndex?, signatures, List.findIdx?_map, Function.comp_def, Block.signature]

theorem signatures_congr {graph' : ScopeGraph} {id : ScopeId}
    (same : (graph'.get id).blocks = (graph.get id).blocks) :
    graph'.signatures id = graph.signatures id := by
  unfold signatures
  rw [same]

theorem signatures_modify (scope : ScopeId) {change : Scope → Scope}
    (same : ∀ scope, (change scope).blocks = scope.blocks) (id : ScopeId) :
    (graph.modify scope change).signatures id = graph.signatures id :=
  graph.signatures_congr (graph.get_modify_congr Scope.blocks scope id same)

theorem signatures_add {scope : Scope} (undeclared : scope.blocks = []) (id : ScopeId) :
    (graph.add scope).1.signatures id = graph.signatures id :=
  graph.signatures_congr (graph.get_add_congr Scope.blocks id undeclared)

theorem block_congr {graph' : ScopeGraph} {ref : BlockRef}
    (same : (graph'.get ref.scope).blocks = (graph.get ref.scope).blocks) :
    graph'.block ref = graph.block ref := by
  unfold block
  rw [same]

theorem block_add {scope : Scope} (undeclared : scope.blocks = []) (ref : BlockRef) :
    (graph.add scope).1.block ref = graph.block ref :=
  graph.block_congr (graph.get_add_congr Scope.blocks ref.scope undeclared)

/-! ## Declared blocks -/

variable {graph} {graph' : ScopeGraph} {ref : BlockRef} {name : String}

theorem Declares.of_signatures (h : graph.Declares ref name)
    (signatures : ∀ id, graph.signatures id <+: graph'.signatures id) :
    graph'.Declares ref name where
  unmarked := h.unmarked
  first := by
    have hfirst := h.first
    obtain ⟨added, hadded⟩ := signatures ref.scope
    rw [blockIndex?_eq] at hfirst ⊢
    -- A search that comes to an end among the first does so among more.
    rw [← hadded, List.findIdx?_append, hfirst]
    rfl

theorem Declares.modify (h : graph.Declares ref name) (scope : ScopeId) {change : Scope → Scope}
    (same : ∀ scope, (change scope).blocks = scope.blocks) :
    (graph.modify scope change).Declares ref name :=
  h.of_signatures fun id => (graph.signatures_modify scope same id).symm ▸ List.prefix_rfl

theorem Declares.add (h : graph.Declares ref name) {scope : Scope}
    (undeclared : scope.blocks = []) : (graph.add scope).1.Declares ref name :=
  h.of_signatures fun id => (graph.signatures_add undeclared id).symm ▸ List.prefix_rfl

/-- A declared block is there. -/
theorem Declares.getElem?_eq (h : graph.Declares ref name) :
    (graph.get ref.scope).blocks[ref.index]? = some (graph.block ref) := by
  obtain ⟨hlt, -⟩ := List.findIdx?_eq_some_iff_getElem.1 h.first
  simp [ScopeGraph.block, hlt]

theorem Declares.lt (h : graph.Declares ref name) :
    ref.scope < graph.scopes.size :=
  graph.declares_lt (Scope.declares_eq_true.2 ⟨ref.index, h.first⟩)

theorem Declares.block_of_blocks (h : graph.Declares ref name)
    (blocks : (graph.get ref.scope).blocks <+: (graph'.get ref.scope).blocks) :
    graph'.block ref = graph.block ref := by
  obtain ⟨added, hadded⟩ := blocks
  have hget : (graph'.get ref.scope).blocks[ref.index]? = some (graph.block ref) := by
    rw [← hadded, List.getElem?_append, h.getElem?_eq]
    split
    · rfl
    · rename_i hlength
      exact absurd (List.getElem?_eq_some_iff.1 h.getElem?_eq).1 hlength
  simp [block, hget]

/-- Marking the name of a declared block marks that block. -/
theorem Declares.markInitialized (h : graph.Declares ref name) (store : Option ScopeId) :
    graph.markInitialized ref.scope name store =
      graph.modifyBlock ref fun block => { block with initialized := true, store } := by
  have hdeclares : (graph.get ref.scope).declares name = true :=
    Scope.declares_eq_true.2 ⟨ref.index, h.first⟩
  have hresolve : graph.resolve? (fun scope => scope.declares name) ref.scope = some ref.scope :=
    graph.resolve?_self hdeclares h.lt
  simp [ScopeGraph.markInitialized, findBlock?, h.unmarked, hresolve, h.first]

/-- A block whose name is new to a scope is declared there when it is added. -/
theorem declares_addBlock {id : ScopeId} (exists' : id < graph.scopes.size) {block : Block}
    (unmarked : ScopeGraph.unmarked block.name = block.name)
    (missing : (graph.get id).declares block.name = false) :
    (graph.modify id fun scope => scope.addBlock block).Declares
      ⟨id, (graph.get id).blocks.length⟩ block.name where
  unmarked := unmarked
  first := by
    -- No block before it has the name, so the search comes to the one that is added.
    have hnone : (graph.get id).blocks.findIdx? (fun other => other.name == block.name) = none := by
      simpa [Scope.declares] using missing
    simp [get_modify, exists', Scope.blockIndex?, Scope.addBlock, List.findIdx?_append, hnone]

end ScopeGraph

/-- A store is made without bindings. -/
theorem State.bindings_attachStore (state : State) (self : EngineId) (ref : BlockRef) :
    ((state.attachStore self ref).graph.get state.graph.scopes.size).bindings = [] := by
  have hempty : ((state.graph.add { parents := [state.currentScope self] }).1.get
      state.graph.scopes.size).bindings = [] := by simp [ScopeGraph.get_add]
  refine (ScopeGraph.get_modify_congr _ Scope.bindings ref.scope _ ?_).trans hempty
  intro _
  rfl

/-! ## Moves -/

/-- The block that a bracket declares is the one that its name stands for. -/
def Bracket.Declares (graph : ScopeGraph) : Bracket → Prop
  | .block ref name _ => graph.Declares ref name
  | _ => True

theorem Bracket.Declares.of_signatures {graph graph' : ScopeGraph} {bracket : Bracket}
    (h : bracket.Declares graph)
    (signatures : ∀ id, graph.signatures id <+: graph'.signatures id) :
    bracket.Declares graph' := by
  cases bracket with
  | block ref name store => exact ScopeGraph.Declares.of_signatures h signatures
  | _ => exact trivial

variable {moment moment' : Moment}

/-- What a move may do to what is read of the blocks of a scope: nothing, or add a block of the engine
in control to the scope that it runs statements in. -/
def Moment.MayDeclare (moment : Moment) {β : Type} (part : Block → β) (id : ScopeId)
    (graph : ScopeGraph) : Prop :=
  (graph.get id).blocks.map part = (moment.state.graph.get id).blocks.map part ∨
    (Framed moment.pending ∧ id = moment.state.currentScope moment.self) ∧
      ∃ block : Block, block.owner = moment.self ∧
        (graph.get id).blocks.map part =
          (moment.state.graph.get id).blocks.map part ++ [part block]

/-- No move does anything else to what is read of blocks, whatever their state is. -/
theorem Move.map_blocks {allowed : EngineId → Statement → Prop}
    (move : Move allowed moment moment') {β : Type} {part : Block → β}
    (stateless : Block.Stateless part) (id : ScopeId) :
    moment.MayDeclare part id moment'.state.graph := by
  have hblocks : ∀ {graph' : ScopeGraph},
      (graph'.get id).blocks = (moment.state.graph.get id).blocks →
        (graph'.get id).blocks.map part = (moment.state.graph.get id).blocks.map part :=
    fun same => congrArg _ same
  have hmodify : ∀ (scope : ScopeId) {change : Scope → Scope},
      (∀ scope, (change scope).blocks = scope.blocks) →
        ((moment.state.graph.modify scope change).get id).blocks.map part =
          (moment.state.graph.get id).blocks.map part :=
    fun scope _ same => hblocks (ScopeGraph.get_modify_congr _ Scope.blocks scope id same)
  have hadd : ∀ {scope : Scope}, scope.blocks = [] →
      ((moment.state.graph.add scope).1.get id).blocks.map part =
        (moment.state.graph.get id).blocks.map part :=
    fun undeclared => hblocks (ScopeGraph.get_add_congr _ Scope.blocks id undeclared)
  have hupdate : ∀ (scope : ScopeId) (name : String) (value : Int64),
      ((moment.state.graph.update scope name value).1.get id).blocks.map part =
        (moment.state.graph.get id).blocks.map part :=
    fun scope name value => hblocks
      (ScopeGraph.get_update_congr _ Scope.blocks (fun _ _ _ => rfl) scope id name value)
  have hadded : Framed moment.pending → ∀ block : Block, block.owner = moment.self →
      moment.MayDeclare part id (moment.state.graph.modify
        (moment.state.currentScope moment.self) fun scope => scope.addBlock block) := by
    intro framed block howner
    rcases moment.state.graph.map_blocks_addBlock part _ block id with hsame | ⟨hid, hmore⟩
    · exact Or.inl hsame
    · exact Or.inr ⟨⟨framed, hid⟩, block, howner, hmore⟩
  cases move with
  | write => exact Or.inl (hupdate _ _ _)
  | slotWrite => exact Or.inl (hupdate _ _ _)
  | slotPush => exact Or.inl (hmodify _ fun _ => rfl)
  | slotErase index target found =>
      rw [State.graph_modifyGraph, ScopeGraph.delete_eq_of_binds _ found]
      exact Or.inl (hmodify _ fun _ => rfl)
  | closeBinding => exact Or.inl (hmodify _ fun _ => rfl)
  | lend => exact Or.inl (hmodify _ fun _ => rfl)
  | giveBack => exact Or.inl (hmodify _ fun _ => rfl)
  | openBlock => exact hadded ‹_› _ rfl
  | openImplementing => exact hadded ‹_› _ rfl
  | @attachStore pending self state ref name =>
      have hattached := (state.graph.add { parents := [state.currentScope self] }).1
        |>.map_blocks_modifyBlock ref
          (fun block => stateless block block.initialized (some state.graph.scopes.size)) id
      exact Or.inl (hattached.trans (hadd rfl))
  | makeStore => exact Or.inl (hadd rfl)
  | enterCall => exact Or.inl (hadd rfl)
  | enterTurn => exact Or.inl (hadd rfl)
  | closeBlock => exact Or.inl (ScopeGraph.map_blocks_markInitialized _ stateless _ _ _ id)
  | closeSeeded =>
      refine Or.inl ((ScopeGraph.map_blocks_markInitialized _ stateless _ _ _ id).trans ?_)
      exact hmodify _ fun _ => rfl
  | _ => exact Or.inl rfl

/-- No move takes a block away, puts one before it or changes anything of it but its state. -/
theorem Move.blocks_prefix {allowed : EngineId → Statement → Prop}
    (move : Move allowed moment moment') {β : Type} {part : Block → β}
    (stateless : Block.Stateless part) (id : ScopeId) :
    (moment.state.graph.get id).blocks.map part <+:
      (moment'.state.graph.get id).blocks.map part := by
  rcases move.map_blocks stateless id with hsame | ⟨-, block, -, hadded⟩
  · exact hsame ▸ List.prefix_rfl
  · exact ⟨[part block], hadded.symm⟩

theorem Move.signatures {allowed : EngineId → Statement → Prop}
    (move : Move allowed moment moment') (id : ScopeId) :
    moment.state.graph.signatures id <+: moment'.state.graph.signatures id :=
  move.blocks_prefix Block.stateless_signature id

/-- No move of loading changes a block. -/
theorem LoadMove.blocks (move : LoadMove moment moment') (id : ScopeId) :
    (moment.state.graph.get id).blocks <+: (moment'.state.graph.get id).blocks := by
  cases move with
  | native =>
      rw [State.graph_modifyScope, ScopeGraph.get_modify]
      split
      · exact List.prefix_append _ _
      · exact List.prefix_rfl
  | @openModule pending self state path content =>
      have hblocks : ((state.addEngine path content).1.graph.get id).blocks =
          (state.graph.get id).blocks := state.graph.get_add_congr Scope.blocks id rfl
      exact hblocks.symm ▸ List.prefix_rfl
  | @expose pending importer module state =>
      have hblocks : ((state.expose importer module).graph.get id).blocks =
          (state.graph.get id).blocks := by
        rw [State.graph_expose, ScopeGraph.get_modify_congr _ Scope.blocks _ id (by intro _; rfl),
          ScopeGraph.get_modify_congr _ Scope.blocks _ id (by intro _; rfl)]
      exact hblocks.symm ▸ List.prefix_rfl
  | _ => exact List.prefix_rfl

theorem LoadMove.signatures (move : LoadMove moment moment') (id : ScopeId) :
    moment.state.graph.signatures id <+: moment'.state.graph.signatures id :=
  (move.blocks id).map Block.signature

/-- What is being declared stays declared where it is, and what a move begins to declare is declared
in the current scope. -/
theorem Move.declares (move : Move (fun _ statement => statement.Sound) moment moment')
    (current : Framed moment.pending →
      moment.state.currentScope moment.self < moment.state.graph.scopes.size)
    (h : ∀ bracket ∈ moment.pending, bracket.Declares moment.state.graph) :
    ∀ bracket ∈ moment'.pending, bracket.Declares moment'.state.graph := by
  have hkept : ∀ bracket ∈ moment.pending, bracket.Declares moment'.state.graph :=
    fun bracket hmem => (h bracket hmem).of_signatures move.signatures
  refine Bracket.forall_mem_of_tail move.tail_suffix hkept fun hopens => ?_
  cases move with
  | @openBlock pending self state name verbs arguments init program position framed statement
      missing =>
      rintro _ ⟨⟩
      have hname : ScopeGraph.unmarked name.name = name.name :=
        (statement.name (by simp [Statement.names])).1
      exact ScopeGraph.declares_addBlock (current framed) hname missing
  | @openImplementing pending self state name parent populate position found framed statement
      implemented missing =>
      rintro _ ⟨⟩
      have hname : ScopeGraph.unmarked name.name = name.name :=
        (statement.name (by simp [Statement.names])).1
      exact ScopeGraph.declares_addBlock (current framed) hname missing
  | @attachStore pending self state ref name =>
      rintro _ ⟨⟩
      exact hkept (.block ref name none) List.mem_cons_self
  | @makeStore pending self state ref name =>
      rintro _ ⟨⟩
      exact hkept (.block ref name none) List.mem_cons_self
  | _ => simp [Bracket.Declares] at hopens ⊢

theorem LoadMove.declares (move : LoadMove moment moment')
    (h : ∀ bracket ∈ moment.pending, bracket.Declares moment.state.graph) :
    ∀ bracket ∈ moment'.pending, bracket.Declares moment'.state.graph := by
  have hkept : ∀ bracket ∈ moment.pending, bracket.Declares moment'.state.graph :=
    fun bracket hmem => (h bracket hmem).of_signatures move.signatures
  refine Bracket.forall_mem_of_tail move.tail_suffix hkept fun hopens => ?_
  cases move with
  | _ => simp [Bracket.Declares] at hopens ⊢

/-- A store that is being made is a new scope. -/
theorem Move.made {allowed : EngineId → Statement → Prop} (move : Move allowed moment moment')
    {size : Nat} (grown : size ≤ moment.state.graph.scopes.size)
    (h : ∀ bracket ∈ moment.pending, ∀ id ∈ bracket.store?, size ≤ id) :
    ∀ bracket ∈ moment'.pending, ∀ id ∈ bracket.store?, size ≤ id := by
  refine Bracket.forall_mem_of_tail move.tail_suffix h fun hopens => ?_
  cases move with
  | attachStore =>
      rintro _ ⟨⟩ id ⟨⟩
      exact grown
  | makeStore =>
      rintro _ ⟨⟩ id ⟨⟩
      exact grown
  | _ => simp [Bracket.store?] at hopens ⊢

/-- A scope keeps its shape in a move unless a block is declared there: now, if statements are run
in it, or earlier, if that declaration gets on. -/
theorem Move.shape {allowed : EngineId → Statement → Prop} (move : Move allowed moment moment')
    {id : ScopeId} (exists' : id < moment.state.graph.scopes.size)
    (current : Framed moment.pending → moment.state.currentScope moment.self ≠ id)
    (ended : ¬ moment.pending <:+ moment'.pending →
      ∀ bracket ∈ moment.pending.head?, id ∉ bracket.site?)
    (declares : ∀ bracket ∈ moment.pending, bracket.Declares moment.state.graph) :
    (moment'.state.graph.get id).shape = (moment.state.graph.get id).shape := by
  have hmodify : ∀ (graph : ScopeGraph) (scope : ScopeId) {change : Scope → Scope},
      (∀ scope, (change scope).shape = scope.shape) →
        ((graph.modify scope change).get id).shape = (graph.get id).shape :=
    fun graph scope _ same => graph.get_modify_congr Scope.shape scope id same
  cases move with
  | write => exact ScopeGraph.get_update_congr _ Scope.shape (fun _ _ _ => rfl) _ id _ _
  | slotWrite => exact ScopeGraph.get_update_congr _ Scope.shape (fun _ _ _ => rfl) _ id _ _
  | slotPush => exact hmodify _ _ fun _ => rfl
  | slotErase index target found =>
      rw [State.graph_modifyGraph, ScopeGraph.delete_eq_of_binds _ found]
      exact hmodify _ _ fun _ => rfl
  | closeBinding => exact hmodify _ _ fun _ => rfl
  | lend => exact hmodify _ _ fun _ => rfl
  | giveBack => exact hmodify _ _ fun _ => rfl
  -- Blocks are added to the current scope, and changed where they are declared.
  | @openBlock pending self state name verbs arguments init program position framed =>
      rw [State.graph_modifyScope, state.graph.get_modify_ne _ (current framed)]
  | @openImplementing pending self state name parent populate position found framed =>
      rw [State.graph_modifyScope, state.graph.get_modify_ne _ (current framed)]
  | @attachStore pending self state ref name =>
      have hsite : ref.scope ≠ id := by
        simpa [Bracket.site?] using ended (State.Levels.opens (by simp) (by simp))
      rw [State.attachStore, State.graph_modifyGraph, ScopeGraph.modifyBlock,
        ScopeGraph.get_modify_ne _ _ hsite, State.graph_addScope,
        state.graph.get_add_of_lt _ exists']
  | @closeBlock pending self state ref name store =>
      have hsite : ref.scope ≠ id := by
        simpa [Bracket.site?] using ended (State.Levels.opens (by simp) (by simp))
      have hdeclares : state.graph.Declares ref name := declares _ List.mem_cons_self
      rw [State.graph_modifyGraph, hdeclares.markInitialized, ScopeGraph.modifyBlock,
        ScopeGraph.get_modify_ne _ _ hsite]
  | @closeSeeded pending self ref name store state values =>
      have hsite : ref.scope ≠ id := by
        simpa [Bracket.site?] using ended (State.Levels.opens (by simp) (by simp))
      have hdeclares : state.graph.Declares ref name := declares _ List.mem_cons_self
      have hseeded : (state.modifyScope store (Declaration.seed values)).graph.Declares ref name :=
        hdeclares.modify store fun _ => rfl
      rw [State.graph_modifyGraph, hseeded.markInitialized, ScopeGraph.modifyBlock,
        ScopeGraph.get_modify_ne _ _ hsite]
      exact hmodify _ _ fun _ => rfl
  -- Scopes that are there are not touched when others are added.
  | @makeStore pending self state ref name => simp [state.graph.get_add_of_lt _ exists']
  | @enterCall pending self state ref awaited interpreted verbs arguments brought =>
      simp [state.graph.get_add_of_lt _ exists']
  | @enterTurn pending self state placeholder index =>
      simp [state.graph.get_add_of_lt _ exists']
  | _ => rfl

end Bir
