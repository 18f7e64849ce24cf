import Bir.Proofs.Executing.Chains

/-!
# Scenes — moments with their activations

A frame of a call stack tells no more than a name.  This file keeps, beside each moment, which blocks
the frames were entered for and in which scopes, and shows that these stay chained.  It defines:

* `Scene`, a moment with its activations, and `Scene.Next`, one change of a scene;
* `Scene.Leads` — changes in a row;
* `Stands` and `StandsAt` — what is known of a level with the activations that are open there;
* `Scene.Staged` — this holds at all levels of a scene.

`Scene.Leads.staged` is what it comes to: wherever code is run, the current scope carries the
activations.
-/

namespace Bir

/-! ## Scenes -/

/-- A moment, with the activations that are begun and not ended there, the innermost first. -/
structure Scene where
  active : List Activation
  moment : Moment

namespace Scene

/-- One change of a scene.  The blocks that are called are those that their names stand for, and
nothing else is changed but where code is run. -/
inductive Next : Scene → Scene → Prop where
  | enter {active : List Activation} {moment : Moment} {activation : Activation}
      (begins : activation.Begins True moment) (opens : activation.frame.Opens Spelled moment) :
      Next ⟨active, moment⟩ ⟨activation :: active, moment.enter activation.frame⟩
  | leave {active : List Activation} {activation : Activation} {pending : List Bracket}
      {self : EngineId} {state : State} :
      Next ⟨activation :: active, ⟨.frame :: pending, self, state⟩⟩
        ⟨active, ⟨pending, self, state.modifyCallStack self CallStack.pop⟩⟩
  | move {active : List Activation} {moment moment' : Moment}
      (move : Move (fun _ statement => statement.Throughout Law.spelled) moment moment')
      (same : frames moment'.pending = frames moment.pending)
      (running : Running moment.pending ∨ moment.Withdraws moment') :
      Next ⟨active, moment⟩ ⟨active, moment'⟩
  | loadMove {moment moment' : Moment} (move : LoadMove moment moment')
      (running : Running moment.pending) : Next ⟨[], moment⟩ ⟨[], moment'⟩

/-- A run at a scene may come to another one. -/
abbrev Leads : Scene → Scene → Prop := Relation.ReflTransGen Next

/-- A scene without the blocks and the scopes of its activations. -/
def stage (scene : Scene) : Stage := ⟨scene.active.map Activation.frame, scene.moment⟩

/-- Scenes that a run comes to are stages that it comes to. -/
theorem Leads.stages {scene scene' : Scene} (h : scene.Leads scene') :
    scene.stage.Leads scene'.stage := by
  refine h.lift Scene.stage fun scene scene' next => ?_
  cases next with
  | enter begins opens => exact .enter opens
  | leave => exact .leave
  | move hmove same _ =>
      exact .move (hmove.mono fun _ _ hspelled => hspelled.mono Law.spelled_implies_sound) same
  | loadMove hmove _ => exact .loadMove hmove

end Scene

/-! ## Levels -/

/-- What is known of a level, of the scope that control goes on in there and of the activations that
are open. -/
structure Stands (graph : ScopeGraph) (active : List Activation) (pending : List Bracket)
    (scope : ScopeId) : Prop where
  exist : scope < graph.scopes.size
  carried : Running pending → graph.Carries scope active
  /-- Statements are run in scopes that are no older than those of activations. -/
  current : Framed pending → ∀ base ∈ bases active, base ≤ scope
  made : ∀ bracket ∈ pending.head?, ∀ store ∈ bracket.store?, ∀ base ∈ bases active, base ≤ store
  /-- The scopes that a call sees were there before. -/
  older : ∀ outer, pending = .scope :: outer → (awaited? outer).isSome → graph.ClosedUp (· < scope)

/-- What is known of all levels, with those activations that are open there. -/
def StandsAt (graph : ScopeGraph) (active : List Activation) (pending : List Bracket) (_ : EngineId)
    (scope : ScopeId) : Prop :=
  ∀ inner, inner <:+ active → inner.length = frames pending → Stands graph inner pending scope

theorem frames_le_of_suffix {pending level : List Bracket} (h : level <:+ pending) :
    frames level ≤ frames pending := by
  induction pending with
  | nil => rw [List.suffix_nil.1 h]
  | cons bracket pending ih =>
      rcases List.suffix_cons_iff.1 h with rfl | hsuffix
      · exact Nat.le_refl _
      · refine (ih hsuffix).trans ?_
        cases bracket <;> simp [frames]

/-- Where no frame is open and code is run, it was so at all levels. -/
theorem Running.of_suffix {pending level : List Bracket} (h : Running pending)
    (none : frames pending = 0) (suffix : level <:+ pending) : Running level := by
  induction pending with
  | nil => exact List.suffix_nil.1 suffix ▸ trivial
  | cons bracket pending ih =>
      rcases List.suffix_cons_iff.1 suffix with rfl | hsuffix
      · exact h
      · cases bracket with
        | scope => exact h.elim
        | frame => cases none
        | _ => exact ih h none hsuffix

/-- Loading goes on where code is run. -/
theorem LoadMove.running {moment moment' : Moment} (move : LoadMove moment moment')
    (h : Running moment.pending) : Running moment'.pending := by
  cases move <;> exact h

theorem bases_subset {active inner : List Activation} (h : inner <:+ active) :
    bases inner ⊆ bases active :=
  (h.sublist.filterMap _).subset

section Levels

variable {graph graph' : ScopeGraph} {active : List Activation} {activation : Activation}
variable {pending level : List Bracket} {self : EngineId} {scope : ScopeId}

/-- At the innermost level all activations are open. -/
theorem StandsAt.stands (h : StandsAt graph active pending self scope)
    (count : active.length = frames pending) : Stands graph active pending scope :=
  h active List.suffix_rfl count

theorem Stands.standsAt (h : Stands graph active pending scope)
    (count : active.length = frames pending) : StandsAt graph active pending self scope := by
  intro inner hinner hlength
  exact (hinner.eq_of_length (hlength.trans count.symm)) ▸ h

/-- Another activation is no concern of the levels that are open. -/
theorem StandsAt.enter (h : StandsAt graph active level self scope)
    (count : active.length = frames pending) (hlevel : level <:+ pending) :
    StandsAt graph (activation :: active) level self scope := by
  intro inner hinner hlength
  rcases List.suffix_cons_iff.1 hinner with rfl | hsuffix
  · have hle := frames_le_of_suffix hlevel
    rw [← count, ← hlength, List.length_cons] at hle
    exact absurd hle (Nat.not_succ_le_self _)
  · exact h inner hsuffix hlength

theorem StandsAt.leave (h : StandsAt graph (activation :: active) level self scope) :
    StandsAt graph active level self scope :=
  fun inner hinner => h inner (hinner.trans (List.suffix_cons activation active))

theorem Stands.mono (h : Stands graph active pending scope) (acyclic : graph.Acyclic)
    (exist : graph.ClosedUp (· < graph.scopes.size)) (grows : graph.GrowsTo graph')
    (kept : ∀ base ∈ bases active, ∀ id < base, graph'.signatures id = graph.signatures id) :
    Stands graph' active pending scope where
  exist := h.exist.trans_le grows.size
  carried running := (h.carried running).mono acyclic exist grows kept
  current := h.current
  made := h.made
  older outer hpending hawaited id hid parent hparent := by
    rw [ScopeGraph.Parent, grows.parents id (hid.trans h.exist)] at hparent
    exact h.older outer hpending hawaited id hid parent hparent

/-- Where no frame is open, there is nothing to be known but the scope. -/
theorem Stands.of_running (running : Running pending) (exist : scope < graph.scopes.size) :
    Stands graph [] pending scope where
  exist := exist
  carried _ := .rest
  current _ _ hbase := by cases hbase
  made _ _ _ _ _ hbase := by cases hbase
  older outer hpending := by
    rw [hpending] at running
    exact running.elim

/-- A bracket that enters no scope and no frame opens a level in the same scope. -/
theorem Stands.push (h : Stands graph active pending scope) (running : Running pending)
    {bracket : Bracket} (made : ∀ store ∈ bracket.store?, ∀ base ∈ bases active, base ≤ store)
    (unframed : ¬ Framed (bracket :: level)) : Stands graph active (bracket :: level) scope where
  exist := h.exist
  carried _ := h.carried running
  current framed := absurd framed unframed
  made := by
    rintro _ ⟨⟩
    exact made
  older outer hpending := by
    cases hpending
    exact absurd (Framed.scope _) unframed

/-- A scope is entered that is no older than those of activations. -/
theorem Stands.pushScope (exist : scope < graph.scopes.size)
    (current : ∀ base ∈ bases active, base ≤ scope)
    (older : (awaited? pending).isSome → graph.ClosedUp (· < scope)) :
    Stands graph active (.scope :: pending) scope where
  exist := exist
  carried running := running.elim
  current _ := current
  made := by
    rintro _ ⟨⟩ store ⟨⟩
  older := by
    rintro _ ⟨⟩
    exact older

end Levels

/-! ## Moves -/

theorem Move.growsTo {allowed : EngineId → Statement → Prop} {moment moment' : Moment}
    (move : Move allowed moment moment') : moment.state.graph.GrowsTo moment'.state.graph where
  size := move.size_le
  parents id hid := by
    rcases move.parents with hsame | ⟨scope, -, -, hadded⟩
    · exact hsame id
    · rw [hadded, ScopeGraph.get_add_of_lt _ _ hid]
  signatures := move.signatures

/-- Nothing is declared in a scope that is older than those of activations. -/
theorem Stands.signatures_eq {active : List Activation} {allowed : EngineId → Statement → Prop}
    {moment moment' : Moment} (h : Stands moment.state.graph active moment.pending
      (moment.state.currentScope moment.self)) (move : Move allowed moment moment') :
    ∀ base ∈ bases active, ∀ id < base,
      moment'.state.graph.signatures id = moment.state.graph.signatures id := by
  intro base hbase id hid
  rcases move.map_blocks Block.stateless_signature id with hsame | ⟨⟨framed, rfl⟩, -⟩
  · exact hsame
  · exact absurd (h.current framed base hbase) (Nat.not_le.2 hid)

/-! ## Staged scenes -/

/-- What is known of a scene that a run comes to. -/
structure Scene.Staged (scene : Scene) : Prop where
  instanced : scene.moment.Instanced
  count : scene.active.length = frames scene.moment.pending
  spelled : scene.moment.state.graph.EveryBlock fun block => Spelled block.name
  based : ∀ base ∈ bases scene.active, base < scene.moment.state.graph.scopes.size
  blocks : ∀ activation ∈ scene.active,
    activation.block = none ↔ activation.frame.isFlow = true
  levels : scene.moment.state.Levels (StandsAt scene.moment.state.graph scene.active)
    scene.moment.pending scene.moment.self

namespace Scene.Staged

variable {active : List Activation} {moment moment' : Moment}

theorem ordered (h : Scene.Staged ⟨active, moment⟩) : moment.Ordered := h.instanced.nested.ordered

theorem stands (h : Scene.Staged ⟨active, moment⟩) : Stands moment.state.graph active moment.pending
    (moment.state.currentScope moment.self) :=
  h.levels.current.stands h.count

section Move

variable (h : Scene.Staged ⟨active, moment⟩)
  (move : Move (fun _ statement => statement.Throughout Law.spelled) moment moment')
include h move

theorem instanced_move : moment'.Instanced :=
  h.instanced.move (move.mono fun _ _ hspelled => hspelled.mono Law.spelled_implies_sound)

/-- The level that a move opens, if it enters no frame. -/
theorem stands_move (same : frames moment'.pending = frames moment.pending)
    (running : Running moment.pending) (opens : ¬ moment'.pending <:+ moment.pending) :
    Stands moment'.state.graph active moment'.pending
      (moment'.state.currentScope moment'.self) := by
  have hexist := (h.instanced_move move).nested.currentScope_lt
  have hstands := h.stands.mono h.ordered.acyclic h.ordered.exist.parents move.growsTo
    (h.stands.signatures_eq move)
  have hbases : ∀ base ∈ bases active, base ≤ moment.state.graph.scopes.size :=
    fun base hbase => Nat.le_of_lt (h.based base hbase)
  have hself := h.ordered.manned.self
  have holder : ∀ scope : Scope, (moment.state.graph.add scope).1.ClosedUp
      (· < moment.state.graph.scopes.size) := by
    intro scope id hid parent hparent
    rw [ScopeGraph.Parent, ScopeGraph.get_add_of_lt _ _ hid] at hparent
    exact h.ordered.exist.parents id hid parent hparent
  cases move with
  | openBinding => exact hstands.push running (fun _ hstore => by cases hstore) (by rintro ⟨⟩)
  | openBlock => exact hstands.push running (fun _ hstore => by cases hstore) (by rintro ⟨⟩)
  | openImplementing => exact hstands.push running (fun _ hstore => by cases hstore) (by rintro ⟨⟩)
  | openCall => exact hstands.push running (fun _ hstore => by cases hstore) (by rintro ⟨⟩)
  | attachStore =>
      refine hstands.push running ?_ (by rintro ⟨⟩)
      rintro _ ⟨⟩
      exact hbases
  | makeStore =>
      refine hstands.push running ?_ (by rintro ⟨⟩)
      rintro _ ⟨⟩
      exact hbases
  | @lend pending self state found owner owned lent =>
      have hexists : owner < state.engines.size := owned ▸ h.ordered.manned.uses.lt_of_isLent lent
      have hscope := h.levels.currentScope_take (owned ▸ State.owner_ne_of_isLent lent) hexists
      rw [hscope]
      exact hstands.push running (fun _ hstore => by cases hstore) (by rintro ⟨⟩)
  | @enterStore pending self ref name store state =>
      rw [state.currentScope_pushScope store hself] at hexist ⊢
      exact .pushScope hexist (h.stands.made _ rfl store rfl) fun hawaited => by cases hawaited
  | @enterCall pending self state ref awaited interpreted verbs arguments brought =>
      rw [state.currentScope_enter _ _ hself] at hexist ⊢
      exact .pushScope hexist hbases fun _ => holder _
  | @enterTurn pending self state placeholder index =>
      rw [state.currentScope_enter _ _ hself] at hexist ⊢
      exact .pushScope hexist hbases fun _ => holder _
  | enterFlow => exact absurd same (Nat.succ_ne_self _)
  | enterFrame => exact absurd same (Nat.succ_ne_self _)
  | _ => exact absurd (by simp) opens

end Move

/-- A move goes from scene to scene that enters and leaves no frame. -/
theorem move (h : Scene.Staged ⟨active, moment⟩)
    (move : Move (fun _ statement => statement.Throughout Law.spelled) moment moment')
    (same : frames moment'.pending = frames moment.pending)
    (running : Running moment.pending ∨ moment.Withdraws moment') :
    Scene.Staged ⟨active, moment'⟩ where
  instanced := h.instanced_move move
  count := h.count.trans same.symm
  spelled := move.everyBlock (fun _ _ _ hspelled => hspelled)
    (fun statement _ _ => (statement.name (by simp [Statement.names])).1)
    (fun statement _ => (statement.name (by simp [Statement.names])).1) h.spelled
  based base hbase := (h.based base hbase).trans_le move.size_le
  blocks := h.blocks
  levels := by
    have huses := h.ordered.manned.uses
    rcases running with hrunning | hwithdraws
    · have hkept : moment.state.Levels (StandsAt moment'.state.graph active) moment.pending
          moment.self := by
        refine h.levels.mono fun level self scope hat inner hinner hlength => ?_
        exact (hat inner hinner hlength).mono h.ordered.acyclic h.ordered.exist.parents
          move.growsTo fun base hbase => h.stands.signatures_eq move base (bases_subset hinner hbase)
      exact hkept.move huses move fun opens =>
        (h.stands_move move same hrunning opens).standsAt (h.count.trans same.symm)
    · have hlevels := h.levels.move huses move fun opens => absurd hwithdraws.pending opens
      exact hwithdraws.graph ▸ hlevels

/-! ### Entered activations -/

section Enter

variable {pending : List Bracket} {self : EngineId} {state : State}

theorem carries_turn {placeholder : String} {index : Int64}
    (h : Scene.Staged ⟨active, ⟨.scope :: pending, self,
      ((state.addScope (Evaluation.turnScope placeholder (state.currentScope self)
        index)).1).pushScope self state.graph.scopes.size⟩⟩) (running : Running pending) :
    (state.graph.add (Evaluation.turnScope placeholder (state.currentScope self) index)).1.Carries
      state.graph.scopes.size (⟨.flow .loopFor, none, [state.graph.scopes.size]⟩ :: active) := by
  -- Below the turn control goes on in the scope that the turn was entered from.
  have hbelow := h.levels.of_pushScope.current.stands h.count
  exact .turn (congrArg Scope.parents (state.graph.get_add_new _)) (hbelow.carried running)

theorem carries_call {ref : BlockRef} {called : String} {verbs arguments : List Int64}
    (h : Scene.Staged ⟨active, ⟨.scope :: pending, self,
      ((state.addScope (Call.scope (state.graph.block ref) (state.currentScope self) verbs
        arguments)).1).pushScope self state.graph.scopes.size⟩⟩)
    (awaited : awaited? pending = some ref) (plain : ScopeGraph.unmarked called = called)
    (seen : state.graph.lookup? (state.currentScope self) called = some ref) :
    (state.graph.add (Call.scope (state.graph.block ref) (state.currentScope self) verbs
      arguments)).1.Carries state.graph.scopes.size
        (⟨.call called, some ref,
          state.graph.scopes.size :: (state.graph.block ref).store.toList⟩ :: active) := by
  generalize hscope : Call.scope (state.graph.block ref) (state.currentScope self) verbs arguments =
    scope at h
  have hself : self < state.engines.size := h.levels.of_pushScope.endsIn.lt
  have hblocks : scope.blocks = [] := by
    rw [← hscope]
    rfl
  have hparents : ((state.graph.add scope).1.get state.graph.scopes.size).parents =
      (state.graph.block ref).store.toList ++ [state.currentScope self] := by
    rw [ScopeGraph.get_add_new, ← hscope]
    rfl
  have hdeclares := (ScopeGraph.declares_of_lookup? plain seen).add hblocks
  cases hstore : (state.graph.block ref).store with
  | some store =>
      rw [hstore] at hparents
      have howns : (state.graph.add scope).1.block ref = state.graph.block ref :=
        state.graph.block_add hblocks ref
      refine .stored hparents (h.instanced.parents (Or.inl ?_)) hdeclares
      exact (congrArg Block.store howns).trans hstore
  | none =>
      rw [hstore] at hparents
      have hparent : (state.graph.add scope).1.Parent state.graph.scopes.size
          (state.currentScope self) := by
        rw [ScopeGraph.Parent, hparents]
        exact List.mem_singleton_self _
      -- The caller is another scope than that of the call, so it was there before.
      have hcaller : state.currentScope self < state.graph.scopes.size := by
        refine Nat.lt_of_le_of_ne (Nat.le_of_lt_succ ?_) fun heq => ?_
        · simpa using h.ordered.exist.parents _ hparent.lt _ hparent
        · exact h.ordered.acyclic _ (.single (heq ▸ hparent))
      have holder := h.stands.older pending rfl (by rw [awaited]; rfl)
      dsimp only at holder
      simp only [State.graph_pushScope, State.graph_addScope] at holder
      rw [State.currentScope_enter _ _ _ hself] at holder
      have hexist : state.graph.ClosedUp (· < state.graph.scopes.size) := by
        intro id hid parent hparent
        refine holder id hid parent ?_
        rw [ScopeGraph.Parent, ScopeGraph.get_add_of_lt _ _ hid]
        exact hparent
      refine .storeless hparents hcaller holder hdeclares ?_
      rw [← seen]
      exact ScopeGraph.lookup?_congr (ScopeGraph.Acyclic.of_add h.ordered.acyclic) hexist (by simp)
        hexist (fun _ hid => hid)
        (fun id hid => congrArg Scope.parents (state.graph.get_add_of_lt scope hid))
        (fun id _ => state.graph.signatures_add hblocks id) hcaller called

theorem carries_init {ref : BlockRef} {name : String} {store : ScopeId}
    (h : Scene.Staged ⟨active,
      ⟨.scope :: .block ref name (some store) :: pending, self, state.pushScope self store⟩⟩) :
    state.graph.Carries store (⟨.init name, some ref, [store]⟩ :: active) := by
  have hbegun : .block ref name (some store) ∈ .scope :: .block ref name (some store) :: pending :=
    List.mem_cons_of_mem _ List.mem_cons_self
  exact .init (h.instanced.parents (Or.inr ⟨name, hbegun⟩))
    (h.instanced.nested.declares _ hbegun)

/-- Where the frame of an activation is entered and code is run in it, the current scope is that of
the activation. -/
theorem carries (h : Scene.Staged ⟨active, moment⟩) {activation : Activation}
    (begins : activation.Begins True moment) (opens : activation.frame.Opens Spelled moment)
    (running : Running (.frame :: moment.pending)) :
    moment.state.graph.Carries (moment.state.currentScope moment.self) (activation :: active) := by
  cases begins with
  | branch frame inside => exact .branch frame (h.stands.carried (inside trivial))
  | @turn pending self state framed inside placeholder index =>
      have hself : self < state.engines.size := h.levels.of_pushScope.endsIn.lt
      dsimp only
      rw [State.currentScope_enter _ _ _ hself]
      exact h.carries_turn (inside trivial)
  | native awaited => exact absurd (running.symm.trans awaited) (by simp)
  | @call pending self state ref called awaited seen verbs arguments =>
      have hself : self < state.engines.size := h.levels.of_pushScope.endsIn.lt
      dsimp only
      rw [State.currentScope_enter _ _ _ hself]
      exact h.carries_call awaited (Spelled.unmarked opens.spelled) (seen trivial)
  | @init pending self ref name store state =>
      have hself : self < state.engines.size := h.levels.of_pushScope.endsIn.lt
      dsimp only
      rw [State.currentScope_pushScope _ _ hself]
      exact h.carries_init

end Enter

theorem enter (h : Scene.Staged ⟨active, moment⟩) {activation : Activation}
    (begins : activation.Begins True moment) (opens : activation.frame.Opens Spelled moment) :
    Scene.Staged ⟨activation :: active, moment.enter activation.frame⟩ := by
  have hself := h.ordered.manned.self
  have hfirst : ∀ base ∈ activation.scopes.head?, moment.state.currentScope moment.self = base := by
    cases begins with
    | branch frame inside => exact fun _ hmem => by cases hmem
    | native awaited => exact fun _ hmem => by cases hmem
    | turn inside placeholder index =>
        rintro _ ⟨⟩
        exact State.currentScope_enter _ _ _ h.levels.of_pushScope.endsIn.lt
    | call awaited seen verbs arguments =>
        rintro _ ⟨⟩
        exact State.currentScope_enter _ _ _ h.levels.of_pushScope.endsIn.lt
    | init =>
        rintro _ ⟨⟩
        exact State.currentScope_pushScope _ _ h.levels.of_pushScope.endsIn.lt
  have hbases : ∀ base ∈ bases (activation :: active),
      moment.state.currentScope moment.self = base ∨ base ∈ bases active := by
    intro base hmem
    obtain ⟨other, hother, hbase⟩ := List.mem_filterMap.1 hmem
    rcases List.mem_cons.1 hother with rfl | hother
    · exact Or.inl (hfirst base hbase)
    · exact Or.inr (List.mem_filterMap.2 ⟨other, hother, hbase⟩)
  have hstands : Stands moment.state.graph (activation :: active) (.frame :: moment.pending)
      (moment.state.currentScope moment.self) :=
    { exist := h.stands.exist
      carried := h.carries begins opens
      current := by
        intro framed base hmem
        rcases hbases base hmem with rfl | hmem
        · exact Nat.le_refl _
        · cases framed with
          | frame inner => exact h.stands.current inner base hmem
      made := by rintro _ ⟨⟩ store ⟨⟩
      older := by rintro _ ⟨⟩ }
  have hcount : (activation :: active).length = frames (.frame :: moment.pending) :=
    congrArg (· + 1) h.count
  refine
    { instanced := h.instanced.move opens.move
      count := hcount
      spelled := h.spelled
      based := ?_
      blocks := ?_
      levels := ?_ }
  · intro base hmem
    rcases hbases base hmem with rfl | hmem
    · exact h.stands.exist
    · exact h.based base hmem
  · refine List.forall_mem_cons.2 ⟨?_, h.blocks⟩
    cases begins <;> simp [Frame.isFlow]
  · have hkept : moment.state.Levels (StandsAt moment.state.graph (activation :: active))
        moment.pending moment.self :=
      h.levels.mono_of_suffix fun _ _ _ hlevel hat => hat.enter h.count hlevel
    refine hkept.pushFrame ?_
    rw [State.currentScope_modifyCallStack]
    exact hstands.standsAt hcount

theorem leave {activation : Activation} {pending : List Bracket} {self : EngineId} {state : State}
    (h : Scene.Staged ⟨activation :: active, ⟨.frame :: pending, self, state⟩⟩) :
    Scene.Staged ⟨active, ⟨pending, self, state.modifyCallStack self CallStack.pop⟩⟩ where
  instanced := h.instanced.move .leaveFrame
  count := Nat.succ.inj h.count
  spelled := h.spelled
  based base hbase := h.based base (bases_subset (List.suffix_cons activation active) hbase)
  blocks other hother := h.blocks other (List.mem_cons_of_mem _ hother)
  levels := h.levels.2.mono fun _ _ _ hat => hat.leave

theorem loadMove (h : Scene.Staged ⟨[], moment⟩) (move : LoadMove moment moment')
    (running : Running moment.pending) : Scene.Staged ⟨[], moment'⟩ where
  instanced := h.instanced.loadMove move
  count := by
    have hcount := h.count
    cases move <;> exact hcount
  spelled := move.everyBlock (fun _ => .console) h.spelled
  based _ hbase := by cases hbase
  blocks _ hmem := by cases hmem
  levels := by
    have hcount : frames moment.pending = 0 := h.count.symm
    have hkept : moment.state.Levels (StandsAt moment'.state.graph []) moment.pending
        moment.self := by
      refine h.levels.mono_of_suffix fun level self scope hlevel hat => ?_
      have hframes : frames level = 0 := Nat.le_zero.1 (hcount ▸ frames_le_of_suffix hlevel)
      have hexist := (hat [] List.suffix_rfl hframes.symm).exist
      exact (Stands.of_running (running.of_suffix hcount hlevel)
        (hexist.trans_le move.keepsRoots.scopes)).standsAt hframes.symm
    refine hkept.loadMove move fun opens => ?_
    have hexist := (h.instanced.loadMove move).nested.currentScope_lt
    refine (Stands.of_running (move.running running) hexist).standsAt ?_
    cases move <;> exact hcount.symm

theorem next {scene scene' : Scene} (h : scene.Staged) (next : scene.Next scene') :
    scene'.Staged := by
  cases next with
  | enter begins opens => exact h.enter begins opens
  | leave => exact h.leave
  | move move same running => exact h.move move same running
  | loadMove move running => exact h.loadMove move running

end Scene.Staged

/-- Scenes that a run comes to from a staged one are staged. -/
theorem Scene.Leads.staged {scene scene' : Scene} (h : scene.Leads scene') (start : scene.Staged) :
    scene'.Staged := by
  induction h with
  | refl => exact start
  | tail _ next ih => exact ih.next next

/-! ## Starts -/

/-- The scene from which a step of a script begins. -/
def Scene.start (state : State) : Scene := ⟨[], ⟨[], Script.main, state⟩⟩

/-- Before a step no activation is begun. -/
theorem Scene.Staged.start {state : State} (instanced : Moment.Instanced ⟨[], Script.main, state⟩)
    (spelled : state.graph.EveryBlock fun block => Spelled block.name) :
    (Scene.start state).Staged where
  instanced := instanced
  count := rfl
  spelled := spelled
  based _ hbase := by cases hbase
  blocks _ hmem := by cases hmem
  levels := by
    have hrunning : Running [] := trivial
    refine instanced.nested.ordered.levels.endsIn.mono fun scope hplaced => ?_
    exact (Stands.of_running hrunning hplaced.current.1).standsAt rfl

end Bir
