import Bir.Proofs.Frozen.Evaluation

/-!
# Modules at rest — what loading does to the tops

Between evaluations every engine has its root scope on its stack and nothing else.  An engine that
is being loaded is imported by none yet, so its root may still change; once it is imported, loading
never comes back to it.  This file defines:

* `State.SameLayout` — the same roots, scope stacks and modules;
* `State.Poised` — a state between evaluations, with the engines that are being loaded.

A poised state stays poised, and keeps all tops, when a source is read, the console is declared, an
engine is added, a main program has run, or a module is exposed.
-/

namespace Bir

namespace State

/-- The same engines have the same roots, scope stacks and modules. -/
structure SameLayout (state state' : State) : Prop where
  size : state'.engines.size = state.engines.size
  uses : ∀ id, (state'.engine id).uses = (state.engine id).uses
  root : ∀ id, (state'.engine id).root = (state.engine id).root
  scopeStack : ∀ id, (state'.engine id).scopeStack = (state.engine id).scopeStack

/-- A state between evaluations.  Known modules are imported, and the engines of a chain are being
loaded: nobody has imported them yet. -/
structure Poised (known : EngineId → Prop) (chain : List EngineId) (state : State) : Prop where
  sealed : state.Sealed
  sound : state.Sound
  imported : ∀ module, known module → state.Exposed module
  rested : ∀ id < state.engines.size,
    (state.engine id).scopeStack = #[(state.engine id).root]
  distinct : ∀ id < state.engines.size, ∀ other < state.engines.size,
    (state.engine id).root = (state.engine other).root → id = other
  loading : ∀ id ∈ chain, id < state.engines.size ∧ ¬ state.Exposed id
  nodup : chain.Nodup

namespace SameLayout

variable {state state' : State}

theorem of_engines (h : state'.engines = state.engines) : SameLayout state state' where
  size := by rw [h]
  uses id := by rw [engine_congr h]
  root id := by rw [engine_congr h]
  scopeStack id := by rw [engine_congr h]

/-- A program may be read into an engine. -/
theorem read (self : EngineId) (program : Program) :
    SameLayout state (state.modifyEngine self fun engine => { engine with program }) where
  size := size_modifyEngine state self _
  uses := engine_modifyEngine_congr state self Engine.uses (by intro _; rfl)
  root := engine_modifyEngine_congr state self Engine.root (by intro _; rfl)
  scopeStack := engine_modifyEngine_congr state self Engine.scopeStack (by intro _; rfl)

variable (h : SameLayout state state')
include h

theorem exposed_iff (module : EngineId) : state'.Exposed module ↔ state.Exposed module := by
  unfold Exposed
  simp only [h.uses]

theorem isTop_iff (scope : ScopeId) : state'.IsTop scope ↔ state.IsTop scope := by
  unfold IsTop
  simp only [h.exposed_iff, h.root]

theorem aside_iff (size : Nat) (scope : ScopeId) :
    state'.Aside size scope ↔ state.Aside size scope := by
  unfold Aside
  simp only [h.size, h.root]

/-- Imported modules keep the tops that a change of scopes spares. -/
theorem keeps (spares : state.graph.Spares state.IsTop state'.graph) : state.Keeps state' where
  exposed module hexposed := (h.exposed_iff module).2 hexposed
  top module hexposed := by
    unfold top
    rw [h.root]
    exact spares.contents _ ⟨module, hexposed, rfl⟩

end SameLayout

namespace Poised

variable {known : EngineId → Prop} {chain : List EngineId} {state state' : State}

/-- Engines may be given up. -/
theorem tail {id : EngineId} (h : state.Poised known (id :: chain)) : state.Poised known chain :=
  { h with
    loading := fun other hmem => h.loading other (List.mem_cons_of_mem id hmem)
    nodup := h.nodup.of_cons }

/-! ## Engines that are being loaded -/

/-- No engine shares the root of one that is imported. -/
theorem root_ne {module id : EngineId} (h : state.Poised known chain)
    (exposed : state.Exposed module) (exists' : id < state.engines.size) (other : module ≠ id) :
    (state.engine module).root ≠ (state.engine id).root := by
  intro hroot
  exact other (h.distinct module (h.sealed.lt_of_exposed exposed) id exists' hroot)

theorem outside_root {self : EngineId} (h : state.Poised known chain) (mem : self ∈ chain) :
    state.Outside state.graph.scopes.size (state.engine self).root := by
  rcases h.loading self mem with ⟨hlt, hhidden⟩
  refine ⟨h.sealed.roots self hlt, ?_⟩
  rintro ⟨module, hexposed, hroot⟩
  have hne : module ≠ self := by
    rintro rfl
    exact hhidden hexposed
  exact h.root_ne hexposed hlt hne hroot

theorem endsIn {self : EngineId} (h : state.Poised known chain) (mem : self ∈ chain) :
    EndsIn (state.Outside state.graph.scopes.size) self state := by
  have hstack := h.rested self (h.loading self mem).1
  exact ⟨(state.engine self).root, by simp [hstack], h.outside_root mem⟩

theorem currentScope {self : EngineId} (h : state.Poised known chain)
    (exists' : self < state.engines.size) :
    state.currentScope self = (state.engine self).root := by
  simp [State.currentScope, Engine.currentScope, h.rested self exists']

/-! ## Changes that keep the layout -/

theorem of_sameLayout (h : state.Poised known chain) (same : SameLayout state state')
    (spares : state.graph.Spares state.IsTop state'.graph)
    (stores : state'.graph.EveryBlock (Block.StoredAside state state'.graph.scopes.size))
    (sound : state'.Sound) : state'.Poised known chain where
  sealed :=
    { exist := (SameUses.mk same.size same.uses).usesExist h.sealed.exist
      guards := by
        intro scope htop
        exact spares.guards h.sealed.guards scope ((same.isTop_iff scope).1 htop)
      roots := by
        intro id hid
        rw [same.size] at hid
        rw [same.root]
        exact Nat.lt_of_lt_of_le (h.sealed.roots id hid) spares.size
      stores := stores.mono fun block hblock store hstore =>
        (same.aside_iff _ store).2 (hblock store hstore) }
  sound := sound
  imported module hknown := (same.exposed_iff module).2 (h.imported module hknown)
  rested id hid := by
    rw [same.size] at hid
    rw [same.scopeStack, same.root]
    exact h.rested id hid
  distinct id hid other hother := by
    rw [same.size] at hid hother
    rw [same.root, same.root]
    exact h.distinct id hid other hother
  loading id hmem := by
    rw [same.size, same.exposed_iff]
    exact h.loading id hmem
  nodup := h.nodup

/-- The native block is declared in the root of an engine that is being loaded. -/
theorem declareConsole (h : state.Poised known chain) {self : EngineId} (mem : self ∈ chain) :
    let state' := state.modifyScope (state.engine self).root fun root =>
      root.addBlock (.native self Console.blockName)
    state.Keeps state' ∧ state'.Poised known chain := by
  intro state'
  have hspares : state.graph.Spares state.IsTop state'.graph :=
    .modify (h.outside_root mem).2 fun _ _ hdeclares => Scope.declares_addBlock hdeclares _
  have hstores : state'.graph.EveryBlock
      (Block.StoredAside state state'.graph.scopes.size) := by
    rw [graph_modifyScope, ScopeGraph.size_modify]
    refine ScopeGraph.EveryBlock.modify h.sealed.stores _ fun scope block hmem => ?_
    rcases List.mem_append.1 hmem with hold | hnew
    · exact Or.inl hold
    · rw [List.mem_singleton.1 hnew]
      exact Or.inr fun store hstore => by cases hstore
  have hmove : LoadMove ⟨[], self, state⟩ ⟨[], self, state'⟩ := .native
  exact ⟨SameLayout.keeps (.of_engines rfl) hspares,
    h.of_sameLayout (.of_engines rfl) hspares hstores (hmove.sound h.sound)⟩

/-- A program is read from the text of an engine. -/
theorem readProgram (h : state.Poised known chain) {self : EngineId} {program : Program}
    (parsed : Program.ofSource (state.engine self).content = .ok program) :
    let state' := state.modifyEngine self fun engine => { engine with program }
    state.Keeps state' ∧ state'.Poised known chain := by
  intro state'
  have hsame : SameLayout state state' := .read self program
  have hmove : LoadMove ⟨[], self, state⟩ ⟨[], self, state'⟩ := .read parsed
  exact ⟨hsame.keeps (.refl _),
    h.of_sameLayout hsame (.refl _) h.sealed.stores (hmove.sound h.sound)⟩

/-- The imports that are being loaded are noted. -/
theorem withLoading (h : state.Poised known chain) (loading : List FileIdentity) :
    state.Keeps { state with loading } ∧ Poised known chain { state with loading } := by
  have hsame : SameLayout state { state with loading } := .of_engines rfl
  exact ⟨hsame.keeps (.refl _),
    h.of_sameLayout hsame (.refl _) h.sealed.stores ⟨h.sound.blocks, h.sound.programs⟩⟩

/-- The main program of an engine that is being loaded has run. -/
theorem runMain (h : state.Poised known chain) {self : EngineId}
    (ended : Moment.Sealed state ⟨[], self, state'⟩) (sound : state'.Sound)
    (engines : state'.engines = state.engines) :
    state.Keeps state' ∧ state'.Poised known chain :=
  ⟨ended.keeps, h.of_sameLayout (.of_engines engines) ended.spares ended.stores sound⟩

end Poised

/-! ## Added engines -/

section AddEngine

variable {state : State} (path : Path) (content : String)

theorem root_addEngine :
    ((state.addEngine path content).1.engine state.engines.size).root =
      state.graph.scopes.size := by
  simp [engine_addEngine]

theorem exposed_addEngine (module : EngineId) :
    (state.addEngine path content).1.Exposed module ↔ state.Exposed module := by
  unfold Exposed
  simp only [uses_addEngine]

namespace Sealed

variable (h : state.Sealed)
include h

theorem keeps_addEngine : state.Keeps (state.addEngine path content).1 where
  exposed module hexposed := (exposed_addEngine path content module).2 hexposed
  top module hexposed := by
    have hmodule := h.lt_of_exposed hexposed
    have hroot := h.roots module hmodule
    unfold top
    rw [engine_addEngine_of_lt path content hmodule, graph_addEngine,
      state.graph.get_add_of_lt {} hroot]

/-- A root that is added is a new scope, so it is the store of no block. -/
theorem addEngine : (state.addEngine path content).1.Sealed where
  exist := h.exist.addEngine path content
  guards := by
    rintro scope ⟨module, hmodule, rfl⟩
    have hexposed := (exposed_addEngine path content module).1 hmodule
    have hlt := h.lt_of_exposed hexposed
    rw [engine_addEngine_of_lt path content hlt, graph_addEngine,
      state.graph.get_add_of_lt {} (h.roots module hlt)]
    exact h.guards _ ⟨module, hexposed, rfl⟩
  roots id hid := by
    rw [graph_addEngine, ScopeGraph.size_add]
    rcases lt_addEngine path content hid with hlt | rfl
    · rw [engine_addEngine_of_lt path content hlt]
      exact Nat.lt_succ_of_lt (h.roots id hlt)
    · rw [root_addEngine]
      exact Nat.lt_succ_self _
  stores := by
    rw [graph_addEngine, ScopeGraph.size_add]
    refine ScopeGraph.EveryBlock.add ?_ rfl
    refine h.stores.mono fun block hblock store hstore => ?_
    rcases hblock store hstore with ⟨hlt, haside⟩
    refine ⟨Nat.lt_succ_of_lt hlt, fun id hid => ?_⟩
    rcases lt_addEngine path content hid with hid | rfl
    · rw [engine_addEngine_of_lt path content hid]
      exact haside id hid
    · rw [root_addEngine]
      exact (Nat.ne_of_lt hlt).symm

end Sealed

/-- An engine is added, with a root of its own, and is being loaded from then on. -/
theorem Poised.addEngine {known : EngineId → Prop} {chain : List EngineId}
    (h : state.Poised known chain) :
    state.Keeps (state.addEngine path content).1 ∧
      (state.addEngine path content).1.Poised known (state.engines.size :: chain) := by
  have hdiffer : ∀ id < state.engines.size,
      ((state.addEngine path content).1.engine id).root ≠
        ((state.addEngine path content).1.engine state.engines.size).root := by
    intro id hid
    rw [engine_addEngine_of_lt path content hid, root_addEngine]
    exact Nat.ne_of_lt (h.sealed.roots id hid)
  have hmove : LoadMove ⟨[], 0, state⟩
      ⟨[.module 0], state.engines.size, (state.addEngine path content).1⟩ :=
    .openModule path content
  refine ⟨h.sealed.keeps_addEngine path content, ?_⟩
  refine
    { sealed := h.sealed.addEngine path content
      sound := hmove.sound h.sound
      imported := fun module hknown =>
        (exposed_addEngine path content module).2 (h.imported module hknown)
      rested := ?_
      distinct := ?_
      loading := ?_
      nodup := ?_ }
  · intro id hid
    rcases lt_addEngine path content hid with hlt | rfl
    · rw [engine_addEngine_of_lt path content hlt]
      exact h.rested id hlt
    · simp [engine_addEngine]
  · intro id hid other hother hroots
    rcases lt_addEngine path content hid with hid | rfl
    · rcases lt_addEngine path content hother with hother | rfl
      · rw [engine_addEngine_of_lt path content hid,
          engine_addEngine_of_lt path content hother] at hroots
        exact h.distinct id hid other hother hroots
      · exact absurd hroots (hdiffer id hid)
    · rcases lt_addEngine path content hother with hother | rfl
      · exact absurd hroots.symm (hdiffer other hother)
      · rfl
  · intro id hmem
    rw [size_addEngine, exposed_addEngine]
    rcases List.mem_cons.1 hmem with rfl | hmem
    · refine ⟨Nat.lt_succ_self _, fun hmodule => ?_⟩
      exact Nat.lt_irrefl _ (h.sealed.lt_of_exposed hmodule)
    · rcases h.loading id hmem with ⟨hlt, hhidden⟩
      exact ⟨Nat.lt_succ_of_lt hlt, hhidden⟩
  · refine List.nodup_cons.2 ⟨fun hmem => ?_, h.nodup⟩
    exact Nat.lt_irrefl _ (h.loading _ hmem).1

end AddEngine

/-! ## Exposed modules -/

section Expose

variable {state : State} {importer module : EngineId}

theorem root_expose (id : EngineId) :
    ((state.expose importer module).engine id).root = (state.engine id).root :=
  engine_expose_congr Engine.root (by intro _ _; rfl) id

theorem exposed_expose (exists' : importer < state.engines.size) (other : EngineId) :
    (state.expose importer module).Exposed other ↔ state.Exposed other ∨ other = module := by
  constructor
  · rintro ⟨id, hmem⟩
    rcases mem_uses_expose hmem with hold | hnew
    · exact Or.inl ⟨id, hold⟩
    · exact Or.inr hnew
  · rintro (⟨id, hmem⟩ | rfl)
    · refine ⟨id, ?_⟩
      rw [engine_expose]
      split
      · exact List.mem_append_left _ hmem
      · exact hmem
    · exact ⟨importer, by simp [engine_expose, exists']⟩

/-- Scopes other than the roots of the module and of its importer are left as they are. -/
theorem get_expose_ne {id : ScopeId} (first : id ≠ state.currentScope module)
    (second : id ≠ (state.engine importer).root) :
    (state.expose importer module).graph.get id = state.graph.get id := by
  rw [graph_expose, ScopeGraph.get_modify_ne _ _ second.symm,
    ScopeGraph.get_modify_ne _ _ first.symm]

/-- The top of the module refuses writes, and so does every scope that did. -/
theorem immutable_expose {id : ScopeId}
    (h : id = state.currentScope module ∧ id < state.graph.scopes.size ∨
      (state.graph.get id).immutable = true) :
    ((state.expose importer module).graph.get id).immutable = true := by
  rw [graph_expose, ScopeGraph.get_modify_congr _ Scope.immutable _ id (by intro _; rfl),
    ScopeGraph.get_modify]
  by_cases htop : state.currentScope module = id ∧ id < state.graph.scopes.size
  · simp [htop]
  · rcases h with ⟨rfl, hlt⟩ | himmutable
    · exact absurd ⟨rfl, hlt⟩ htop
    · simp [htop, himmutable]

theorem Sealed.expose (h : state.Sealed) (hmodule : module < state.engines.size)
    (himporter : importer < state.engines.size)
    (current : state.currentScope module = (state.engine module).root) :
    (state.expose importer module).Sealed := by
  have hscopes : (state.expose importer module).graph.scopes.size = state.graph.scopes.size := by
    simp [graph_expose]
  have hexposed : ∀ other, (state.expose importer module).Exposed other ↔
      state.Exposed other ∨ other = module := exposed_expose himporter
  refine ⟨h.exist.expose hmodule, ?_, ?_, ?_⟩
  · rintro scope ⟨other, hother, rfl⟩
    apply immutable_expose
    rw [root_expose]
    rcases (hexposed other).1 hother with hold | rfl
    · exact Or.inr (h.guards _ ⟨other, hold, rfl⟩)
    · exact Or.inl ⟨current.symm, h.roots other hmodule⟩
  · intro id hid
    rw [size_expose] at hid
    rw [root_expose, hscopes]
    exact h.roots id hid
  · have hblocks : (state.expose importer module).graph.EveryBlock
        (Block.StoredAside state state.graph.scopes.size) := by
      rw [graph_expose]
      refine ScopeGraph.EveryBlock.modify ?_ _ fun _ _ => Or.inl
      exact ScopeGraph.EveryBlock.modify h.stores _ fun _ _ => Or.inl
    refine hblocks.mono fun block hblock store hstore => ?_
    rcases hblock store hstore with ⟨hlt, haside⟩
    refine ⟨hscopes ▸ hlt, fun id hid => ?_⟩
    rw [size_expose] at hid
    rw [root_expose]
    exact haside id hid

/-- A module is imported when it is no longer loaded: from now on its root is a top. -/
theorem Poised.expose {known : EngineId → Prop} {chain : List EngineId}
    (h : state.Poised known (module :: importer :: chain)) :
    state.Keeps (state.expose importer module) ∧
      (state.expose importer module).Poised known (importer :: chain) := by
  rcases h.loading module (by simp) with ⟨hmodule, hhidden⟩
  rcases h.loading importer (by simp) with ⟨himporter, hunused⟩
  have hcurrent := h.currentScope hmodule
  have hexposed : ∀ other, (state.expose importer module).Exposed other ↔
      state.Exposed other ∨ other = module := exposed_expose himporter
  have hkeeps : state.Keeps (state.expose importer module) := by
    refine ⟨fun other hother => (hexposed other).2 (Or.inl hother), ?_⟩
    intro other hother
    -- Neither of the two roots that change is a top yet.
    have hfirst : (state.engine other).root ≠ state.currentScope module := by
      rw [hcurrent]
      refine h.root_ne hother hmodule ?_
      rintro rfl
      exact hhidden hother
    have hsecond : (state.engine other).root ≠ (state.engine importer).root := by
      refine h.root_ne hother himporter ?_
      rintro rfl
      exact hunused hother
    unfold top
    rw [root_expose, get_expose_ne hfirst hsecond]
  have hmove : LoadMove ⟨[.module importer], module, state⟩
      ⟨[], importer, state.expose importer module⟩ := .expose
  refine ⟨hkeeps, ?_⟩
  refine
    { sealed := h.sealed.expose hmodule himporter hcurrent
      sound := hmove.sound h.sound
      imported := fun other hknown => hkeeps.exposed other (h.imported other hknown)
      rested := ?_
      distinct := ?_
      loading := ?_
      nodup := h.tail.nodup }
  · intro id hid
    rw [size_expose] at hid
    rw [engine_expose_congr Engine.scopeStack (by intro _ _; rfl), root_expose]
    exact h.rested id hid
  · intro id hid other hother
    rw [size_expose] at hid hother
    rw [root_expose, root_expose]
    exact h.distinct id hid other hother
  · intro id hmem
    rcases h.loading id (List.mem_cons_of_mem _ hmem) with ⟨hlt, hold⟩
    refine ⟨(state.size_expose importer module).symm ▸ hlt, fun hid => ?_⟩
    rcases (hexposed id).1 hid with hid | rfl
    · exact hold hid
    · exact (List.nodup_cons.1 h.nodup).1 hmem

end Expose

end State

end Bir
