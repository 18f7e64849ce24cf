import Bir.Proofs.Frozen.Modules
import Bir.Proofs.Instances
import Bir.Proofs.Routing.Control
import Bir.Proofs.Routing.Tree

/-!
# Owners — whose blocks stand in a root scope, and when they count as foreign

A block belongs to the engine that declares it, the flag of a root scope is raised when its module is
exposed, and it is lowered while the module runs a call that was lent to it.  This file defines:

* `State.Foreign` — a scope is the root of a module that is imported and has borrowed nothing;
* `State.AtHome` — where an engine runs statements, no other engine has its root;
* `Moment.Routed` — at every moment of a run owners, flags and trees are as they should be.

`Moment.Routed.move` and `Moment.Routed.loadMove` are what this is for: a loan finds the flag of its
module raised, and nothing but its end raises it again.
-/

namespace Bir

namespace State

/-- A scope is the root scope of a module that is imported and runs no call that was lent to it. -/
def Foreign (state : State) (borrowing : List EngineId) (scope : ScopeId) : Prop :=
  ∃ module, state.Exposed module ∧ (state.engine module).root = scope ∧ module ∉ borrowing

/-- A scope in which an engine runs statements is the root of no other engine. -/
def AtHome (state : State) (pending : List Bracket) (self : EngineId) (scope : ScopeId) : Prop :=
  Framed pending → scope < state.graph.scopes.size ∧
    ∀ id < state.engines.size, (state.engine id).root = scope → id = self

variable {state state' : State}

theorem AtHome.mono {pending : List Bracket} {self : EngineId} {scope : ScopeId}
    (h : state.AtHome pending self scope)
    (scopes : state.graph.scopes.size ≤ state'.graph.scopes.size)
    (roots : ∀ id < state'.engines.size,
      id < state.engines.size ∧ (state'.engine id).root = (state.engine id).root ∨
        state.graph.scopes.size ≤ (state'.engine id).root) :
    state'.AtHome pending self scope := by
  intro framed
  obtain ⟨hlt, hown⟩ := h framed
  refine ⟨hlt.trans_le scopes, fun id hid hroot => ?_⟩
  rcases roots id hid with ⟨hold, hsame⟩ | hnew
  · exact hown id hold (hsame.symm.trans hroot)
  · exact absurd hlt (Nat.not_lt_of_le (hroot ▸ hnew))

/-! ## Trees of modules -/

namespace Forest

theorem of_uses (h : state.Forest) (same : ∀ id, (state'.engine id).uses = (state.engine id).uses) :
    state'.Forest := by
  have huses : ∀ {id used}, state'.Uses id used → state.Uses id used := by
    intro id used huses
    rwa [Uses, same] at huses
  refine ⟨fun h' => h.younger (huses h'), fun h' h'' => h.single (huses h') (huses h''), fun id => ?_⟩
  rw [same]
  exact h.nodup id

/-- A module that no engine uses may be hung under one that is older. -/
theorem expose (h : state.Forest) {importer module : EngineId} (older : importer < module)
    (hidden : ¬ state.Exposed module) : (state.expose importer module).Forest := by
  have huses : ∀ {id used}, (state.expose importer module).Uses id used →
      state.Uses id used ∨ id = importer ∧ used = module := by
    intro id used huses
    rw [Uses, engine_expose] at huses
    split at huses
    · rename_i hid
      rcases List.mem_append.1 huses with hold | hnew
      · exact Or.inl hold
      · exact Or.inr ⟨hid.1.symm, List.mem_singleton.1 hnew⟩
    · exact Or.inl huses
  refine ⟨fun h' => ?_, fun {id other used} h' h'' => ?_, fun id => ?_⟩
  · rcases huses h' with hold | ⟨rfl, rfl⟩
    · exact h.younger hold
    · exact older
  · rcases huses h' with hold | ⟨rfl, rfl⟩ <;> rcases huses h'' with hold' | ⟨rfl, hmodule⟩
    · exact h.single hold hold'
    · exact absurd ⟨id, hmodule ▸ hold⟩ hidden
    · exact absurd ⟨other, hold'⟩ hidden
    · rfl
  · rw [engine_expose]
    split
    · refine List.nodup_append.2 ⟨h.nodup id, List.nodup_singleton _, fun used hused other hother => ?_⟩
      rintro rfl
      exact hidden ⟨id, List.mem_singleton.1 hother ▸ hused⟩
    · exact h.nodup id

end Forest

end State

/-! ## Routed moments -/

/-- At every moment of a run, the engine in control is younger than those that wait, and all others
are at rest; root scopes have blocks of their engines only; and a flag is raised just where a module
is imported and has borrowed nothing. -/
structure Moment.Routed (moment : Moment) : Prop where
  instanced : moment.Instanced
  forest : moment.state.Forest
  distinct : ∀ id < moment.state.engines.size, ∀ other < moment.state.engines.size,
    (moment.state.engine id).root = (moment.state.engine other).root → id = other
  hidden : ∀ module ∈ inProgress moment.pending moment.self, ¬ moment.state.Exposed module
  descending : (control moment.pending moment.self).Pairwise (· > ·)
  settled : ∀ id < moment.state.engines.size,
    (moment.unwound.engine id).scopeStack = #[(moment.state.engine id).root]
  lent : ∀ loan ∈ loans moment.pending moment.self,
    loan.1.top = (moment.state.engine loan.2).root ∧ loan.1.wasForeign = true ∧
      moment.state.Exposed loan.2
  owned : ∀ id < moment.state.engines.size,
    ∀ owner ∈ (moment.state.graph.get (moment.state.engine id).root).blocks.map Block.owner,
      owner = id
  flagged : ∀ scope, (moment.state.graph.get scope).foreign = true ↔
    moment.state.Foreign (borrowers moment.pending moment.self) scope
  levels : moment.state.Levels moment.state.AtHome moment.pending moment.self

theorem Block.stateless_owner : Block.Stateless Block.owner := fun _ _ _ => rfl

namespace Moment.Routed

variable {moment moment' : Moment}

theorem manned (h : moment.Routed) : moment.Manned := h.instanced.nested.ordered.manned

theorem roots (h : moment.Routed) : ∀ id < moment.state.engines.size,
    (moment.state.engine id).root < moment.state.graph.scopes.size :=
  h.instanced.nested.ordered.roots

theorem lt_of_exposed (h : moment.Routed) {module : EngineId} (exposed : moment.state.Exposed module) :
    module < moment.state.engines.size := by
  obtain ⟨importer, hmem⟩ := exposed
  exact h.manned.uses importer module hmem

theorem lt_of_mem_control (h : moment.Routed) {id : EngineId}
    (hmem : id ∈ control moment.pending moment.self) : id < moment.state.engines.size := by
  rcases List.mem_cons.1 hmem with rfl | hwaits
  · exact h.manned.self
  · obtain ⟨bracket, hbracket, hwaiting⟩ := List.mem_filterMap.1 hwaits
    exact h.manned.waiting bracket hbracket id hwaiting

/-- An engine that is neither in control nor waits is in its root scope. -/
theorem currentScope_of_not_mem (h : moment.Routed) {id : EngineId}
    (exists' : id < moment.state.engines.size)
    (aside : id ∉ control moment.pending moment.self) :
    moment.state.currentScope id = (moment.state.engine id).root := by
  have hstack := h.settled id exists'
  rw [unwound, State.engine_unwind_of_not_mem aside] at hstack
  simp [State.currentScope, Engine.currentScope, hstack]

/-- An engine that is younger than the one in control is neither in control nor waits. -/
theorem not_mem_control (h : moment.Routed) {id : EngineId} (younger : moment.self < id) :
    id ∉ control moment.pending moment.self := by
  intro hmem
  rcases List.mem_cons.1 hmem with rfl | hwaits
  · exact absurd younger (Nat.lt_irrefl _)
  · exact absurd younger (Nat.lt_asymm ((List.pairwise_cons.1 h.descending).1 id hwaits))

/-- A scope is foreign to one who borrows besides others if it is to these, and is not its root. -/
theorem foreign_cons (h : moment.Routed) {owner : EngineId} (exposed : moment.state.Exposed owner)
    (borrowing : List EngineId) (scope : ScopeId) :
    moment.state.Foreign (owner :: borrowing) scope ↔
      moment.state.Foreign borrowing scope ∧ (moment.state.engine owner).root ≠ scope := by
  constructor
  · rintro ⟨module, hmodule, rfl, haside⟩
    rw [List.mem_cons, not_or] at haside
    refine ⟨⟨module, hmodule, rfl, haside.2⟩, fun hroot => haside.1 ?_⟩
    exact h.distinct module (h.lt_of_exposed hmodule) owner (h.lt_of_exposed exposed) hroot.symm
  · rintro ⟨⟨module, hmodule, rfl, haside⟩, hother⟩
    refine ⟨module, hmodule, rfl, fun hmem => ?_⟩
    rcases List.mem_cons.1 hmem with rfl | hmem
    · exact hother rfl
    · exact haside hmem

end Moment.Routed

/-! ## Moves -/

/-- The flags of scopes stay as they are in a move after which the same engines borrow. -/
theorem Move.foreign {allowed : EngineId → Statement → Prop} {moment moment' : Moment}
    (move : Move allowed moment moment')
    (same : borrowers moment'.pending moment'.self = borrowers moment.pending moment.self)
    (scope : ScopeId) :
    (moment'.state.graph.get scope).foreign = (moment.state.graph.get scope).foreign := by
  have hquiet : ∀ {state' : State}, State.Undisturbed moment.state state' →
      (state'.graph.get scope).foreign = (moment.state.graph.get scope).foreign :=
    fun h => h.foreign scope
  cases move with
  | write name value => exact hquiet (.updateBinding _ name value)
  | slotPush => exact hquiet (.modifyScope _ fun _ => rfl)
  | slotWrite index value => exact hquiet (.updateBinding _ (Slot.name index) value)
  | slotErase index => exact hquiet (.delete _ (Slot.name index))
  | closeBinding => exact hquiet (.modifyScope _ fun _ => rfl)
  | openBlock => exact hquiet (.modifyScope _ fun _ => rfl)
  | openImplementing => exact hquiet (.modifyScope _ fun _ => rfl)
  | makeStore => exact hquiet (.addScope rfl)
  | attachStore => exact hquiet (.attachStore _ _)
  | enterCall => exact (State.Undisturbed.addScope (by rfl)).foreign scope
  | enterTurn => exact (State.Undisturbed.addScope (by rfl)).foreign scope
  | closeBlock => exact hquiet (.markInitialized _ _ _)
  | @closeSeeded pending self ref name store state values =>
      have hseeded : State.Undisturbed state (state.modifyScope store (Declaration.seed values)) :=
        .modifyScope store fun _ => rfl
      exact hquiet (hseeded.trans (.markInitialized _ _ _))
  | lend => exact absurd same (List.cons_ne_self _ _)
  | giveBack => exact absurd same.symm (List.cons_ne_self _ _)
  | _ => rfl

namespace Moment.Routed

variable {moment moment' : Moment}

section Move

variable (h : moment.Routed) (move : Move (fun _ statement => statement.Sound) moment moment')
include h

omit h in
include move in
theorem exposed_move (module : EngineId) :
    moment'.state.Exposed module ↔ moment.state.Exposed module := by
  unfold State.Exposed
  simp only [move.sameModules.uses]

omit h in
include move in
theorem foreign_move (borrowing : List EngineId) (scope : ScopeId) :
    moment'.state.Foreign borrowing scope ↔ moment.state.Foreign borrowing scope := by
  unfold State.Foreign
  simp only [exposed_move move, move.sameModules.root]

/-- Whoever borrows is imported and younger than the engine in control, and its root scope is the one
whose flag is lowered. -/
theorem lends {found : FoundBlock} (lent : Call.isLent moment.state moment.self found = true) :
    let owner := (moment.state.graph.block found.block).owner
    moment.self < owner ∧ moment.state.Exposed owner ∧
      (Action.Loan.take moment.self owner moment.state).1.top =
        (moment.state.engine owner).root := by
  intro owner
  have howner : owner < moment.state.engines.size := h.manned.uses.lt_of_isLent lent
  simp only [Call.isLent, Bool.and_eq_true] at lent
  have hbelow := State.transGen_of_usesWithin lent.2
  obtain ⟨importer, -, huses⟩ := Relation.TransGen.tail'_iff.1 hbelow
  have hyounger := h.forest.lt_of_transGen hbelow
  refine ⟨hyounger, ⟨importer, huses⟩, ?_⟩
  rw [Action.Loan.take_top, ← h.currentScope_of_not_mem howner (h.not_mem_control hyounger)]
  exact moment.state.engine_modifyEngine_congr moment.self Engine.currentScope (by intro _; rfl) owner

include move

theorem distinct_move : ∀ id < moment'.state.engines.size, ∀ other < moment'.state.engines.size,
    (moment'.state.engine id).root = (moment'.state.engine other).root → id = other := by
  have hsame := move.sameModules
  intro id hid other hother
  rw [hsame.size] at hid hother
  rw [hsame.root, hsame.root]
  exact h.distinct id hid other hother

theorem hidden_move : ∀ module ∈ inProgress moment'.pending moment'.self,
    ¬ moment'.state.Exposed module := by
  intro module hmem
  rw [move.inProgress] at hmem
  rw [exposed_move move]
  exact h.hidden module hmem

theorem descending_move : (control moment'.pending moment'.self).Pairwise (· > ·) := by
  cases move with
  | lend owned lent =>
      refine List.pairwise_cons.2 ⟨fun id hmem => ?_, h.descending⟩
      have hyounger := owned ▸ (h.lends lent).1
      rcases List.mem_cons.1 hmem with rfl | hwaits
      · exact hyounger
      · exact Nat.lt_trans ((List.pairwise_cons.1 h.descending).1 id hwaits) hyounger
  | giveBack => exact (List.pairwise_cons.1 h.descending).2
  | _ => exact h.descending

theorem settled_move : ∀ id < moment'.state.engines.size,
    (moment'.unwound.engine id).scopeStack = #[(moment'.state.engine id).root] := by
  have hsame := move.sameModules
  have hfits : LoansFit moment.pending moment.state.graph := by
    intro terms caller hmem _
    obtain ⟨owner, howner⟩ := mem_loans hmem moment.self
    obtain ⟨htop, -, hexposed⟩ := h.lent _ howner
    rw [htop]
    exact h.roots owner (h.lt_of_exposed hexposed)
  have hunwound := move.unwound h.manned.uses hfits
  intro id hid
  rw [hsame.size] at hid
  rw [State.engine_congr hunwound.engines, hsame.root]
  exact h.settled id hid

theorem lent_move : ∀ loan ∈ loans moment'.pending moment'.self,
    loan.1.top = (moment'.state.engine loan.2).root ∧ loan.1.wasForeign = true ∧
      moment'.state.Exposed loan.2 := by
  have hkept : ∀ loan ∈ loans moment.pending moment.self,
      loan.1.top = (moment'.state.engine loan.2).root ∧ loan.1.wasForeign = true ∧
        moment'.state.Exposed loan.2 := by
    intro loan hmem
    rw [move.sameModules.root, exposed_move move]
    exact h.lent loan hmem
  have hsame := move.sameModules
  have hexposed := exposed_move move
  cases move with
  | @lend pending self state found owner owned lent =>
      subst owned
      obtain ⟨hyounger, howner, htop⟩ := h.lends lent
      rintro loan hmem
      rcases List.mem_cons.1 hmem with rfl | hold
      · refine ⟨?_, ?_, (hexposed _).2 howner⟩
        · rw [hsame.root]
          exact htop
        · -- The flag was raised, as the engine had not borrowed yet.
          rw [Action.Loan.take_wasForeign, htop]
          refine (h.flagged _).2 ⟨_, howner, rfl, fun hborrows => ?_⟩
          exact h.not_mem_control hyounger (borrowers_subset hborrows)
      · exact hkept loan hold
  | giveBack => exact fun loan hmem => hkept loan (List.mem_cons_of_mem _ hmem)
  | _ => exact hkept

theorem owned_move : ∀ id < moment'.state.engines.size,
    ∀ owner ∈ (moment'.state.graph.get (moment'.state.engine id).root).blocks.map Block.owner,
      owner = id := by
  have hsame := move.sameModules
  intro id hid owner hmem
  rw [hsame.size] at hid
  rw [hsame.root] at hmem
  rcases move.map_blocks Block.stateless_owner (moment.state.engine id).root with
    hkept | ⟨⟨hframed, hcurrent⟩, block, howner, hadded⟩
  · exact h.owned id hid owner (hkept ▸ hmem)
  · rw [hadded] at hmem
    rcases List.mem_append.1 hmem with hold | hnew
    · exact h.owned id hid owner hold
    -- Statements run in the root of an engine only if that engine is in control.
    · have hself := (h.levels.current hframed).2 id hid hcurrent
      rw [List.mem_singleton.1 hnew, howner, hself]

theorem flagged_move (scope : ScopeId) : (moment'.state.graph.get scope).foreign = true ↔
    moment'.state.Foreign (borrowers moment'.pending moment'.self) scope := by
  have hflag := h.flagged scope
  rw [foreign_move move]
  have hquiet : borrowers moment'.pending moment'.self = borrowers moment.pending moment.self →
      ((moment'.state.graph.get scope).foreign = true ↔
        moment.state.Foreign (borrowers moment'.pending moment'.self) scope) := by
    intro hsame
    rw [move.foreign hsame, hsame]
    exact hflag
  cases move with
  | @lend pending self state found owner owned lent =>
      subst owned
      obtain ⟨hyounger, howner, htop⟩ := h.lends lent
      have hroot := h.roots _ (h.lt_of_exposed howner)
      rw [borrowers_loan, h.foreign_cons howner, Action.Loan.graph_take, htop,
        ScopeGraph.get_modify]
      by_cases hscope : (state.engine (state.graph.block found.block).owner).root = scope
      · subst hscope
        simp [hroot]
      · simpa [hscope] using hflag
  | @giveBack pending owner state terms caller =>
      obtain ⟨htop, hforeign, howner⟩ := h.lent _ List.mem_cons_self
      have hroot := h.roots _ (h.lt_of_exposed howner)
      rw [borrowers_loan, h.foreign_cons howner] at hflag
      rw [Action.Loan.graph_giveBack, htop, hforeign, ScopeGraph.get_modify]
      by_cases hscope : (state.engine owner).root = scope
      · subst hscope
        have hback : owner ∉ borrowers pending caller := fun hborrows =>
          Nat.lt_irrefl _ ((List.pairwise_cons.1 h.descending).1 owner (borrowers_subset hborrows))
        simpa [hroot] using ⟨owner, howner, rfl, hback⟩
      · simpa [hscope] using hflag
  | _ => exact hquiet rfl

theorem levels_move :
    moment'.state.Levels moment'.state.AtHome moment'.pending moment'.self := by
  have hsame := move.sameModules
  have hlevels := h.levels.mono fun _ _ _ hhome => hhome.mono move.size_le
    fun id hid => Or.inl ⟨hsame.size ▸ hid, hsame.root id⟩
  have hcurrent := hlevels.current
  -- A scope that is new is nobody's root.
  have hnew : ∀ {pending self} {state : State}, State.SameModules moment.state state →
      state.graph.scopes.size = moment.state.graph.scopes.size + 1 →
        state.AtHome pending self moment.state.graph.scopes.size := by
    intro pending self state hmodules hsize _
    refine ⟨hsize ▸ Nat.lt_succ_self _, fun id hid hroot => ?_⟩
    rw [hmodules.size] at hid
    rw [hmodules.root] at hroot
    exact absurd hroot (Nat.ne_of_lt (h.roots id hid))
  refine hlevels.move h.manned.uses move fun hopens => ?_
  cases move with
  | @enterStore pending self ref name store state =>
      have howns : Moment.Owns ⟨.block ref name (some store) :: pending, self, state⟩ ref store :=
        Or.inr ⟨name, List.mem_cons_self⟩
      rw [state.currentScope_pushScope store h.manned.self]
      intro _
      refine ⟨h.instanced.lt howns, fun id hid hroot => ?_⟩
      rw [hsame.size] at hid
      rw [hsame.root] at hroot
      exact absurd hroot (h.instanced.rootless howns id hid)
  | @enterCall pending self state ref awaited interpreted verbs arguments brought =>
      rw [state.currentScope_enter _ _ h.manned.self]
      exact hnew hsame (by simp)
  | @enterTurn pending self state placeholder index =>
      rw [state.currentScope_enter _ _ h.manned.self]
      exact hnew hsame (by simp)
  | enterFlow =>
      rw [State.currentScope_modifyCallStack]
      intro hframed
      cases hframed with
      | frame inner => exact hcurrent inner
  | enterFrame =>
      rw [State.currentScope_modifyCallStack]
      intro hframed
      cases hframed with
      | frame inner => exact hcurrent inner
  | _ =>
      -- No other bracket that is opened has statements run inside it at once.
      intro hframed
      first
        | (cases hframed; done)
        | exact absurd (by simp) hopens

end Move

theorem move (h : moment.Routed)
    (move : Move (fun _ statement => statement.Sound) moment moment') : moment'.Routed where
  instanced := h.instanced.move move
  forest := h.forest.of_uses move.sameModules.uses
  distinct := h.distinct_move move
  hidden := h.hidden_move move
  descending := h.descending_move move
  settled := h.settled_move move
  lent := h.lent_move move
  owned := h.owned_move move
  flagged := h.flagged_move move
  levels := h.levels_move move

end Moment.Routed

/-! ## Moves of loading -/

namespace LoadMove

variable {moment moment' : Moment} (move : LoadMove moment moment')
include move

/-- An engine was there and keeps its root, or it is added, and its root is. -/
theorem root_cases {id : EngineId} (exists' : id < moment'.state.engines.size) :
    id < moment.state.engines.size ∧
        (moment'.state.engine id).root = (moment.state.engine id).root ∨
      id = moment.state.engines.size ∧
        (moment'.state.engine id).root = moment.state.graph.scopes.size := by
  have hold : id < moment.state.engines.size →
      id < moment.state.engines.size ∧
        (moment'.state.engine id).root = (moment.state.engine id).root :=
    fun hlt => ⟨hlt, move.keepsRoots.root id hlt⟩
  cases move with
  | openModule path content =>
      rcases State.lt_addEngine path content exists' with hlt | rfl
      · exact Or.inl (hold hlt)
      · exact Or.inr ⟨rfl, State.root_addEngine path content⟩
  | read => exact Or.inl (hold (by simpa using exists'))
  | expose => exact Or.inl (hold (by simpa using exists'))
  | _ => exact Or.inl (hold exists')

/-- An engine uses what it used, and the importer of a module uses it once that is exposed. -/
theorem uses_cases {id used : EngineId} (h : used ∈ (moment'.state.engine id).uses) :
    used ∈ (moment.state.engine id).uses ∨
      used = moment.self ∧ ∃ importer, moment.pending = .module importer :: moment'.pending ∧
        moment'.self = importer := by
  cases move with
  | read =>
      rw [State.engine_modifyEngine_congr _ _ Engine.uses (by intro _; rfl)] at h
      exact Or.inl h
  | openModule path content => exact Or.inl (State.uses_addEngine path content id ▸ h)
  | @expose pending importer module state =>
      exact (State.mem_uses_expose h).imp_right fun hused => ⟨hused, importer, rfl, rfl⟩
  | _ => exact Or.inl h

/-- Loading takes no module away. -/
theorem exposed {module : EngineId} (h : moment.state.Exposed module) :
    moment'.state.Exposed module := by
  obtain ⟨id, hmem⟩ := h
  refine ⟨id, ?_⟩
  cases move with
  | read =>
      rw [State.engine_modifyEngine_congr _ _ Engine.uses (by intro _; rfl)]
      exact hmem
  | openModule path content => exact (State.uses_addEngine path content id).symm ▸ hmem
  | expose =>
      rw [State.engine_expose]
      split
      · exact List.mem_append_left _ hmem
      · exact hmem
  | _ => exact hmem

/-- Loading neither lends nor gives back. -/
theorem loans : Bir.loans moment'.pending moment'.self = Bir.loans moment.pending moment.self := by
  cases move <;> rfl

end LoadMove

namespace Moment.Routed

variable {moment moment' : Moment}

/-- A module that may be exposed is younger than its importer, in its root scope, and no engine has
imported it before. -/
theorem exposes {pending : List Bracket} {importer module : EngineId} {state : State}
    (h : Moment.Routed ⟨.module importer :: pending, module, state⟩) :
    importer < module ∧ ¬ state.Exposed module ∧
      state.currentScope module = (state.engine module).root := by
  obtain ⟨hyounger, -⟩ := List.pairwise_cons.1 h.descending
  have haside : module ∉ control pending importer := fun hmem =>
    Nat.lt_irrefl _ (hyounger module hmem)
  refine ⟨hyounger importer List.mem_cons_self, h.hidden module List.mem_cons_self, ?_⟩
  have hstack : ((State.unwind pending importer state).engine module).scopeStack =
      #[(state.engine module).root] := h.settled module h.manned.self
  rw [State.engine_unwind_of_not_mem haside] at hstack
  simp [State.currentScope, Engine.currentScope, hstack]

section LoadMove

variable (h : moment.Routed) (move : LoadMove moment moment')
include h move

theorem forest_loadMove : moment'.state.Forest := by
  cases move with
  | read => exact h.forest.of_uses (State.engine_modifyEngine_congr _ _ Engine.uses (by intro _; rfl))
  | openModule path content => exact h.forest.of_uses (State.uses_addEngine path content)
  | expose => exact h.forest.expose h.exposes.1 h.exposes.2.1
  | _ => exact h.forest.of_uses fun _ => rfl

theorem distinct_loadMove : ∀ id < moment'.state.engines.size,
    ∀ other < moment'.state.engines.size,
      (moment'.state.engine id).root = (moment'.state.engine other).root → id = other := by
  intro id hid other hother hroots
  rcases move.root_cases hid with ⟨hold, hroot⟩ | ⟨hnew, hroot⟩ <;>
    rcases move.root_cases hother with ⟨hold', hroot'⟩ | ⟨hnew', hroot'⟩ <;>
      rw [hroot, hroot'] at hroots
  · exact h.distinct id hold other hold' hroots
  · exact absurd hroots (Nat.ne_of_lt (h.roots id hold))
  · exact absurd hroots.symm (Nat.ne_of_lt (h.roots other hold'))
  · exact hnew.trans hnew'.symm

theorem hidden_loadMove : ∀ module ∈ inProgress moment'.pending moment'.self,
    ¬ moment'.state.Exposed module := by
  rintro module hmem ⟨id, huses⟩
  rcases move.uses_cases huses with hold | ⟨rfl, importer, hpending, rfl⟩
  · have hexposed : moment.state.Exposed module := ⟨id, hold⟩
    cases move with
    | openModule =>
        rcases List.mem_cons.1 hmem with rfl | hmem
        · exact Nat.lt_irrefl _ (h.lt_of_exposed hexposed)
        · exact h.hidden module hmem hexposed
    | dropModule => exact h.hidden module (List.mem_cons_of_mem _ hmem) hexposed
    | expose => exact h.hidden module (List.mem_cons_of_mem _ hmem) hexposed
    | _ => exact h.hidden module hmem hexposed
  -- The module that is exposed is not among those that wait.
  · have hdescending := h.descending
    rw [hpending] at hdescending
    exact Nat.lt_irrefl _ ((List.pairwise_cons.1 hdescending).1 _ (inProgress_subset hmem))

theorem descending_loadMove : (control moment'.pending moment'.self).Pairwise (· > ·) := by
  cases move with
  | openModule =>
      exact List.pairwise_cons.2 ⟨fun id hmem => h.lt_of_mem_control hmem, h.descending⟩
  | dropModule => exact (List.pairwise_cons.1 h.descending).2
  | expose => exact (List.pairwise_cons.1 h.descending).2
  | _ => exact h.descending

theorem settled_loadMove : ∀ id < moment'.state.engines.size,
    (moment'.unwound.engine id).scopeStack = #[(moment'.state.engine id).root] := by
  have hkeeps : State.KeepsStacks moment.unwound moment'.unwound := by
    have hunwind : State.KeepsStacks moment.state moment'.state →
        State.KeepsStacks moment.unwound
          (State.unwind moment.pending moment.self moment'.state) := fun h' => h'.unwind
    cases move with
    | read =>
        exact hunwind ⟨by simp, fun id _ =>
          State.engine_modifyEngine_congr _ _ Engine.scopeStack (by intro _; rfl) id⟩
    | openModule path content =>
        exact hunwind ⟨by simp, fun id hid => by rw [State.engine_addEngine_of_lt path content hid]⟩
    | @expose pending importer module state =>
        exact hunwind ⟨Nat.le_of_eq (state.size_expose importer module).symm, fun id _ =>
          State.engine_expose_congr Engine.scopeStack (by intro _ _; rfl) id⟩
    | _ => exact hunwind (.of_engines rfl)
  intro id hid
  rcases move.root_cases hid with ⟨hold, hroot⟩ | ⟨hnew, hroot⟩
  · rw [hkeeps.scopeStack id (State.size_unwind.symm ▸ hold), hroot]
    exact h.settled id hold
  -- An engine that is added is not touched by what is unwound.
  · have haside : id ∉ control moment.pending moment.self := fun hmem =>
      Nat.lt_irrefl _ (hnew ▸ h.lt_of_mem_control hmem)
    cases move with
    | @openModule pending self state path content =>
        rw [hnew] at haside ⊢
        have hstack : ((State.unwind pending self (state.addEngine path content).1).engine
            state.engines.size).scopeStack = #[state.graph.scopes.size] := by
          rw [State.engine_unwind_of_not_mem haside]
          simp [State.engine_addEngine]
        rw [State.root_addEngine]
        exact hstack
    | read => exact absurd hnew (Nat.ne_of_lt (by simpa using hid))
    | expose => exact absurd hnew (Nat.ne_of_lt (by simpa using hid))
    | _ => exact absurd hnew (Nat.ne_of_lt hid)

theorem lent_loadMove : ∀ loan ∈ loans moment'.pending moment'.self,
    loan.1.top = (moment'.state.engine loan.2).root ∧ loan.1.wasForeign = true ∧
      moment'.state.Exposed loan.2 := by
  intro loan hmem
  rw [move.loans] at hmem
  obtain ⟨htop, hforeign, hexposed⟩ := h.lent loan hmem
  refine ⟨?_, hforeign, move.exposed hexposed⟩
  rw [htop, move.keepsRoots.root _ (h.lt_of_exposed hexposed)]

theorem owned_loadMove : ∀ id < moment'.state.engines.size,
    ∀ owner ∈ (moment'.state.graph.get (moment'.state.engine id).root).blocks.map Block.owner,
      owner = id := by
  intro id hid owner hmem
  have hroot := move.root_cases hid
  have hold := h.owned id
  cases move with
  | @native pending self state =>
      rw [State.graph_modifyScope, ScopeGraph.get_modify] at hmem
      split at hmem
      · rename_i hsame
        rw [Scope.addBlock, List.map_append] at hmem
        rcases List.mem_append.1 hmem with hmem | hnew
        · exact hold hid owner hmem
        · rw [List.mem_singleton.1 hnew]
          exact h.distinct self h.manned.self id hid hsame.1
      · exact hold hid owner hmem
  | @openModule pending self state path content =>
      rw [State.graph_addEngine] at hmem
      rcases hroot with ⟨hlt, hsame⟩ | ⟨-, hnew⟩
      · rw [hsame, ScopeGraph.get_add_of_lt _ _ (h.roots id hlt)] at hmem
        exact hold hlt owner hmem
      · rw [hnew] at hmem
        simp [ScopeGraph.get_add] at hmem
  | @expose pending importer module state =>
      rw [State.root_expose, State.graph_expose,
        ScopeGraph.get_modify_congr _ Scope.blocks _ _ (by intro _; rfl),
        ScopeGraph.get_modify_congr _ Scope.blocks _ _ (by intro _; rfl)] at hmem
      exact hold (by simpa using hid) owner hmem
  | read =>
      rw [State.engine_modifyEngine_congr _ _ Engine.root (by intro _; rfl)] at hmem
      exact hold (by simpa using hid) owner hmem
  | _ => exact hold hid owner hmem

theorem flagged_loadMove (scope : ScopeId) : (moment'.state.graph.get scope).foreign = true ↔
    moment'.state.Foreign (borrowers moment'.pending moment'.self) scope := by
  have hflag := h.flagged scope
  have hborrowers : borrowers moment'.pending moment'.self =
      borrowers moment.pending moment.self := congrArg (List.map Prod.snd) move.loans
  rw [hborrowers]
  have hkept : ∀ module, moment.state.Exposed module →
      (moment'.state.engine module).root = (moment.state.engine module).root :=
    fun module hexposed => move.keepsRoots.root module (h.lt_of_exposed hexposed)
  -- Where no module is exposed, the same scopes are foreign.
  have hsame : (∀ id, moment'.state.Exposed id → moment.state.Exposed id) →
      (moment'.state.Foreign (borrowers moment.pending moment.self) scope ↔
        moment.state.Foreign (borrowers moment.pending moment.self) scope) := by
    intro hback
    constructor
    · rintro ⟨module, hexposed, hroot, haside⟩
      exact ⟨module, hback module hexposed, hkept module (hback module hexposed) ▸ hroot, haside⟩
    · rintro ⟨module, hexposed, hroot, haside⟩
      exact ⟨module, move.exposed hexposed, (hkept module hexposed).trans hroot, haside⟩
  cases move with
  | native =>
      rw [State.graph_modifyScope, ScopeGraph.get_modify_congr _ Scope.foreign _ _ (by intro _; rfl)]
      exact hflag.trans (hsame fun _ hexposed => hexposed).symm
  | @openModule pending self state path content =>
      rw [State.graph_addEngine, state.graph.get_add_congr Scope.foreign scope rfl]
      exact hflag.trans (hsame fun id => (State.exposed_addEngine path content id).1).symm
  | read =>
      refine hflag.trans (hsame ?_).symm
      rintro id ⟨importer, huses⟩
      rw [State.engine_modifyEngine_congr _ _ Engine.uses (by intro _; rfl)] at huses
      exact ⟨importer, huses⟩
  | @expose pending importer module state =>
      obtain ⟨hyounger, -, hcurrent⟩ := h.exposes
      have himporter : importer < state.engines.size := hyounger.trans h.manned.self
      have hroot := h.roots module h.manned.self
      rw [State.graph_expose, ScopeGraph.get_modify_congr _ Scope.foreign _ _ (by intro _; rfl),
        ScopeGraph.get_modify, hcurrent]
      by_cases hscope : (state.engine module).root = scope
      · subst hscope
        have haside : module ∉ borrowers (.module importer :: pending) module := fun hmem =>
          Nat.lt_irrefl _ ((List.pairwise_cons.1 h.descending).1 module (borrowers_subset hmem))
        simpa [hroot] using ⟨module, (State.exposed_expose himporter module).2 (Or.inr rfl),
          State.root_expose module, haside⟩
      · simp only [hscope, false_and, if_false]
        refine hflag.trans ⟨?_, ?_⟩
        · rintro ⟨other, hexposed, rfl, haside⟩
          exact ⟨other, (State.exposed_expose himporter other).2 (Or.inl hexposed),
            State.root_expose other, haside⟩
        · rintro ⟨other, hexposed, rfl, haside⟩
          rw [State.root_expose] at hscope ⊢
          rcases (State.exposed_expose himporter other).1 hexposed with hold | rfl
          · exact ⟨other, hold, rfl, haside⟩
          · exact absurd rfl hscope
  | _ => exact hflag

theorem levels_loadMove :
    moment'.state.Levels moment'.state.AtHome moment'.pending moment'.self := by
  have hlevels := h.levels.mono fun _ _ _ hhome => hhome.mono move.keepsRoots.scopes
    fun id hid => (move.root_cases hid).imp_right fun hnew => hnew.2.ge
  refine hlevels.loadMove move fun hopens => ?_
  have hroots := @LoadMove.root_cases _ _ move
  cases move with
  | @openModule pending self state path content =>
      have hcurrent : (state.addEngine path content).1.currentScope state.engines.size =
          state.graph.scopes.size := by
        simp [State.currentScope, Engine.currentScope, State.engine_addEngine]
      rw [hcurrent]
      intro _
      refine ⟨by simp, fun id hid hroot => ?_⟩
      rcases hroots hid with ⟨hold, hsame⟩ | ⟨hnew, -⟩
      · exact absurd (hsame.symm.trans hroot) (Nat.ne_of_lt (h.roots id hold))
      · exact hnew
  | _ =>
      intro hframed
      first
        | (cases hframed; done)
        | exact absurd (by simp) hopens

end LoadMove

theorem loadMove (h : moment.Routed) (move : LoadMove moment moment') : moment'.Routed where
  instanced := h.instanced.loadMove move
  forest := h.forest_loadMove move
  distinct := h.distinct_loadMove move
  hidden := h.hidden_loadMove move
  descending := h.descending_loadMove move
  settled := h.settled_loadMove move
  lent := h.lent_loadMove move
  owned := h.owned_loadMove move
  flagged := h.flagged_loadMove move
  levels := h.levels_loadMove move

end Moment.Routed

theorem Moment.Routed.initial (config : Config) (files : FileTree) (source : Source) (path : Path)
    (content : String) :
    Moment.Routed ⟨[], Script.main, State.initial config files source path content⟩ := by
  have hone : (State.initial config files source path content).engines.size = 1 := rfl
  have huses : ∀ id, ((State.initial config files source path content).engine id).uses = [] := by
    intro id
    exact State.uses_addEngine path content id
  have hhidden : ∀ module, ¬ (State.initial config files source path content).Exposed module := by
    rintro module ⟨id, hmem⟩
    rw [huses] at hmem
    cases hmem
  have hmain : ∀ id < (State.initial config files source path content).engines.size, id = 0 :=
    fun id hid => Nat.lt_one_iff.1 (hone ▸ hid)
  exact
    { instanced := State.initial_instanced config files source path content
      forest := ⟨fun h => absurd ⟨_, h⟩ (hhidden _), fun h => absurd ⟨_, h⟩ (hhidden _), fun id => by
        rw [huses]
        exact List.nodup_nil⟩
      distinct := fun id hid other hother _ => (hmain id hid).trans (hmain other hother).symm
      hidden := fun _ hmem => by cases hmem
      descending := List.pairwise_singleton _ _
      settled := fun id hid => by
        rw [hmain id hid]
        rfl
      lent := fun _ hmem => by cases hmem
      owned := fun id hid owner hmem => by
        rw [hmain id hid] at hmem
        cases hmem
      flagged := fun scope => by
        refine iff_of_false ?_ fun ⟨module, hexposed, _⟩ => hhidden module hexposed
        rw [State.initial, State.graph_addEngine, ScopeGraph.get_add_congr _ Scope.foreign scope rfl]
        exact Bool.false_ne_true
      levels := ⟨0, rfl, fun _ => ⟨Nat.one_pos, fun id hid _ => hmain id hid⟩⟩ }

end Bir
