import Bir.Proofs.Acyclic.Order
import Bir.Proofs.Bindings.Evolution

/-!
# Containment — expressions declare nothing in the scopes that are there

An expression may call blocks, and these run all kinds of statements.  But a call is entered with a
scope of its own, and so is a store when an `init` section is run; whatever is declared between the
two ends of such a scope is declared in scopes that the evaluation has made itself.  This file
defines:

* `ScopeGraph.KeepsDeclarations` — the scopes of a graph have kept all that is declared in them;
* `Moment.Contained` — at every moment of an evaluation, old scopes have kept their declarations and
  what is begun is begun in new ones;
* `Discipline.containing` — why evaluations stay so.

`expressions_declare_nothing` is the result.
-/

namespace Bir

/-- The scopes of a graph have kept what is declared in them.  Values of variables may differ, and
slots may have left the stores of blocks or joined them. -/
structure ScopeGraph.KeepsDeclarations (before after : ScopeGraph) : Prop where
  size : before.scopes.size ≤ after.scopes.size
  parents : ∀ id < before.scopes.size, (after.get id).parents = (before.get id).parents
  immutable : ∀ id < before.scopes.size, (after.get id).immutable = (before.get id).immutable
  foreign : ∀ id < before.scopes.size, (after.get id).foreign = (before.get id).foreign
  /-- The blocks are the same, with the same stores, and as initialized as they were. -/
  blocks : ∀ id < before.scopes.size, (after.get id).blocks = (before.get id).blocks
  bindings : ∀ id < before.scopes.size, Bindings.Evolve (before.HasSlot id) (before.HasSlot id)
    (before.get id).bindings (after.get id).bindings

/-- A moment of an evaluation that has kept the declarations of the state that it began in. -/
structure Moment.Contained (start : State) (moment : Moment) : Prop where
  unwinds : moment.UnwindsTo start
  ordered : moment.Ordered
  asked : [.question] <:+ moment.pending
  size : start.graph.scopes.size ≤ moment.state.graph.scopes.size
  shape : ∀ id < start.graph.scopes.size,
    (moment.state.graph.get id).shape = (start.graph.get id).shape
  bindings : ∀ id < start.graph.scopes.size,
    Bindings.Evolve (start.graph.HasSlot id) (start.graph.HasSlot id)
      (start.graph.get id).bindings (moment.state.graph.get id).bindings
  /-- Old scopes are stores of blocks of old scopes alone. -/
  stores : ∀ id store, start.graph.scopes.size ≤ id → moment.state.graph.Stores id store →
    start.graph.scopes.size ≤ store
  declares : ∀ bracket ∈ moment.pending, bracket.Declares moment.state.graph
  sites : ∀ bracket ∈ moment.pending, ∀ id ∈ bracket.site?, start.graph.scopes.size ≤ id
  made : ∀ bracket ∈ moment.pending, ∀ id ∈ bracket.store?, start.graph.scopes.size ≤ id
  /-- Wherever control goes, statements are run in new scopes. -/
  levels : moment.state.Levels (fun pending _ scope =>
    pending ≠ [] → Framed pending → start.graph.scopes.size ≤ scope) moment.pending moment.self

/-- An expression is asked for until the evaluation is over. -/
theorem Move.asked {allowed : EngineId → Statement → Prop} {moment moment' : Moment}
    (move : Move allowed moment moment') (h : [.question] <:+ moment.pending) :
    [.question] <:+ moment'.pending := by
  cases move <;> simp_all [List.suffix_cons_iff]

namespace Moment.Contained

variable {start : State} {moment moment' : Moment}

section Move

variable (h : moment.Contained start)
include h

/-- Statements are run in new scopes. -/
theorem le_currentScope (framed : Framed moment.pending) :
    start.graph.scopes.size ≤ moment.state.currentScope moment.self := by
  have hpending : moment.pending ≠ [] := by
    intro hnil
    simpa [hnil] using h.asked
  exact h.levels.current hpending framed

/-- An old scope whose slots are at work is the store of an old block. -/
theorem stores_of_slotStore {id : ScopeId} (old : id < start.graph.scopes.size)
    (target : moment.state.slotStore? moment.self = some id) :
    ∃ holder, start.graph.Stores holder id := by
  rcases State.stores_of_slotStore? target with ⟨holder, hstores⟩
  rcases Nat.lt_or_ge holder start.graph.scopes.size with hlt | hge
  · have hshape := Scope.eq_of_shape (h.shape holder hlt)
    exact ⟨holder, hstores.of_blocks hshape.2.2⟩
  · exact absurd (h.stores holder id hge hstores) (Nat.not_le.2 old)

variable (move : Move (fun _ statement => statement.Sound) moment moment')
include move

theorem shape_move (id : ScopeId) (hid : id < start.graph.scopes.size) :
    (moment'.state.graph.get id).shape = (start.graph.get id).shape := by
  -- Blocks are declared in current scopes and changed where they wait, and these are all new.
  have hcurrent : Framed moment.pending → moment.state.currentScope moment.self ≠ id :=
    fun framed heq => absurd (h.le_currentScope framed) (Nat.not_le.2 (heq ▸ hid))
  have hsites : ∀ bracket ∈ moment.pending.head?, id ∉ bracket.site? := fun bracket hhead hsite =>
    absurd (h.sites bracket (List.mem_of_mem_head? hhead) id hsite) (Nat.not_le.2 hid)
  calc
    (moment'.state.graph.get id).shape = (moment.state.graph.get id).shape :=
      move.shape (Nat.lt_of_lt_of_le hid h.size) hcurrent (fun _ => hsites) h.declares
    _ = (start.graph.get id).shape := h.shape id hid

theorem bindings_move (id : ScopeId) (hid : id < start.graph.scopes.size) :
    Bindings.Evolve (start.graph.HasSlot id) (start.graph.HasSlot id)
      (start.graph.get id).bindings (moment'.state.graph.get id).bindings := by
  refine (h.bindings id hid).trans (move.bindings (Nat.lt_of_lt_of_le hid h.size) ?_ ?_ ?_)
  -- Slots come and go, but no declaration ends in an old scope, and no old store is seeded.
  · intro target index
    have hslot : start.graph.HasSlot id (Slot.name index) :=
      ⟨⟨index, rfl⟩, h.stores_of_slotStore hid target⟩
    exact ⟨hslot, hslot⟩
  · intro name kind outer hpending
    have hsite := h.sites _ (hpending ▸ List.mem_cons_self) id rfl
    exact absurd hsite (Nat.not_le.2 hid)
  · intro ref name outer hpending
    have hmade := h.made _ (hpending ▸ List.mem_cons_self) id rfl
    exact absurd hmade (Nat.not_le.2 hid)

theorem stores_move (id store : ScopeId) (hid : start.graph.scopes.size ≤ id)
    (hstore : moment'.state.graph.Stores id store) : start.graph.scopes.size ≤ store := by
  rcases move.stores hstore with hold | ⟨bracket, hhead, hmade⟩ | ⟨rfl, -⟩
  · exact h.stores id store hid hold
  · exact h.made bracket (List.mem_of_mem_head? hhead) store hmade
  · exact h.size

theorem sites_move : ∀ bracket ∈ moment'.pending, ∀ id ∈ bracket.site?,
    start.graph.scopes.size ≤ id := by
  refine Bracket.forall_mem_of_tail move.tail_suffix h.sites fun hopens => ?_
  cases move with
  | @openBinding _ _ _ _ _ _ _ framed =>
      rintro _ ⟨⟩ id ⟨⟩
      exact h.le_currentScope framed
  | @openBlock _ _ _ _ _ _ _ _ _ framed =>
      rintro _ ⟨⟩ id ⟨⟩
      exact h.le_currentScope framed
  | @openImplementing _ _ _ _ _ _ _ _ framed =>
      rintro _ ⟨⟩ id ⟨⟩
      exact h.le_currentScope framed
  | @attachStore pending self state ref name =>
      rintro _ ⟨⟩ id hsite
      exact h.sites (.block ref name none) List.mem_cons_self id hsite
  | @makeStore pending self state ref name =>
      rintro _ ⟨⟩ id hsite
      exact h.sites (.block ref name none) List.mem_cons_self id hsite
  | _ => simp [Bracket.site?] at hopens ⊢

theorem levels_move : moment'.state.Levels (fun pending _ scope =>
    pending ≠ [] → Framed pending → start.graph.scopes.size ≤ scope) moment'.pending
    moment'.self := by
  have hsize := h.size
  have hlt := h.levels.endsIn.lt
  refine h.levels.move h.unwinds.exist move fun hopens => ?_
  cases move with
  -- Statements are run in the scope of a call or a turn, or in a store.
  | @enterStore pending self ref name store state =>
      intro _ _
      rw [state.currentScope_pushScope store hlt]
      exact h.made (.block ref name (some store)) List.mem_cons_self store rfl
  | @enterCall pending self state ref awaited interpreted verbs arguments brought =>
      intro _ _
      rw [State.currentScope_enter state _ _ hlt]
      exact hsize
  | @enterTurn pending self state placeholder index =>
      intro _ _
      rw [State.currentScope_enter state _ _ hlt]
      exact hsize
  | enterFlow =>
      intro _ hframed
      cases hframed with
      | frame framed =>
          rw [State.currentScope_modifyCallStack]
          exact h.le_currentScope framed
  | enterFrame =>
      intro _ hframed
      cases hframed with
      | frame framed =>
          rw [State.currentScope_modifyCallStack]
          exact h.le_currentScope framed
  -- No statement is run where anything else is begun.
  | openBinding => rintro _ ⟨⟩
  | openBlock => rintro _ ⟨⟩
  | openImplementing => rintro _ ⟨⟩
  | attachStore => rintro _ ⟨⟩
  | makeStore => rintro _ ⟨⟩
  | openCall => rintro _ ⟨⟩
  | lend => rintro _ ⟨⟩
  | _ => exact absurd (by simp) hopens

end Move

theorem move (h : moment.Contained start)
    (move : Move (fun _ statement => statement.Sound) moment moment') :
    moment'.Contained start where
  unwinds := h.unwinds.move move
  ordered := h.ordered.move move
  asked := move.asked h.asked
  size := Nat.le_trans h.size move.size_le
  shape := h.shape_move move
  bindings := h.bindings_move move
  stores := h.stores_move move
  declares := move.declares (fun _ => h.ordered.levels.current.current.1) h.declares
  sites := h.sites_move move
  made := move.made h.size h.made
  levels := h.levels_move move

/-- When an expression is asked for, nothing has changed yet. -/
theorem asked_of_ordered {self : EngineId} (h : Moment.Ordered ⟨[], self, start⟩) :
    Moment.Contained start ⟨[.question], self, start⟩ where
  unwinds := ⟨.refl start, h.manned.uses, by simp [LoansFit]⟩
  ordered := h.ask
  asked := List.suffix_rfl
  size := Nat.le_refl _
  shape _ _ := rfl
  bindings _ _ := .refl _
  stores id store hid hstore := absurd hstore.lt (Nat.not_lt.2 hid)
  declares := by simp [Bracket.Declares]
  sites := by simp [Bracket.site?]
  made := by simp [Bracket.store?]
  levels := by
    have hends := h.levels.endsIn
    refine ⟨hends.mono ?_, hends.mono ?_⟩
    · rintro _ _ _ ⟨⟩
    · intro _ _ hnil
      exact absurd rfl hnil

/-- What an evaluation leaves has kept the declarations that were there when it began. -/
theorem keepsDeclarations {self : EngineId} {after : State}
    (h : Moment.Contained start ⟨[.question], self, after⟩) :
    start.graph.KeepsDeclarations after.graph where
  size := h.size
  parents id hid := (Scope.eq_of_shape (h.shape id hid)).1
  immutable id hid := (Scope.eq_of_shape (h.shape id hid)).2.1
  foreign id _ := h.unwinds.undisturbed.foreign id
  blocks id hid := (Scope.eq_of_shape (h.shape id hid)).2.2
  bindings := h.bindings

end Moment.Contained

/-- To keep the declarations of a state, as a discipline of evaluation under any watch. -/
def Discipline.containing (watch : Watch) (start : State) : Discipline watch :=
  .ofInvariant watch .contained (fun moment => moment.Contained start ∧ moment.state.Sound) True
    (fun _ _ _ _ => trivial) (fun h => h.2.block _ _ _)
    fun h move => ⟨h.1.move move, move.sound h.2⟩

section Evaluations

variable {state : State} {self : EngineId} (ordered : Moment.Ordered ⟨[], self, state⟩)
  (sound : state.Sound)
include ordered sound

/-- Whatever expression is evaluated, under whatever watch, leaves a state that is contained. -/
theorem evaluateUnder_contained (watch : Watch) (bound : Nat) (expression : Expression) :
    (evaluateUnder watch bound self expression state).Leaves fun after =>
      Moment.Contained state ⟨[.question], self, after⟩ := by
  let D := Discipline.containing watch state
  have hallowed : D.expression self expression := trivial
  have hexpression : D.regimen.Keeps [.question] self (evaluateUnder watch bound self expression) :=
    (D.knot bound).evaluates hallowed
  exact (hexpression state ⟨.asked_of_ordered ordered, sound⟩).ends.mono (fun _ _ h => h.1)
    fun _ _ h => h.1.1

/-- So do several expressions that are evaluated one after the other. -/
theorem arguments_contained (bound : Nat) (arguments : List Expression) :
    (Evaluator.all (evaluate bound) self arguments state).Leaves fun after =>
      Moment.Contained state ⟨[.question], self, after⟩ := by
  let D := Discipline.containing .silent state
  have knot := D.regimen.knot_silent bound
  have hallowed : ∀ argument ∈ arguments, D.expression self argument := fun _ _ => trivial
  have harguments : D.regimen.Keeps [.question] self
      (Evaluator.all (evaluate bound) self arguments) := knot.keeps_all hallowed
  exact (harguments state ⟨.asked_of_ordered ordered, sound⟩).ends.mono (fun _ _ h => h.1)
    fun _ _ h => h.1.1

end Evaluations

/-- In every reachable state, whatever expression an engine evaluates and however it ends, all
scopes that were there before keep their parents, flags and blocks, and their bindings but for the
values of variables and the slots of stores. -/
theorem expressions_declare_nothing {state : State} (reachable : state.Reachable) {self : EngineId}
    (running : self < state.engines.size) (bound : Nat) (expression : Expression) :
    (evaluate bound self expression state).Leaves fun after =>
      state.graph.KeepsDeclarations after.graph := by
  have hcontained := evaluateUnder_contained (reachable.ordered running) reachable.sound .silent
    bound expression
  rw [(evaluateUnder_silent bound).1] at hcontained
  exact hcontained.mono (fun _ _ h => h.keepsDeclarations) fun _ _ h => h.keepsDeclarations

/-- A script that calls a block of a module, as an instance: the block declares a variable and a
block, the evaluation makes scopes for the call and the new store, and old scopes have kept all that
is declared in them. -/
theorem expressions_declare_nothing_of_call :
    ∃ state after : State, ∃ expression : Expression, state.Reachable ∧
      (evaluate 20 Script.main expression state).state? = some after ∧
      state.graph.scopes.size = 2 ∧ after.graph.scopes.size = 4 ∧
      state.graph.KeepsDeclarations after.graph := by
  let files := FileTree.putFile {} ["bir", "m.bir"]
    (.file "deep[] { let y = 2 inner[] { init { let z = 1 } return 1 } return y }".toUTF8)
  let start := State.initial {} files (.prepared []) "main.bir" "use \"m\""
  let expression := @Expression.call { name := "deep", position := default } [] [] default
  have hends : ((Script.perform 20 .load start).state?).isSome = true := by decide +kernel
  obtain ⟨state, hstate⟩ := Option.isSome_iff_exists.1 hends
  have hreachable : state.Reachable := .performed (.initial ..) hstate
  have hsizes : ((Script.perform 20 .load start).state?).map (fun state =>
      (state.graph.scopes.size, (evaluate 20 Script.main expression state).state?.map
        fun after => after.graph.scopes.size)) = some (2, some 4) := by decide +kernel
  rw [hstate, Option.map_some, Option.some_inj, Prod.mk.injEq, Option.map_eq_some_iff] at hsizes
  obtain ⟨hbefore, after, hafter, hlater⟩ := hsizes
  have hleaves := expressions_declare_nothing hreachable hreachable.manned.self 20 expression
  exact ⟨state, after, expression, hreachable, hafter, hbefore, hlater,
    Outcome.leaves_of_state? hleaves hafter⟩

end Bir
