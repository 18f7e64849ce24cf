import Bir.Proofs.Reachable

/-!
# Stacks — every way out undoes what the way in did

An evaluation pushes scopes and frames, lends the stacks of one engine to another, and lowers the
flag of a module while the module runs a call.  However it ends, all of this is undone.  This file
defines:

* `State.Undisturbed` — two states with the same engines, stacks and flags;
* `Moment.unwound` — the state of a moment once all that is begun is ended.

The invariant of an evaluation is that unwinding always leads back to an undisturbed state:
`Move.unwound`.
-/

namespace Bir

/-! ## Undisturbed states -/

/-- Nothing has changed but scopes and the console, and no scope has changed its flag. -/
structure State.Undisturbed (before after : State) : Prop where
  config : after.config = before.config
  files : after.files = before.files
  loading : after.loading = before.loading
  /-- Call stacks, scope stacks and all else that engines have. -/
  engines : after.engines = before.engines
  foreign : ∀ id, (after.graph.get id).foreign = (before.graph.get id).foreign

namespace State.Undisturbed

variable {before between after state : State}

theorem refl (state : State) : Undisturbed state state where
  config := rfl
  files := rfl
  loading := rfl
  engines := rfl
  foreign _ := rfl

theorem trans (h : Undisturbed before between) (h' : Undisturbed between after) :
    Undisturbed before after where
  config := h'.config.trans h.config
  files := h'.files.trans h.files
  loading := h'.loading.trans h.loading
  engines := h'.engines.trans h.engines
  foreign id := (h'.foreign id).trans (h.foreign id)

theorem modifyGraph {change : ScopeGraph → ScopeGraph}
    (h : ∀ id, ((change state.graph).get id).foreign = (state.graph.get id).foreign) :
    Undisturbed state (state.modifyGraph change) :=
  { refl state with foreign := h }

theorem modifyScope (id : ScopeId) {change : Scope → Scope}
    (h : ∀ scope, (change scope).foreign = scope.foreign) :
    Undisturbed state (state.modifyScope id change) :=
  modifyGraph fun id' => state.graph.get_modify_congr Scope.foreign id id' h

theorem modifyBlock (ref : BlockRef) (change : Block → Block) :
    Undisturbed state (state.modifyGraph fun graph => graph.modifyBlock ref change) :=
  modifyScope ref.scope fun _ => rfl

theorem addScope {scope : Scope} (h : scope.foreign = false) :
    Undisturbed state (state.addScope scope).1 := by
  refine { refl state with foreign := ?_ }
  intro id
  rw [State.graph_addScope, ScopeGraph.get_add]
  split
  · rename_i hid
    rw [h, state.graph.get_of_size_le (Nat.le_of_eq hid.symm)]
  · rfl

theorem updateBinding (id : ScopeId) (name : String) (value : Int64) :
    Undisturbed state (state.updateBinding id name value).1 :=
  { refl state with
    foreign := fun id' =>
      state.graph.get_update_congr Scope.foreign (fun _ _ _ => rfl) id id' name value }

theorem delete (id : ScopeId) (name : String) :
    Undisturbed state (state.modifyGraph fun graph => graph.delete id name) := by
  apply modifyGraph
  intro id'
  rcases state.graph.delete_cases id name with h | ⟨holder, h⟩
  · rw [h]
  · rw [h]
    exact state.graph.get_modify_congr Scope.foreign holder id' fun _ => rfl

theorem markInitialized (id : ScopeId) (name : String) (store : Option ScopeId) :
    Undisturbed state (state.modifyGraph fun graph => graph.markInitialized id name store) := by
  apply modifyGraph
  intro id'
  rcases state.graph.markInitialized_cases id name store with h | ⟨found, -, h⟩
  · rw [h]
  · rw [h]
    exact state.graph.get_modify_congr Scope.foreign found.block.scope id' fun _ => rfl

theorem attachStore (self : EngineId) (ref : BlockRef) :
    Undisturbed state (state.attachStore self ref) :=
  (addScope rfl).trans (modifyBlock ref _)

end State.Undisturbed

/-! ## Loans -/

namespace Action.Loan

open State

variable {state : State} {caller owner : EngineId}

/-- What is given back at once leaves nothing changed. -/
theorem giveBack_take (other : owner ≠ caller) (exists' : owner < state.engines.size) :
    Undisturbed state
      ((take caller owner state).1.giveBack caller owner (take caller owner state).2) := by
  have howner := engine_take_owner other exists'
  have hlent : (state.setCallStack caller {}).engine owner = state.engine owner :=
    state.engine_modifyEngine_ne _ other.symm
  refine { Undisturbed.refl state with engines := ?_, foreign := ?_ }
  · apply State.engines_ext (by simp)
    intro id
    by_cases hid : id = owner
    · subst hid
      rw [engine_giveBack_owner _ other (by simpa using exists'), howner]
      simp [hlent]
    · rw [engine_giveBack_ne _ hid, howner]
      by_cases hcaller : id = caller
      · subst hcaller
        simp only [State.setCallStack, State.engine_modifyEngine, engine_take_ne hid, size_take]
        split <;> rfl
      · rw [State.setCallStack, State.engine_modifyEngine_ne _ _ (Ne.symm hcaller),
          engine_take_ne hid, State.setCallStack,
          State.engine_modifyEngine_ne _ _ (Ne.symm hcaller)]
  · intro id
    rw [graph_giveBack, graph_take, ScopeGraph.get_modify, ScopeGraph.get_modify]
    split
    · rename_i htop
      rw [take_wasForeign, htop.1]
    · rename_i htop
      rw [ScopeGraph.size_modify] at htop
      rw [if_neg htop]

end Action.Loan

/-! ## Unwinding -/

/-- End what a bracket has begun: take a scope or a frame off, or give stacks back. -/
def Bracket.close (self : EngineId) : Bracket → State → State
  | .scope, state => state.popScope self
  | .frame, state => state.modifyCallStack self CallStack.pop
  | .loan terms caller, state => terms.giveBack caller self state
  | _, state => state

/-- The engine that is in control once a bracket is closed. -/
def Bracket.outer (self : EngineId) (bracket : Bracket) : EngineId :=
  bracket.waiting?.getD self

/-- End all that brackets have begun, the innermost first. -/
def State.unwind : List Bracket → EngineId → State → State
  | [], _, state => state
  | bracket :: pending, self, state =>
    unwind pending (bracket.outer self) (bracket.close self state)

section Unwind

variable (pending : List Bracket) (self : EngineId) (state : State)

theorem State.unwind_pushScope (scope : ScopeId) :
    unwind (.scope :: pending) self (state.pushScope self scope) = unwind pending self state :=
  congrArg (unwind pending self) (state.popScope_pushScope self scope)

theorem State.unwind_pushFrame (name : String) :
    unwind (.frame :: pending) self
      (state.modifyCallStack self fun stack => stack.push name) = unwind pending self state :=
  congrArg (unwind pending self) (state.modifyCallStack_pop_push self name)

end Unwind

/-- The state of a moment once all that is begun is ended. -/
def Moment.unwound (moment : Moment) : State :=
  State.unwind moment.pending moment.self moment.state

/-- The scopes that loans will raise the flag of are there. -/
def LoansFit (pending : List Bracket) (graph : ScopeGraph) : Prop :=
  ∀ terms caller, .loan terms caller ∈ pending → terms.wasForeign = true →
    terms.top < graph.scopes.size

namespace State.Undisturbed

variable {before after : State}

theorem modifyEngine (h : Undisturbed before after) (id : EngineId) (change : Engine → Engine) :
    Undisturbed (before.modifyEngine id change) (after.modifyEngine id change) :=
  { h with engines := by simp [h.engines] }

theorem giveBack (h : Undisturbed before after) (terms : Action.Loan) (caller owner : EngineId)
    (fits : terms.wasForeign = true → terms.top < before.graph.scopes.size)
    (fits' : terms.wasForeign = true → terms.top < after.graph.scopes.size) :
    Undisturbed (terms.giveBack caller owner before) (terms.giveBack caller owner after) := by
  refine { h with engines := ?_, foreign := ?_ }
  · exact Action.Loan.engines_giveBack_congr h.engines terms
  · intro id
    -- Where the flag was down, a scope that is not there reads as one with its flag down.
    have hread : ∀ graph : ScopeGraph, (terms.wasForeign = true → terms.top < graph.scopes.size) →
        ((graph.modify terms.top fun scope =>
          { scope with foreign := terms.wasForeign }).get id).foreign =
            if terms.top = id then terms.wasForeign else (graph.get id).foreign := by
      intro graph hfits
      rw [ScopeGraph.get_modify]
      by_cases hid : terms.top = id
      · by_cases hsize : id < graph.scopes.size
        · simp [hid, hsize]
        · cases hforeign : terms.wasForeign with
          | true => exact absurd (hid ▸ hfits hforeign) hsize
          | false => simp [hsize, graph.get_of_size_le (Nat.le_of_not_lt hsize)]
      · simp [hid]
    rw [Action.Loan.graph_giveBack, Action.Loan.graph_giveBack, hread _ fits, hread _ fits',
      h.foreign]

theorem close (h : Undisturbed before after) {bracket : Bracket} {self : EngineId}
    (fits : LoansFit [bracket] before.graph) (fits' : LoansFit [bracket] after.graph) :
    Undisturbed (bracket.close self before) (bracket.close self after) := by
  cases bracket with
  | scope => exact h.modifyEngine self _
  | frame => exact h.modifyEngine self _
  | loan terms caller =>
      exact h.giveBack terms caller self (fits terms caller (by simp)) (fits' terms caller (by simp))
  | _ => exact h

end State.Undisturbed

theorem Bracket.size_close (self : EngineId) (bracket : Bracket) (state : State) :
    (bracket.close self state).graph.scopes.size = state.graph.scopes.size := by
  cases bracket <;> simp [close, State.popScope, State.modifyCallStack]

/-- What is not disturbed now is not disturbed once all is unwound. -/
theorem State.Undisturbed.unwind {before after : State} (h : Undisturbed before after)
    {pending : List Bracket} {self : EngineId} (fits : LoansFit pending before.graph)
    (fits' : LoansFit pending after.graph) :
    Undisturbed (State.unwind pending self before) (State.unwind pending self after) := by
  induction pending generalizing self before after with
  | nil => exact h
  | cons bracket pending ih =>
      have hclose : Undisturbed (bracket.close self before) (bracket.close self after) :=
        h.close (fun terms caller hmem => fits terms caller (by simp_all))
          (fun terms caller hmem => fits' terms caller (by simp_all))
      refine ih hclose ?_ ?_
      · intro terms caller hmem hforeign
        rw [Bracket.size_close]
        exact fits terms caller (by simp [hmem]) hforeign
      · intro terms caller hmem hforeign
        rw [Bracket.size_close]
        exact fits' terms caller (by simp [hmem]) hforeign

/-! ## Moves -/

namespace Move

variable {allowed : EngineId → Statement → Prop} {moment moment' : Moment}

/-- Scopes are made and never unmade. -/
theorem size_le (move : Move allowed moment moment') :
    moment.state.graph.scopes.size ≤ moment'.state.graph.scopes.size := by
  cases move <;> simp [State.attachStore, State.pushScope, State.popScope, State.modifyCallStack]

/-- The scope of a loan whose flag is raised is there. -/
theorem loansFit (move : Move allowed moment moment')
    (fits : LoansFit moment.pending moment.state.graph) :
    LoansFit moment'.pending moment'.state.graph := by
  have hsize := move.size_le
  have hkept : ∀ terms caller, .loan terms caller ∈ moment.pending → terms.wasForeign = true →
      terms.top < moment'.state.graph.scopes.size :=
    fun terms caller hmem hforeign => Nat.lt_of_lt_of_le (fits terms caller hmem hforeign) hsize
  intro terms caller hmem hforeign
  cases move with
  | @lend pending self state found owner owned lent =>
      rcases List.mem_cons.1 hmem with heq | hmem
      · cases heq
        rw [Action.Loan.take_wasForeign] at hforeign
        exact Nat.lt_of_lt_of_le (state.graph.foreign_lt hforeign) hsize
      · exact hkept terms caller hmem hforeign
  | _ => exact hkept terms caller (by simp_all) hforeign

/-- Whatever a move does, unwinding undoes it. -/
theorem unwound (move : Move allowed moment moment') (exist : moment.state.UsesExist)
    (fits : LoansFit moment.pending moment.state.graph) :
    State.Undisturbed moment.unwound moment'.unwound := by
  -- A move that only touches scopes and the console leaves the rest of the unwinding as it is.
  have hquiet : ∀ {state' : State}, State.Undisturbed moment.state state' →
      moment.state.graph.scopes.size ≤ state'.graph.scopes.size →
        State.Undisturbed moment.unwound (State.unwind moment.pending moment.self state') := by
    intro state' h hsize
    exact h.unwind fits fun terms caller hmem hforeign =>
      Nat.lt_of_lt_of_le (fits terms caller hmem hforeign) hsize
  have hsize := move.size_le
  cases move with
  | write name value => exact hquiet (.updateBinding _ name value) hsize
  | console => exact hquiet { State.Undisturbed.refl _ with } hsize
  | slotPush => exact hquiet (.modifyScope _ fun _ => rfl) hsize
  | slotWrite index value => exact hquiet (.updateBinding _ (Slot.name index) value) hsize
  | slotErase index => exact hquiet (.delete _ (Slot.name index)) hsize
  | closeBinding => exact hquiet (.modifyScope _ fun _ => rfl) hsize
  | openBlock => exact hquiet (.modifyScope _ fun _ => rfl) hsize
  | openImplementing => exact hquiet (.modifyScope _ fun _ => rfl) hsize
  | makeStore => exact hquiet (.addScope rfl) hsize
  | attachStore => exact hquiet (.attachStore _ _) hsize
  | closeBlock => exact hquiet (.markInitialized _ _ _) hsize
  | @closeSeeded pending self ref name store state values =>
      have hseeded : State.Undisturbed state (state.modifyScope store (Declaration.seed values)) :=
        .modifyScope store fun _ => rfl
      exact hquiet (hseeded.trans (.markInitialized _ _ _)) hsize
  -- What was pushed is popped again.
  | @enterStore pending self ref name store state =>
      have hsame := hquiet (.refl state) (Nat.le_refl _)
      rwa [← State.unwind_pushScope _ self state store] at hsame
  | @enterCall pending self state ref awaited interpreted verbs arguments brought =>
      have hscope := hquiet (.addScope (by rfl)) hsize
      rwa [← State.unwind_pushScope pending self _ state.graph.scopes.size] at hscope
  | @enterTurn pending self state placeholder index =>
      have hscope := hquiet (.addScope (by rfl)) hsize
      rwa [← State.unwind_pushScope pending self _ state.graph.scopes.size] at hscope
  | @enterFlow pending self state frame =>
      have hsame := hquiet (.refl state) (Nat.le_refl _)
      rwa [← State.unwind_pushFrame pending self state frame.name] at hsame
  | @enterFrame pending self state name room =>
      have hsame := hquiet (.refl state) (Nat.le_refl _)
      rwa [← State.unwind_pushFrame pending self state name] at hsame
  -- What was lent is given back.
  | @lend pending self state found owner owned lent =>
      subst owned
      have hback := Action.Loan.giveBack_take (State.owner_ne_of_isLent lent)
        (exist.lt_of_isLent lent)
      exact hquiet hback (by simp [Bracket.close])
  | _ => exact State.Undisturbed.refl _

end Move

/-! ## Evaluation -/

/-- What holds in an evaluation that began in a state: unwinding leads back to it. -/
structure Moment.UnwindsTo (start : State) (moment : Moment) : Prop where
  undisturbed : State.Undisturbed start moment.unwound
  exist : moment.state.UsesExist
  fits : LoansFit moment.pending moment.state.graph

theorem Moment.UnwindsTo.move {start : State} {allowed : EngineId → Statement → Prop}
    {moment moment' : Moment} (h : moment.UnwindsTo start) (move : Move allowed moment moment') :
    moment'.UnwindsTo start where
  undisturbed := h.undisturbed.trans (move.unwound h.exist h.fits)
  exist := move.sameModules.sameUses.usesExist h.exist
  fits := move.loansFit h.fits

/-- Unwinding to a state, as a discipline of evaluation under any watch. -/
def Discipline.unwinding (watch : Watch) (start : State) : Discipline watch :=
  .ofInvariant watch .any (Moment.UnwindsTo start) True (fun _ _ _ _ => trivial)
    (fun _ _ => ⟨fun _ _ => trivial, fun _ _ _ _ => trivial⟩) Moment.UnwindsTo.move

theorem Moment.UnwindsTo.start {state : State} (exist : state.UsesExist) (self : EngineId) :
    Moment.UnwindsTo state ⟨[], self, state⟩ :=
  ⟨.refl state, exist, by simp [LoansFit]⟩

/-- What is left when nothing is pending is not disturbed. -/
theorem Outcome.Within.undisturbed {α : Type} {start : State} {self : EngineId}
    {outcome : Outcome α} {cut : Prop} {blames : Failure → Prop}
    (h : outcome.Within cut (fun _ after => Moment.UnwindsTo start ⟨[], self, after⟩)
      (fun failure after => Moment.UnwindsTo start ⟨[], self, after⟩ ∧ blames failure)) :
    outcome.Leaves fun after => State.Undisturbed start after := by
  refine h.ends.mono ?_ ?_
  · intro value after hafter
    exact hafter.undisturbed
  · intro failure after hafter
    exact hafter.1.undisturbed

/-- A frame that is no block's leaves nothing disturbed, under whatever watch. -/
theorem inFlowFrame_undisturbed {state : State} (exist : state.UsesExist) (watch : Watch)
    (bound : Nat) (self : EngineId) (frame : FlowFrame) (statements : List Statement) :
    (Action.inFlowFrame self frame (executeUnder watch bound self statements) state).Leaves
      fun after => State.Undisturbed state after := by
  have knot := (Discipline.unwinding watch state).knot bound
  exact (knot.inFlowFrame (fun _ _ => trivial) frame state (.start exist self)).undisturbed

/-- The main program of an engine leaves nothing disturbed, under whatever watch. -/
theorem runMain_undisturbed {state : State} (exist : state.UsesExist) (watch : Watch) (bound : Nat)
    (self : EngineId) :
    (runMain (executeUnder watch bound) self state).Leaves
      fun after => State.Undisturbed state after := by
  apply Action.ends_bind
  apply Action.ends_bind
  exact inFlowFrame_undisturbed exist watch bound self .main _

/-- In every reachable state, an expression, a frame of statements or a call of a block that an
engine evaluates leaves all stacks of all engines and the flags of all scopes as they were, whether
it ends in a value or in a failure. -/
theorem evaluation_restores_stacks {state : State} (reachable : state.Reachable) (bound : Nat)
    (self : EngineId) :
    (∀ expression, (evaluate bound self expression state).Leaves
      fun after => State.Undisturbed state after) ∧
    (∀ statements, (execute bound self statements state).Leaves
      fun after => State.Undisturbed state after) ∧
    (∀ name verbs arguments,
      (Call.block (evaluate bound) (execute bound) self name verbs arguments state).Leaves
        fun after => State.Undisturbed state after) := by
  have hstart := Moment.UnwindsTo.start reachable.manned.uses self
  have knot := (Discipline.unwinding Watch.silent state).regimen.knot_silent bound
  refine ⟨?_, ?_, ?_⟩
  · intro expression
    exact (knot.evaluates trivial state hstart).undisturbed
  · intro statements
    exact (knot.runs (fun _ _ => trivial) state hstart).undisturbed
  · intro name verbs arguments
    exact (knot.block trivial trivial (fun _ _ => trivial) state hstart).undisturbed

/-- A script that has loaded a module, as an instance: whatever it runs then, calls of the module
included, the stacks of both engines are restored. -/
theorem evaluation_restores_stacks_of_import :
    ∃ state : State, state.Reachable ∧ (state.engine Script.main).uses = [1] ∧
      ∀ statements, (execute 50 Script.main statements state).Leaves
        fun after => State.Undisturbed state after := by
  let files := FileTree.putFile {} ["bir", "m.bir"] (.file "deep[] { deep() }".toUTF8)
  let start := State.initial {} files (.prepared []) "main.bir" "use \"m\"\ndeep()"
  have hends : ((Script.perform 20 .load start).state?).isSome = true := by decide +kernel
  obtain ⟨state, hstate⟩ := Option.isSome_iff_exists.1 hends
  have hreachable : state.Reachable := .performed (.initial ..) hstate
  refine ⟨state, hreachable, ?_, (evaluation_restores_stacks hreachable 50 Script.main).2.1⟩
  have huses : ((Script.perform 20 .load start).state?).map
      (fun state => (state.engine Script.main).uses) = some [1] := by decide +kernel
  rw [hstate] at huses
  simpa using huses

end Bir
