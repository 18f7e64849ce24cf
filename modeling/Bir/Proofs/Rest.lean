import Bir.Proofs.Frames
import Bir.Proofs.Stacks
import Bir.Proofs.Within

/-!
# Rest — states in which no program runs

Sources are loaded, and main programs are started, while no frame is on any call stack.  From there
on all that runs was declared in programs that have been read, and one call stack goes with control.
This file defines:

* `State.AtRest` — the states that the steps of a script lead to, each at its end;
* `State.statements` and `State.nesting` — what stands in the programs of a state;
* `State.Idle` — no program runs, and blocks run what stands in programs;
* `Moment.Underway` — what is known of the run of a main program that began in an idle state.
-/

namespace Bir

/-- The states that the steps of a script lead to, one after the other and each to its end. -/
inductive State.AtRest : State → Prop where
  | initial (config : Config) (files : FileTree) (source : Source) (path : Path)
      (content : String) : AtRest (State.initial config files source path content)
  | performed {state state' : State} {bound : Nat} {step : Script.Step} (start : AtRest state)
      (ends : (Script.perform bound step state).state? = some state') : AtRest state'

theorem State.AtRest.reachable {state : State} (h : state.AtRest) : state.Reachable := by
  induction h with
  | initial config files source path content => exact .initial config files source path content
  | performed _ ends ih => exact .performed ih ends

/-! ## Programs -/

namespace State

/-- The statements that stand in the programs of a state. -/
def statements (state : State) : List Statement :=
  (List.range state.engines.size).flatMap fun id =>
    (state.engine id).program.statements.flatMap Statement.within

/-- How deep bodies are nested at most in a main program, a block or an `init` section. -/
def nesting (state : State) : Nat := (state.statements.map Statement.nesting).foldr max 0

theorem mem_statements {state : State} {statement : Statement} :
    statement ∈ state.statements ↔
      ∃ id, ∃ first ∈ (state.engine id).program.statements, statement ∈ first.within := by
  simp only [statements, List.mem_flatMap, List.mem_range]
  constructor
  · rintro ⟨id, -, first, hfirst, hmem⟩
    exact ⟨id, first, hfirst, hmem⟩
  · rintro ⟨id, first, hfirst, hmem⟩
    refine ⟨id, ?_, first, hfirst, hmem⟩
    rcases Nat.lt_or_ge id state.engines.size with hlt | hge
    · exact hlt
    · rw [state.engine_of_size_le hge] at hfirst
      cases hfirst

theorem mem_statements_of_program {state : State} {id : EngineId} {statement : Statement}
    (h : statement ∈ (state.engine id).program.statements) : statement ∈ state.statements :=
  mem_statements.2 ⟨id, statement, h, statement.mem_within_self⟩

theorem mem_statements_of_body {state : State} {statement first : Statement}
    {body : List Statement} (h : statement ∈ state.statements) (hbody : body ∈ statement.bodies)
    (hfirst : first ∈ body) : first ∈ state.statements := by
  obtain ⟨id, outer, houter, hmem⟩ := mem_statements.1 h
  exact mem_statements.2 ⟨id, outer, houter, Statement.mem_within_trans hbody hfirst hmem⟩

/-- A law that holds of all programs holds of all statements in them. -/
theorem statements_throughout {state : State} {law : Law}
    (programs : ∀ id, ∀ first ∈ (state.engine id).program.statements, first.Throughout law)
    {statement : Statement} (h : statement ∈ state.statements) : statement.Throughout law := by
  obtain ⟨id, first, hfirst, hwithin⟩ := mem_statements.1 h
  have hlaw := programs id first hfirst
  clear h hfirst
  induction first using Statement.bodies_induction with
  | step first ih =>
      rcases Statement.mem_within.1 hwithin with rfl | ⟨body, hbody, inner, hinner, hin⟩
      · exact hlaw
      · exact ih body hbody inner hinner hin (hlaw.body hbody inner hinner)

theorem nesting_le {state : State} {statement : Statement} (h : statement ∈ state.statements) :
    statement.nesting ≤ state.nesting :=
  List.le_max_of_le (List.mem_map_of_mem h) (Nat.le_refl _)

theorem SameModules.statements {state state' : State} (h : SameModules state state') :
    state'.statements = state.statements := by
  simp only [State.statements, h.size, h.program]

theorem SameModules.nesting {state state' : State} (h : SameModules state state') :
    state'.nesting = state.nesting := by
  rw [State.nesting, State.nesting, h.statements]

end State

/-- What stands in the programs of a state may be run. -/
def Rule.within (state : State) : Rule where
  expression _ := True
  statement statement := statement ∈ state.statements
  operand _ _ := trivial
  part _ _ := trivial
  nested h hbody _ hfirst := State.mem_statements_of_body h hbody hfirst

/-! ## Idle states -/

/-- No program runs: the call stacks of all engines are empty.  Blocks run what stands in programs,
and these are as they were read. -/
structure State.Idle (state : State) : Prop where
  callStacks : ∀ id < state.engines.size,
    state.callStack id = { limit := some state.config.callLimit }
  read : ∀ id, (state.engine id).program = {} ∨
    Program.ofSource (state.engine id).content = .ok (state.engine id).program
  bodies : state.graph.EveryBlock (Block.Runs (· ∈ state.statements))
  sound : state.Sound

namespace State.Idle

variable {state state' : State}

/-- What stands in programs is sound. -/
theorem statements_sound (h : state.Idle) {statement : Statement}
    (hmem : statement ∈ state.statements) : statement.Sound :=
  statements_throughout h.sound.programs hmem

/-- What an evaluation leaves undisturbed stays idle, if blocks run nothing new. -/
theorem of_undisturbed (h : state.Idle) (same : State.Undisturbed state state')
    (bodies : state'.graph.EveryBlock (Block.Runs (· ∈ state.statements))) (sound : state'.Sound) :
    state'.Idle where
  callStacks id hid := by
    rw [same.engines] at hid
    rw [callStack_congr same.engines, same.config]
    exact h.callStacks id hid
  read id := by
    rw [engine_congr same.engines]
    exact h.read id
  bodies := by
    rw [(SameModules.of_engines same.engines).statements]
    exact bodies
  sound := sound

/-- A main program leaves all as it was but for scopes and the console. -/
theorem runMain (h : state.Idle) (exist : state.UsesExist) (watch : Watch) (bound : Nat)
    (self : EngineId) :
    (Bir.runMain (executeUnder watch bound) self state).Leaves fun after =>
      after.Idle ∧ State.Undisturbed state after := by
  let D := Discipline.ofInvariant watch (Rule.within state)
    (fun moment => moment.state.graph.EveryBlock (Block.Runs (· ∈ state.statements)) ∧
      moment.state.Sound)
    True (fun _ _ _ _ => trivial) (fun h' => h'.1.block Block.Runs.missing _ _ _) fun h' move =>
      ⟨move.runs (fun hmem body hbody inner hinner => mem_statements_of_body hmem hbody hinner) h'.1,
        (move.mono fun _ _ hmem => h.statements_sound hmem).sound h'.2⟩
  have hallowed : ∀ statement ∈ (state.engine self).program.statements,
      statement ∈ state.statements := fun _ => mem_statements_of_program
  have hstart : D.holds ⟨[], self, state⟩ := ⟨h.bodies, h.sound⟩
  have hmain := D.runMain_completes bound hallowed hstart
  refine ((runMain_undisturbed exist watch bound self).and hmain).mono ?_ ?_
  · rintro _ after ⟨hsame, hbodies, hsound⟩
    exact ⟨h.of_undisturbed hsame hbodies hsound, hsame⟩
  · rintro failure after ⟨hsame, ⟨hbodies, hsound⟩, -⟩
    exact ⟨h.of_undisturbed hsame hbodies hsound, hsame⟩

/-- Between whole programs no program runs. -/
theorem runMain_rests (h : state.Idle) {pending : List Bracket} {self : EngineId}
    (manned : Moment.Manned ⟨pending, self, state⟩) (watch : Watch) (bound : Nat) :
    (Bir.runMain (executeUnder watch bound) self state).Leaves fun after =>
      after.Idle ∧ Moment.Manned ⟨pending, self, after⟩ := by
  have hrest : ∀ {after : State}, after.Idle ∧ State.Undisturbed state after →
      after.Idle ∧ Moment.Manned ⟨pending, self, after⟩ := by
    rintro after ⟨hidle, hsame⟩
    exact ⟨hidle, manned.of_sameUses (.of_engines hsame.engines) fun _ => .inl⟩
  exact (h.runMain manned.uses watch bound self).mono (fun _ _ => hrest) fun _ _ => hrest

/-- Statements stand where they stood while sources are loaded. -/
theorem statements_loadMove {moment moment' : Moment} (h : moment.state.Idle)
    (move : LoadMove moment moment') {statement : Statement}
    (hmem : statement ∈ moment.state.statements) : statement ∈ moment'.state.statements := by
  obtain ⟨id, first, hfirst, hwithin⟩ := mem_statements.1 hmem
  refine mem_statements.2 ⟨id, first, ?_, hwithin⟩
  cases move with
  | @read pending self state program parsed =>
      -- A text that is read again is the same program again.
      rw [engine_modifyEngine]
      split
      · rename_i hself
        obtain ⟨rfl, -⟩ := hself
        rcases h.read self with hempty | hread
        · rw [hempty] at hfirst
          cases hfirst
        · have hsame : program = (state.engine self).program := by
            simpa [parsed] using hread
          exact hsame ▸ hfirst
      · exact hfirst
  | @openModule pending self state path content =>
      rw [engine_addEngine]
      split
      · rename_i hid
        rw [state.engine_of_size_le (Nat.le_of_eq hid.symm)] at hfirst
        cases hfirst
      · exact hfirst
  | expose =>
      rw [engine_expose]
      split
      · exact hfirst
      · exact hfirst
  | _ => exact hfirst

theorem loadMove {moment moment' : Moment} (h : moment.state.Idle)
    (move : LoadMove moment moment') : moment'.state.Idle where
  callStacks id hid := by
    cases move with
    | read =>
        rw [callStack, engine_modifyEngine_congr _ _ Engine.callStack (by intro _; rfl)]
        exact h.callStacks id (by simpa using hid)
    | @openModule pending self state path content =>
        rw [callStack, engine_addEngine]
        split
        · rfl
        · rename_i hother
          exact h.callStacks id ((lt_addEngine path content hid).resolve_right hother)
    | expose =>
        rw [callStack, engine_expose_congr Engine.callStack (by intro _ _; rfl)]
        exact h.callStacks id (by simpa using hid)
    | _ => exact h.callStacks id hid
  read id := by
    cases move with
    | @read pending self state program parsed =>
        rw [engine_modifyEngine]
        split
        · rename_i hself
          obtain ⟨rfl, -⟩ := hself
          exact Or.inr parsed
        · exact h.read id
    | openModule =>
        rw [engine_addEngine]
        split
        · exact Or.inl rfl
        · exact h.read id
    | expose =>
        rw [engine_expose]
        split
        · exact h.read id
        · exact h.read id
    | _ => exact h.read id
  bodies := (move.runs h.bodies).mono fun _ hblock =>
    hblock.mono fun _ => h.statements_loadMove move
  sound := move.sound h.sound

theorem initial (config : Config) (files : FileTree) (source : Source) (path : Path)
    (content : String) : (State.initial config files source path content).Idle where
  callStacks id hid := by
    have hmain : id = 0 := by simpa [State.initial] using hid
    rw [hmain]
    simp [State.initial, callStack, engine_addEngine]
    rfl
  read id := by
    refine Or.inl ?_
    simp only [State.initial, engine_addEngine]
    split
    · rfl
    · rfl
  bodies := initial_everyBlock config files source path content
  sound := initial_sound config files source path content

end State.Idle

/-- Where no program runs, none runs after a move that loads sources. -/
theorem Moment.idle_loadMove {moment moment' : Moment}
    (h : moment.state.Idle ∧ moment.Manned) (move : LoadMove moment moment') :
    moment'.state.Idle ∧ moment'.Manned :=
  ⟨h.1.loadMove move, h.2.loadMove move⟩

/-- A step of a script leads from an idle state to an idle state. -/
def LoadDiscipline.idle (watch : Watch) : LoadDiscipline watch where
  holds moment := moment.state.Idle ∧ moment.Manned
  reports _ _ := True
  main bound h :=
    (h.1.runMain_rests h.2 watch bound).mono (fun _ _ h' => h') fun _ _ h' => ⟨h', trivial⟩
  halt _ _ := trivial
  loadMove := Moment.idle_loadMove
  unread _ _ := trivial
  missing _ _ _ := trivial
  returned _ := trivial
  passed _ := trivial
  still _ _ := trivial

/-- No program runs between the steps of a script. -/
theorem State.AtRest.idle {state : State} (h : state.AtRest) :
    state.Idle ∧ Moment.Manned ⟨[], Script.main, state⟩ := by
  induction h with
  | initial config files source path content =>
      exact ⟨.initial config files source path content, initial_manned ..⟩
  | @performed state state' bound step start ends ih =>
      have hstep := (LoadDiscipline.idle Watch.silent).performs bound step state ih
      rw [Script.performUnder_silent] at hstep
      exact Outcome.leaves_of_state? (hstep.mono (fun _ _ h' => h') fun _ _ h' => h'.1) ends

/-! ## Main programs -/

/-- What is known of the run of a main program that began in an idle state. -/
structure Moment.Underway (start : State) (moment : Moment) : Prop where
  same : State.SameModules start moment.state
  config : moment.state.config = start.config
  manned : moment.Manned
  bodies : moment.state.graph.EveryBlock (Block.Runs (· ∈ start.statements))
  /-- There are as many frames as the run has entered and not left. -/
  depth : (moment.state.callStack moment.self).depth = frames moment.pending
  limit : (moment.state.callStack moment.self).limit = some start.config.callLimit
  calls : (moment.state.callStack moment.self).calls ≤ start.config.callLimit

namespace Moment.Underway

variable {start : State} {moment moment' : Moment}

theorem start_of_idle (idle : start.Idle) {self : EngineId}
    (manned : Moment.Manned ⟨[], self, start⟩) : Moment.Underway start ⟨[], self, start⟩ where
  same := .of_engines rfl
  config := rfl
  manned := manned
  bodies := idle.bodies
  depth := by
    rw [idle.callStacks self manned.self]
    rfl
  limit := by rw [idle.callStacks self manned.self]
  calls := by
    rw [idle.callStacks self manned.self]
    exact Nat.zero_le _

theorem move (h : moment.Underway start) {allowed : EngineId → Statement → Prop}
    (move : Move allowed moment moment')
    (within : ∀ self statement, allowed self statement → statement ∈ start.statements) :
    moment'.Underway start := by
  have hsame := h.same.trans move.sameModules
  have hconfig := move.config.trans h.config
  have hmanned := h.manned.move move
  have hbodies := move.runs
    (fun hmem body hbody inner => State.mem_statements_of_body (within _ _ hmem) hbody) h.bodies
  suffices hstack : (moment'.state.callStack moment'.self).depth = frames moment'.pending ∧
      (moment'.state.callStack moment'.self).limit = some start.config.callLimit ∧
      (moment'.state.callStack moment'.self).calls ≤ start.config.callLimit from
    ⟨hsame, hconfig, hmanned, hbodies, hstack.1, hstack.2.1, hstack.2.2⟩
  have hdepth := h.depth
  have hlimit := h.limit
  have hcalls := h.calls
  have hturn := move.turn h.manned
  revert hturn hdepth
  generalize frames moment.pending = open'
  generalize frames moment'.pending = open''
  generalize moment.state.callStack moment.self = stack at hlimit hcalls ⊢
  generalize moment'.state.callStack moment'.self = stack'
  intro hdepth hturn
  cases hturn with
  | same => exact ⟨hdepth, hlimit, hcalls⟩
  | flow frame => exact ⟨by simp [hdepth], hlimit, by simpa using hcalls⟩
  | call name room =>
      -- A call is entered below the limit, where there are no more calls than frames.
      have hroom := CallStack.depth_lt_of_room hlimit room
      have hfewer := stack.calls_le_depth
      have hpushed := stack.calls_push_le name
      exact ⟨by simp [hdepth], hlimit, by omega⟩
  | leave => exact ⟨by simp [hdepth], hlimit, stack.calls_pop_le.trans hcalls⟩

theorem enter (h : moment.Underway start) {frame : Frame}
    (opens : frame.Opens (fun _ => True) moment) : (moment.enter frame).Underway start := by
  have hmove : Move (fun _ _ => False) moment (moment.enter frame) := opens.move
  exact h.move hmove fun _ _ hnone => hnone.elim

end Moment.Underway

end Bir
