import Bir.Proofs.Executing.Scenes
import Bir.Proofs.Regimen.Spelled
import Bir.Proofs.Reports.Frames
import Bir.Proofs.Slots

/-!
# Targets — the blocks whose slots are read and written

A slot operation takes the names on the call stack and looks for a block of the first name that stands
for one, from the scope in which its code is run.  So it acts on the block whose code is run, unless
another block of that name has been declared in a scope on the way.  This file defines:

* `Scene.Comes` — a run comes from one scene to another, where blocks run what can be spelled;
* `Regimen.scened` and `LoadDiscipline.scened` — the points of a run are such scenes;
* `Slot.on` — a slot operation on the store of a block.

`slots_are_those_of_executing_blocks` is the result, and `slots_are_captured_by_namesakes` has a block
that another one of its name takes the slots from.
-/

namespace Bir

/-! ## Main programs -/

/-- A run comes from one scene to a moment with certain activations. -/
structure Scene.Comes (origin : Scene) (active : List Activation) (moment : Moment) : Prop where
  leads : origin.Leads ⟨active, moment⟩
  staged : Scene.Staged ⟨active, moment⟩
  blocks : moment.state.graph.EveryBlock (Block.Runs (Statement.Throughout Law.spelled))
  sound : moment.state.Sound

namespace Scene.Comes

variable {origin : Scene} {active : List Activation} {moment moment' : Moment}

theorem move (h : origin.Comes active moment)
    (move : Move (fun _ statement => statement.Throughout Law.spelled) moment moment')
    (plain : ¬ moment.Enters moment') (running : Running moment.pending ∨ moment.Withdraws moment') :
    ∃ active', origin.Comes active' moment' := by
  suffices hnext : ∃ active', Scene.Next ⟨active, moment⟩ ⟨active', moment'⟩ by
    obtain ⟨active', hnext⟩ := hnext
    exact ⟨active', h.leads.tail hnext, h.staged.next hnext,
      move.runs (fun hstatement _ => hstatement.body) h.blocks,
      (move.mono fun _ _ hstatement => hstatement.mono Law.spelled_implies_sound).sound h.sound⟩
  have hcount := h.staged.count
  have hmove := move
  cases move with
  | enterFlow => exact absurd ⟨rfl, Nat.lt_succ_self _⟩ plain
  | enterFrame => exact absurd ⟨rfl, Nat.lt_succ_self _⟩ plain
  | leaveFrame =>
      obtain ⟨activation, outer, rfl⟩ := List.exists_cons_of_length_eq_add_one hcount
      exact ⟨outer, .leave⟩
  | _ => exact ⟨active, .move hmove rfl running⟩

theorem enter (h : origin.Comes active moment) {activation : Activation}
    (begins : activation.Begins True moment) (opens : activation.frame.Opens Spelled moment) :
    origin.Comes (activation :: active) (moment.enter activation.frame) := by
  have hmove : Move (fun _ _ => False) moment (moment.enter activation.frame) := opens.move
  exact ⟨h.leads.tail (.enter begins opens), h.staged.enter begins opens,
    hmove.runs (fun hnone => hnone.elim) h.blocks,
    (hmove.mono fun _ _ hnone => hnone.elim).sound h.sound⟩

theorem loadMove (h : origin.Comes [] moment) (move : LoadMove moment moment')
    (running : Running moment.pending) : origin.Comes [] moment' :=
  ⟨h.leads.tail (.loadMove move running), h.staged.loadMove move running, move.runs h.blocks,
    move.sound h.sound⟩

/-- What has been begun tells how many activations there are. -/
theorem nil_of_nil {pending : List Bracket} {self self' : EngineId} {state state' : State}
    (h : origin.Comes active ⟨pending, self, state⟩)
    (h' : origin.Comes [] ⟨pending, self', state'⟩) : origin.Comes [] ⟨pending, self, state⟩ := by
  have hnil : active = [] := List.length_eq_zero_iff.1 (h.staged.count.trans h'.staged.count.symm)
  exact hnil ▸ h

/-- Names stand for the same blocks when something has been evaluated. -/
theorem keeps {pending : List Bracket} {self : EngineId} {state : State}
    (h : origin.Comes active ⟨pending, self, state⟩) (watch : Watch) (bound : Nat)
    (expression : Expression) : (evaluateUnder watch bound self expression state).Leaves fun after =>
      ∀ name, after.callee? self name = state.callee? self name := by
  have hordered := h.staged.ordered
  have hcontained := evaluateUnder_contained (hordered.rest hordered.manned.self) h.sound watch bound
    expression
  exact hcontained.mono (fun _ _ h' => State.callee?_of_contained hordered h')
    fun _ _ h' => State.callee?_of_contained hordered h'

/-- Names stand for the same blocks where the stacks are lent. -/
theorem lends {pending : List Bracket} {self : EngineId} {state : State} {found : FoundBlock}
    (h : origin.Comes active ⟨pending, self, state⟩) (lent : Call.isLent state self found = true)
    (name : String) :
    (Action.Loan.take self (state.graph.block found.block).owner state).2.callee?
      (state.graph.block found.block).owner name = state.callee? self name :=
  have hordered := h.staged.ordered
  State.callee?_take hordered (State.owner_ne_of_isLent lent)
    (hordered.manned.uses.lt_of_isLent lent) name

end Scene.Comes

/-- A watch finds scenes that a run comes to from an origin, and only under a condition. -/
def Watch.FindsScenes (watch : Watch) (origin : Scene) (condition : Prop) : Prop :=
  ∀ active pending self code state, origin.Comes active ⟨pending, self, state⟩ → Running pending →
    watch self code state = true → condition

/-- A main program comes from scene to scene. -/
def Regimen.scened {watch : Watch} {origin : Scene} {condition : Prop}
    (finds : watch.FindsScenes origin condition) : Regimen watch :=
  .ofSpelled watch condition True (fun moment => ∃ active, origin.Comes active moment)
    (fun h running code _ found => h.elim fun active h =>
      finds active _ _ code _ h (running trivial) found)
    (fun h => h.elim fun _ h => h.blocks)
    (fun h move plain running => h.elim fun _ h => h.move move plain (running trivial))
    (fun begins opens h => h.elim fun _ h => ⟨_, h.enter begins opens⟩)
    (fun _ _ _ _ h bound expression => h.elim fun _ h => h.keeps watch bound expression)
    fun _ _ _ _ _ h lent => h.elim fun _ h => h.lends lent

/-! ## Whole runs -/

/-- Where sources are loaded, no activation is begun. -/
def LoadDiscipline.scened {watch : Watch} {origin : Scene} {condition : Prop}
    (finds : watch.FindsScenes origin condition) : LoadDiscipline watch :=
  .ofSpelled watch condition
    (fun moment => origin.Comes [] moment ∧ Running moment.pending)
    (by
      intro pending self state _ bound ⟨hcomes, hrunning⟩ hprogram
      let R := Regimen.scened finds
      have hbody : R.body bound (frames pending + 1) self (state.engine self).program.statements :=
        hprogram
      have hstart : R.holds ⟨pending, self, state⟩ := ⟨⟨[], hcomes⟩, fun _ => hrunning⟩
      refine (R.runMain_completes hstart hbody).ends.mono ?_ ?_
      · rintro _ after ⟨⟨active, hcomes'⟩, -⟩
        exact ⟨hcomes'.nil_of_nil hcomes, hrunning⟩
      · rintro failure after ⟨⟨⟨active, hcomes'⟩, -⟩, hstops, -⟩
        exact ⟨⟨hcomes'.nil_of_nil hcomes, hrunning⟩, hstops⟩)
    (fun h found => finds _ _ _ .source _ h.1 h.2 found)
    fun h move => ⟨h.1.loadMove move h.2, move.running h.2⟩

theorem Scene.Comes.start {state : State} (idle : state.Idle)
    (instanced : Moment.Instanced ⟨[], Script.main, state⟩)
    (spelled : state.graph.EveryBlock fun block => Spelled block.name) :
    (Scene.start state).Comes [] ⟨[], Script.main, state⟩ where
  leads := .refl
  staged := .start instanced spelled
  blocks := idle.bodies.mono fun _ hruns => hruns.mono fun _ => idle.statements_spelled
  sound := idle.sound

/-- Between the steps of a script all names of blocks are such as sources can spell. -/
theorem State.AtRest.spelled {state : State} (h : state.AtRest) :
    state.graph.EveryBlock fun block => Spelled block.name := by
  induction h with
  | initial config files source path content => exact initial_everyBlock config files source path content
  | @performed state state' bound step start ends ih =>
      have hfinds : Watch.silent.FindsScenes (Scene.start state) True :=
        fun _ _ _ _ _ _ _ _ => trivial
      have hstep := (LoadDiscipline.scened hfinds).performs bound step state
        ⟨start.idle, .start start.idle.1 start.reachable.instanced ih, trivial⟩
      rw [Script.performUnder_silent] at hstep
      have hends := Outcome.leaves_of_state? (hstep.mono (fun _ _ h' => h') fun _ _ h' => h'.1) ends
      exact hends.2.1.staged.spelled

/-- The points that a step comes to are scenes in which code is run. -/
theorem Script.Meets.scened {state : State} (rest : state.AtRest) {bound : Nat} {step : Step}
    {self : EngineId} {code : Code} {point : State}
    (meets : Meets bound step state self code point) :
    ∃ active pending, Running pending ∧
      (Scene.start state).Comes active ⟨pending, self, point⟩ := by
  have hfinds : (Watch.point self code point).FindsScenes (Scene.start state)
      (∃ active pending, Running pending ∧
        (Scene.start state).Comes active ⟨pending, self, point⟩) := by
    intro active pending self' code' point' hcomes hrunning hfound
    simp only [Watch.point, decide_eq_true_eq] at hfound
    obtain ⟨rfl, -, rfl⟩ := hfound
    exact ⟨active, pending, hrunning, hcomes⟩
  have hstep := (LoadDiscipline.scened hfinds).performs bound step state
    ⟨rest.idle, .start rest.idle.1 rest.reachable.instanced rest.spelled, trivial⟩
  obtain ⟨failure, after, ⟨-, hstops⟩, hstopped⟩ := hstep.of_isStopped meets
  exact hstops hstopped

/-! ## Slot operations -/

namespace Slot

/-- A slot operation on the store of a block. -/
def on (target : Option BlockRef) (op : SlotOp) (index value : Int64) : Action Int64 := fun state =>
  match target with
  | none => .failed (.ofCause (.missingInstance op)) state
  | some target =>
    let block := state.graph.block target
    match block.store with
    | none => .failed (.ofCause (.missingInstance op)) state
    | some store =>
      match op with
      | .read => read block.name store (name index) state
      | .write => write store (name index) value state
      | .delete => delete block.name store (name index) state

variable {state after : State} {self : EngineId} {pending : List Bracket} {active : List Activation}

theorem access_eq_on (op : SlotOp) (index value : Int64) :
    access self op index value state = on (target? state self) op index value state := rfl

/-- A slot operation on a block changes no scope but the store of the block. -/
theorem on_elsewhere (target : Option BlockRef) (op : SlotOp) (index value : Int64) (state : State) :
    (on target op index value state).Leaves fun after =>
      ∀ id, (∀ ref ∈ target, (state.graph.block ref).store ≠ some id) →
        after.graph.get id = state.graph.get id := by
  have hmodify : ∀ {store : ScopeId} {change : Scope → Scope} {id : ScopeId}, some store ≠ some id →
      (state.modifyScope store change).graph.get id = state.graph.get id := fun hother =>
    state.graph.get_modify_ne _ fun heq => hother (congrArg some heq)
  cases target with
  | none => exact fun _ _ => rfl
  | some ref =>
      cases hstore : (state.graph.block ref).store with
      | none =>
          simp only [on, hstore]
          exact fun _ _ => rfl
      | some store =>
          simp only [on, hstore]
          cases op with
          | read =>
              simp only [Slot.read]
              split
              · exact fun _ _ => rfl
              · exact fun _ _ => rfl
          | write =>
              rcases write_cases store (name index) value state with ⟨_, h⟩ | ⟨_, h, -⟩
              · simp only [h]
                exact fun _ _ => rfl
              · simp only [h]
                exact fun id hother => hmodify (hstore ▸ hother ref rfl)
          | delete =>
              rcases delete_cases (state.graph.block ref).name store (name index) state with
                ⟨_, h⟩ | ⟨-, h⟩
              · simp only [h]
                exact fun _ _ => rfl
              · simp only [h]
                exact fun id hother => hmodify (hstore ▸ hother ref rfl)

/-- Where stores have one owner, a slot operation on a block leaves the stores of all others alone. -/
theorem on_others (distinct : state.graph.Private) (target : Option BlockRef) (op : SlotOp)
    (index value : Int64) : (on target op index value state).Leaves fun after =>
      ∀ ref, target ≠ some ref → ∀ store ∈ (state.graph.block ref).store,
        after.graph.get store = state.graph.get store := by
  have hleave : ∀ {after : State}, (∀ id, (∀ ref ∈ target, (state.graph.block ref).store ≠ some id) →
      after.graph.get id = state.graph.get id) →
      ∀ ref, target ≠ some ref → ∀ store ∈ (state.graph.block ref).store,
        after.graph.get store = state.graph.get store := by
    intro after helsewhere ref hother store hstore
    refine helsewhere store fun owner howner hsame => hother ?_
    rw [← distinct.distinct hsame hstore]
    exact howner
  exact (on_elsewhere target op index value state).mono (fun _ _ h => hleave h) fun _ _ h => hleave h

/-- In a scene in which code is run, slot operations act on the block that its activations tell. -/
theorem target?_of_staged (staged : Scene.Staged ⟨active, ⟨pending, self, state⟩⟩)
    (running : Running pending)
    (names : (state.callStack self).innermostFirst =
      active.map fun activation => activation.frame.name) :
    target? state self = state.graph.actsOn? active := by
  change (state.callStack self).innermostFirst.findSome?
    (state.graph.lookup? (state.currentScope self)) = _
  rw [names]
  exact (staged.stands.carried running).findSome?_names staged.ordered.lookupsEnd staged.spelled

/-- Slot operations act on the same block when something has been evaluated. -/
theorem target?_of_contained (ordered : Moment.Ordered ⟨pending, self, state⟩)
    (contained : Moment.Contained state ⟨[.question], self, after⟩) :
    target? after self = target? state self := by
  have hengines : after.engines = state.engines := contained.unwinds.undisturbed.engines
  change (after.callStack self).innermostFirst.findSome? (after.callee? self) =
    (state.callStack self).innermostFirst.findSome? (state.callee? self)
  rw [State.callStack_congr hengines,
    funext (State.callee?_of_contained ordered contained)]

end Slot

/-! ## The result -/

/-- The call stack lists the frames of the activations. -/
theorem Scene.Leads.innermostFirst {state : State} (rest : state.AtRest) {active : List Activation}
    {pending : List Bracket} {self : EngineId} {point : State}
    (h : (Scene.start state).Leads ⟨active, ⟨pending, self, point⟩⟩) :
    (point.callStack self).innermostFirst =
      active.map fun activation => activation.frame.name := by
  have hstacked := (rest.idle.1.stacked rest.idle.2).leads h.stages
  simpa [Scene.stage, Function.comp_def] using hstacked.active

/-- **Slot operations act on the block whose code is run.**  Every point that a step of a script comes
to is a scene in which code is run.  There the call stack lists the frames of the activations, and
an activation has a block just if its frame is not one of control flow.  A slot operation that gets
its arguments evaluates them, wherever this leads, and then acts on the store of one block and leaves
the stores of all others alone.  This is the block whose code is run just if no scope that was entered
for it or since declares its name; or else it is the first block of its name there. -/
theorem slots_are_those_of_executing_blocks {state : State} (rest : state.AtRest) :
    (∀ bound step self code point, Script.Meets bound step state self code point →
      ∃ active pending, Running pending ∧
        (Scene.start state).Leads ⟨active, ⟨pending, self, point⟩⟩) ∧
    ∀ active pending self point, (Scene.start state).Leads ⟨active, ⟨pending, self, point⟩⟩ →
      Running pending →
      (point.callStack self).innermostFirst = active.map (fun activation => activation.frame.name) ∧
      (∀ activation ∈ active, activation.block = none ↔ activation.frame.isFlow = true) ∧
      (∀ ref ∈ executing? active, point.graph.actsOn? active = some ref ↔
        ∀ id ∈ reach active, (point.graph.get id).declares (point.graph.block ref).name = false) ∧
      ∀ bound op arguments, op.arity ≤ arguments.length →
        let target := point.graph.actsOn? active
        let evaluated := Evaluator.all (evaluate bound) self arguments
        Call.slot (evaluate bound) self op arguments point =
            (evaluated >>= fun values => Slot.on target op (values.headD 0) (values.tail.headD 0))
              point ∧
          (evaluated point).Leaves fun between => ∀ index value,
            (Slot.on target op index value between).Leaves fun after =>
              ∀ ref, target ≠ some ref → ∀ store ∈ (between.graph.block ref).store,
                after.graph.get store = between.graph.get store := by
  have hstart := Scene.Comes.start rest.idle.1 rest.reachable.instanced rest.spelled
  constructor
  · intro bound step self code point hmeets
    obtain ⟨active, pending, hrunning, hcomes⟩ := hmeets.scened rest
    exact ⟨active, pending, hrunning, hcomes.leads⟩
  · intro active pending self point hleads hrunning
    have hstaged : Scene.Staged ⟨active, ⟨pending, self, point⟩⟩ := hleads.staged hstart.staged
    have hnames := hleads.innermostFirst rest
    have hsound : point.Sound :=
      (hleads.stages.moments.instanced rest.reachable.instanced rest.reachable.sound).2
    have hcarried := hstaged.stands.carried hrunning
    refine ⟨hnames, hstaged.blocks,
      fun ref href => hcarried.actsOn?_eq_executing_iff hstaged.ordered.acyclic href, ?_⟩
    intro bound op arguments hlength target evaluated
    constructor
    · have hcontained := arguments_contained (hstaged.ordered.rest hstaged.ordered.manned.self) hsound
        bound arguments
      unfold Call.slot
      rw [if_neg (Nat.not_lt.2 hlength)]
      refine Action.bind_congr (hcontained.mono (fun values between h => ?_) fun _ _ _ => trivial)
      rw [Slot.access_eq_on, Slot.target?_of_contained hstaged.ordered h,
        Slot.target?_of_staged hstaged hrunning hnames]
    · have hevaluated : (evaluated point).Leaves fun between =>
          Moment.Leads ⟨pending, self, point⟩ ⟨pending, self, between⟩ :=
        Moment.leads_of_arguments hsound bound arguments
      have hprivate : ∀ {between}, Moment.Leads ⟨pending, self, point⟩ ⟨pending, self, between⟩ →
          between.graph.Private := fun h => (h.instanced hstaged.instanced hsound).1.isPrivate
      exact hevaluated.mono (fun _ _ h index value => Slot.on_others (hprivate h) target op index value)
        fun _ _ h index value => Slot.on_others (hprivate h) target op index value

/-- A branch in a block of a module, as an instance: a slot is read in the store of that block. -/
theorem slots_are_those_of_executing_blocks_of_import :
    ∃ (state point : State) (active : List Activation) (pending : List Bracket), state.AtRest ∧
      (∃ code, Script.Meets 20 .run state 1 code point) ∧
      (Scene.start state).Leads ⟨active, ⟨pending, 1, point⟩⟩ ∧ Running pending ∧
      (point.callStack 1).innermostFirst = ["<if>", "cell", "<main>"] ∧
      executing? active = some ⟨1, 1⟩ ∧ point.graph.actsOn? active = some ⟨1, 1⟩ ∧
      Call.slot (evaluate 20) 1 .read [.integer 0 .synthetic] point = .done 5 point := by
  let files := FileTree.putFile {} ["bir", "m.bir"]
    (.file "cell[] { init { $write(0, 5) } if 1 { return $read(0) } }".toUTF8)
  let start := State.initial {} files (.prepared []) "main.bir" "use \"m\"\ncell()"
  let watch : Watch := fun self _ state => decide (self = 1 ∧
    (state.callStack self).innermostFirst = ["<if>", "cell", "<main>"] ∧
    Slot.target? state self = some ⟨1, 1⟩ ∧ (state.graph.get 1).parents = [] ∧
    (state.graph.block ⟨1, 1⟩).store = some 2 ∧
    ((state.graph.get 2).binding? (Slot.name 0)).map Binding.value = some 5)
  have hstops : ((Script.perform 20 .load start).state?.map fun state =>
      (Script.performUnder watch 20 .run state).isStopped) = some true := by decide +kernel
  obtain ⟨state, hstate, hstopped⟩ := Option.map_eq_some_iff.1 hstops
  have hrest : state.AtRest := .performed (.initial ..) hstate
  obtain ⟨hcomes, hscenes⟩ := slots_are_those_of_executing_blocks hrest
  obtain ⟨self, code, point, hfound, hmeets⟩ := Script.exists_meets hrest.idle.1.sound hstopped
  obtain ⟨rfl, hnames, htarget, houtermost, hstore, hslot⟩ := of_decide_eq_true hfound
  obtain ⟨active, pending, hrunning, hleads⟩ := hcomes _ _ _ _ _ hmeets
  obtain ⟨hframes, -, -, hslots⟩ := hscenes active pending 1 point hleads hrunning
  have hstaged : Scene.Staged ⟨active, ⟨pending, 1, point⟩⟩ :=
    hleads.staged (.start hrest.reachable.instanced hrest.spelled)
  have hacts : point.graph.actsOn? active = some ⟨1, 1⟩ :=
    (Slot.target?_of_staged hstaged hrunning hframes).symm.trans htarget
  have hexecuting := (hstaged.stands.carried hrunning).executing?_of_actsOn? hacts houtermost
  obtain ⟨binding, hbinding, hvalue⟩ := Option.map_eq_some_iff.1 hslot
  have hread := (hslots 20 .read [.integer 0 .synthetic] (Nat.le_refl 1)).1
  have hargument : Evaluator.all (evaluate 20) 1 [.integer 0 .synthetic] point = .done [0] point := rfl
  rw [Action.bind_apply, hargument] at hread
  refine ⟨state, point, active, pending, hrest, ⟨code, hmeets⟩, hleads, hrunning, hnames, hexecuting,
    hacts, hread.trans ?_⟩
  simp [Slot.on, Slot.read, hacts, hstore, hbinding, hvalue]

/-- A block that declares another one of its own name reads the slots of that one from then on. -/
theorem slots_are_captured_by_namesakes :
    ∃ (state point after : State) (active : List Activation) (pending : List Bracket)
      (argument : Expression) (keyword : Position), state.AtRest ∧
      Script.Meets 20 .run state Script.main (.expression (.slot .read [argument] keyword)) point ∧
      (Scene.start state).Leads ⟨active, ⟨pending, Script.main, point⟩⟩ ∧ Running pending ∧
      executing? active = some ⟨0, 1⟩ ∧ (point.graph.block ⟨0, 1⟩).store = some 1 ∧
      Slot.read "f" 1 (Slot.name 0) point = .done 1 point ∧
      Call.slot (evaluate 20) Script.main .read [argument] point = .done 2 after := by
  let start := State.initial {} {} (.prepared []) "main.bir"
    ("f[] { init { $write(0, 1) } f[] { init { $write(0, 2) } } return $read(0) } " ++
      "let x = f()")
  let watch : Watch := fun self code state =>
    match code with
    | .expression (.slot .read arguments _) => decide (arguments.length = 1 ∧ self = Script.main ∧
        (state.callStack self).innermostFirst = ["f", "<main>"] ∧
        (state.graph.get (state.currentScope self)).parents = [1, 0] ∧
        (state.graph.get 1).parents = [0] ∧ state.graph.own? 0 "f" = some ⟨0, 1⟩ ∧
        (state.graph.block ⟨0, 1⟩).store = some 1 ∧
        ((state.graph.get 1).binding? (Slot.name 0)).map Binding.value = some 1 ∧
        (Call.slot (evaluate 20) self .read arguments state).result?.bind Except.toOption = some 2)
    | _ => false
  have hstops : ((Script.perform 20 .load start).state?.map fun state =>
      (Script.performUnder watch 20 .run state).isStopped) = some true := by decide +kernel
  obtain ⟨state, hstate, hstopped⟩ := Option.map_eq_some_iff.1 hstops
  have hrest : state.AtRest := .performed (.initial ..) hstate
  obtain ⟨self, code, point, hfound, hmeets⟩ := Script.exists_meets hrest.idle.1.sound hstopped
  obtain ⟨active, pending, hrunning, hcomes⟩ := hmeets.scened hrest
  simp only [watch] at hfound
  split at hfound
  · rename_i arguments keyword
    obtain ⟨hone, rfl, hnames, hparents, hstands, hown, hstore, hslot, hvalues⟩ :=
      of_decide_eq_true hfound
    obtain ⟨argument, rfl⟩ := List.length_eq_one_iff.1 hone
    have hexecuting := (hcomes.staged.stands.carried hrunning).executing?_of_call
      ((hcomes.leads.innermostFirst hrest).symm.trans hnames) ⟨'f', [], rfl, by decide⟩ hparents
      hstands hown
    obtain ⟨binding, hbinding, hvalue⟩ := Option.map_eq_some_iff.1 hslot
    cases hread : Call.slot (evaluate 20) Script.main .read [argument] point with
    | done value after =>
        obtain rfl : value = 2 := by
          simpa [hread, Outcome.result?, Except.toOption] using hvalues
        exact ⟨state, point, after, active, pending, argument, keyword, hrest, hmeets, hcomes.leads,
          hrunning, hexecuting, hstore, by simp [Slot.read, hbinding, hvalue], hread⟩
    | failed failure after => simp [hread, Outcome.result?, Except.toOption] at hvalues
    | exhausted => simp [hread, Outcome.result?] at hvalues
  · cases hfound

end Bir
