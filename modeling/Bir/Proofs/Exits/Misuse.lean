import Bir.Proofs.Regimen.Spelled
import Bir.Proofs.Reports.Frames

/-!
# Exits — `return` and `throw` outside blocks

Whether an exit is allowed is asked of the names on the call stack.  A source can only name a block
with what the scanner takes for a name, and that begins with a letter or an underscore, while the
frames of control flow have names in angle brackets.  So the names tell the frames apart.  This file
defines:

* `Stage.Comes` — a run comes from one stage to another, where blocks run what can be spelled;
* `Regimen.staged` and `LoadDiscipline.staged` — the points of a run are such stages;
* `Script.Visits` — the points of a step, those between two statements of a frame among them.

`exits_are_misuse_just_outside_blocks` is the result.
-/

namespace Bir

/-! ## Main programs -/

/-- A run comes from one stage to a moment with certain frames. -/
structure Stage.Comes (origin : Stage) (entered : List Frame) (moment : Moment) : Prop where
  leads : origin.Leads ⟨entered, moment⟩
  count : entered.length = frames moment.pending
  blocks : moment.state.graph.EveryBlock (Block.Runs (Statement.Throughout Law.spelled))

namespace Stage.Comes

variable {origin : Stage} {entered : List Frame} {moment moment' : Moment}

theorem move (h : origin.Comes entered moment)
    (move : Move (fun _ statement => statement.Throughout Law.spelled) moment moment')
    (plain : ¬ moment.Enters moment') : ∃ entered', origin.Comes entered' moment' := by
  obtain ⟨hleads, hcount, hblocks⟩ := h
  have hblocks' := move.runs (fun hstatement _ => hstatement.body) hblocks
  have hsound : Move (fun _ statement => statement.Sound) moment moment' :=
    move.mono fun _ _ hstatement => hstatement.mono Law.spelled_implies_sound
  cases move with
  | enterFlow => exact absurd ⟨rfl, Nat.lt_succ_self _⟩ plain
  | enterFrame => exact absurd ⟨rfl, Nat.lt_succ_self _⟩ plain
  | leaveFrame =>
      obtain ⟨frame, outer, rfl⟩ := List.exists_cons_of_length_eq_add_one hcount
      exact ⟨outer, hleads.tail .leave, Nat.succ.inj hcount, hblocks'⟩
  | _ => exact ⟨entered, hleads.tail (.move hsound rfl), hcount, hblocks'⟩

theorem enter (h : origin.Comes entered moment) {frame : Frame}
    (opens : frame.Opens Spelled moment) :
    origin.Comes (frame :: entered) (moment.enter frame) where
  leads := h.leads.tail (.enter opens)
  count := congrArg (· + 1) h.count
  blocks := by
    have hmove : Move (fun _ _ => False) moment (moment.enter frame) := opens.move
    exact hmove.runs (fun hnone => hnone.elim) h.blocks

theorem loadMove (h : origin.Comes [] moment) (move : LoadMove moment moment') :
    origin.Comes [] moment' where
  leads := h.leads.tail (.loadMove move)
  count := by
    have hcount := h.count
    cases move <;> exact hcount
  blocks := move.runs h.blocks

/-- What has been begun tells how many frames there are. -/
theorem nil_of_nil {pending : List Bracket} {self self' : EngineId} {state state' : State}
    (h : origin.Comes entered ⟨pending, self, state⟩)
    (h' : origin.Comes [] ⟨pending, self', state'⟩) : origin.Comes [] ⟨pending, self, state⟩ := by
  have hnil : entered = [] := List.length_eq_zero_iff.1 (h.count.trans h'.count.symm)
  exact hnil ▸ h

end Stage.Comes

/-- A watch finds stages that a run comes to from an origin, and only under a condition. -/
def Watch.FindsStaged (watch : Watch) (origin : Stage) (condition : Prop) : Prop :=
  ∀ entered pending self code state, origin.Comes entered ⟨pending, self, state⟩ →
    code.Fits FrameSpelled pending → watch self code state = true → condition

/-- A main program comes from stage to stage. -/
def Regimen.staged {watch : Watch} {origin : Stage} {condition : Prop}
    (finds : watch.FindsStaged origin condition) : Regimen watch :=
  .ofSpelled watch condition False (fun moment => ∃ entered, origin.Comes entered moment)
    (fun h _ code fits found => h.elim fun entered h => finds entered _ _ code _ h fits found)
    (fun h => h.elim fun _ h => h.blocks)
    (fun h move plain _ => h.elim fun _ h => h.move move plain)
    (fun _ opens h => h.elim fun _ h => ⟨_, h.enter opens⟩)
    False.elim False.elim

/-! ## Whole runs -/

/-- Where sources are loaded, no frame is entered. -/
def LoadDiscipline.staged {watch : Watch} {origin : Stage} {condition : Prop}
    (finds : watch.FindsStaged origin condition) : LoadDiscipline watch :=
  .ofSpelled watch condition (origin.Comes [])
    (by
      intro pending self state _ bound hcomes hprogram
      let R := Regimen.staged finds
      have hbody : R.body bound (frames pending + 1) self (state.engine self).program.statements :=
        hprogram
      have hstart : R.holds ⟨pending, self, state⟩ := ⟨⟨[], hcomes⟩, False.elim⟩
      refine (R.runMain_completes hstart hbody).ends.mono ?_ ?_
      · rintro _ after ⟨⟨entered, hcomes'⟩, -⟩
        exact hcomes'.nil_of_nil hcomes
      · rintro failure after ⟨⟨⟨entered, hcomes'⟩, -⟩, hstops, -⟩
        exact ⟨hcomes'.nil_of_nil hcomes, hstops⟩)
    (fun h found => finds _ _ _ .source _ h trivial found)
    fun h move => h.loadMove move

/-- The stage from which a step of a script begins. -/
def Stage.start (state : State) : Stage := ⟨[], ⟨[], Script.main, state⟩⟩

theorem Stage.Comes.start {state : State} (idle : state.Idle) :
    (Stage.start state).Comes [] ⟨[], Script.main, state⟩ where
  leads := .refl
  count := rfl
  blocks := idle.bodies.mono fun _ hruns => hruns.mono fun _ => idle.statements_spelled

/-- The points that a step comes to are stages. -/
theorem Script.Meets.staged {state : State} (idle : state.Idle)
    (manned : Moment.Manned ⟨[], main, state⟩) {bound : Nat} {step : Step} {self : EngineId}
    {code : Code} {point : State} (meets : Meets bound step state self code point) :
    ∃ entered pending, (Stage.start state).Comes entered ⟨pending, self, point⟩ ∧
      code.Fits FrameSpelled pending := by
  have hfinds : (Watch.point self code point).FindsStaged (Stage.start state)
      (∃ entered pending, (Stage.start state).Comes entered ⟨pending, self, point⟩ ∧
        code.Fits FrameSpelled pending) := by
    intro entered pending self' code' point' hcomes hfits hfound
    simp only [Watch.point, decide_eq_true_eq] at hfound
    obtain ⟨rfl, rfl, rfl⟩ := hfound
    exact ⟨entered, pending, hcomes, hfits⟩
  have hstep := (LoadDiscipline.staged hfinds).performs bound step state
    ⟨⟨idle, manned⟩, .start idle⟩
  obtain ⟨failure, after, ⟨-, hstops⟩, hstopped⟩ := hstep.of_isStopped meets
  exact hstops hstopped

/-! ## Between statements -/

/-- Statements of a frame are run one after the other, and none of them ends the frame. -/
inductive State.Passes (bound : Nat) (self : EngineId) : List Statement → State → State → Prop where
  | nil {state : State} : Passes bound self [] state state
  | cons {first : Statement} {rest : List Statement} {state between after : State}
      (passes : Evaluation.statement (evaluate bound) (execute bound) bound self first state =
        .done .next between)
      (others : Passes bound self rest between after) : Passes bound self (first :: rest) state after

/-- The states that a step of a script comes to, each with the engine in control: where it starts,
where something is about to be evaluated, run or loaded, and between two statements of a frame. -/
inductive Script.Visits (bound : Nat) (step : Step) (start : State) : EngineId → State → Prop where
  | start : Visits bound step start main start
  | meets {self : EngineId} {code : Code} {point : State}
      (meets : Meets bound step start self code point) : Visits bound step start self point
  | between {self : EngineId} {before after : List Statement} {point state : State} {turns : Nat}
      (meets : Meets bound step start self (.frame (before ++ after)) point)
      (passes : point.Passes turns self before state) : Visits bound step start self state

/-- Statements lead from stage to stage. -/
theorem Stage.Comes.passes {origin : Stage} {entered : List Frame} {pending : List Bracket}
    [Framed pending] {self : EngineId} {state after : State} {statements : List Statement}
    {bound : Nat} (h : origin.Comes entered ⟨pending, self, state⟩)
    (spelled : ∀ statement ∈ statements, statement.Throughout Law.spelled)
    (passes : state.Passes bound self statements after) :
    ∃ entered, origin.Comes entered ⟨pending, self, after⟩ := by
  induction passes generalizing entered with
  | nil => exact ⟨entered, h⟩
  | @cons first rest state between after passes others ih =>
      have hfinds : Watch.silent.FindsStaged origin True := fun _ _ _ _ _ _ _ _ => trivial
      let R := Regimen.staged hfinds
      have hfirst : R.Keeps pending self
          (Evaluation.statement (evaluate bound) (execute bound) bound self first) :=
        (R.knot_silent bound).statement (spelled first List.mem_cons_self)
      have hkept := hfirst state ⟨⟨entered, h⟩, False.elim⟩
      rw [passes] at hkept
      obtain ⟨entered', hcomes⟩ : ∃ entered, origin.Comes entered ⟨pending, self, between⟩ := hkept.1
      exact ih hcomes fun statement hmem => spelled statement (List.mem_cons_of_mem _ hmem)

theorem Script.Visits.staged {state : State} (idle : state.Idle)
    (manned : Moment.Manned ⟨[], main, state⟩) {bound : Nat} {step : Step} {self : EngineId}
    {point : State} (visits : Visits bound step state self point) :
    ∃ entered pending, (Stage.start state).Comes entered ⟨pending, self, point⟩ := by
  cases visits with
  | start => exact ⟨[], [], .start idle⟩
  | meets meets =>
      obtain ⟨entered, pending, hcomes, -⟩ := meets.staged idle manned
      exact ⟨entered, pending, hcomes⟩
  | between meets passes =>
      obtain ⟨entered, pending, hcomes, hframed, hspelled⟩ := meets.staged idle manned
      obtain ⟨entered', hcomes'⟩ := hcomes.passes
        (fun statement hmem => hspelled statement (List.mem_append_left _ hmem)) passes
      exact ⟨entered', pending, hcomes'⟩

/-! ## Exits -/

/-- What `return` and `throw` do with a value in a block. -/
def Exit.leave (exit : Exit) (value : Int64) : Action Evaluation.Flow :=
  match exit with
  | .return => pure (.ended value)
  | .throw => Action.fail (.uncaughtThrow value)

/-- An exit is refused in a state, and its expression is not evaluated, whatever it is. -/
def State.Refuses (state : State) (self : EngineId) (exit : Exit) : Prop :=
  ∀ evaluate run turns value keyword,
    Evaluation.statement evaluate run turns self (.exit exit value keyword) state =
      .failed (.ofCause (.controlFlowMisuse exit)) state

/-- An exit is let through in a state: its expression is evaluated, and the exit takes the value. -/
def State.Admits (state : State) (self : EngineId) (exit : Exit) : Prop :=
  ∀ evaluate run turns value keyword,
    Evaluation.statement evaluate run turns self (.exit exit value keyword) state =
      (evaluate self value >>= exit.leave) state

theorem State.refuses_of_outsideBlocks {state : State} {self : EngineId}
    (outside : (state.callStack self).outsideBlocks = true) (exit : Exit) :
    state.Refuses self exit := by
  intro evaluate run turns value keyword
  simp [Evaluation.statement, Evaluation.leave, outside, Action.fail]

theorem State.admits_of_insideBlock {state : State} {self : EngineId}
    (inside : (state.callStack self).outsideBlocks = false) (exit : Exit) :
    state.Admits self exit := by
  intro evaluate run turns value keyword
  simp only [Evaluation.statement, Evaluation.leave, inside]
  cases exit <;> rfl

/-- No exit is both refused and let through. -/
theorem State.Admits.not_refuses {state : State} {self : EngineId} {exit : Exit}
    (h : state.Admits self exit) : ¬ state.Refuses self exit := by
  intro hrefuses
  have hvalue := h (fun _ _ => pure 0) (fun _ _ => pure 0) 0 default default
  rw [hrefuses] at hvalue
  cases exit with
  | «return» => cases hvalue
  | throw => cases hvalue

/-! ## The result -/

/-- What a step of a script comes to is reached by entering and leaving frames.  Wherever this leads,
the call stack of the engine in control lists the frames that are entered, no other engine has any,
and a name begins with `<` just if its frame is one of control flow.  So `return` and `throw` are
refused, whatever their expression, just if no call and no `init` section is active; inside one the
expression is evaluated. -/
theorem exits_are_misuse_just_outside_blocks {state : State} (rest : state.AtRest) :
    (∀ bound step self point, Script.Visits bound step state self point →
      ∃ entered pending, (Stage.start state).Leads ⟨entered, ⟨pending, self, point⟩⟩) ∧
    ∀ entered moment, (Stage.start state).Leads ⟨entered, moment⟩ →
      (moment.state.callStack moment.self).innermostFirst = entered.map Frame.name ∧
      (∀ other, other ≠ moment.self → (moment.state.callStack other).frames = #[]) ∧
      (∀ frame ∈ entered, frame.name.toList.head? = some '<' ↔ frame.isFlow = true) ∧
      ∀ exit,
        (moment.state.Refuses moment.self exit ↔ ∀ frame ∈ entered, frame.isFlow = true) ∧
        (moment.state.Admits moment.self exit ↔ ∃ frame ∈ entered, frame.isFlow = false) := by
  obtain ⟨hidle, hmanned⟩ := rest.idle
  constructor
  · intro bound step self point hvisits
    obtain ⟨entered, pending, hcomes⟩ := hvisits.staged hidle hmanned
    exact ⟨entered, pending, hcomes.leads⟩
  · intro entered moment hleads
    have hstacked : Stage.Stacked ⟨entered, moment⟩ := (hidle.stacked hmanned).leads hleads
    refine ⟨hstacked.active, hstacked.lone.others, fun frame hframe => ?_, fun exit => ?_⟩
    · rw [← (hstacked.spelled frame hframe).isFlowName]
      simp [CallStack.isFlowName]
    · cases houtside : (moment.state.callStack moment.self).outsideBlocks with
      | true =>
          have hrefuses := State.refuses_of_outsideBlocks houtside exit
          rw [hstacked.outsideBlocks, List.all_eq_true] at houtside
          refine ⟨iff_of_true hrefuses houtside, iff_of_false (fun hadmits => ?_) ?_⟩
          · exact hadmits.not_refuses hrefuses
          · rintro ⟨frame, hframe, hcall⟩
            exact absurd (houtside frame hframe) (by simp [hcall])
      | false =>
          have hadmits := State.admits_of_insideBlock houtside exit
          rw [hstacked.outsideBlocks, List.all_eq_false] at houtside
          obtain ⟨frame, hframe, hcall⟩ := houtside
          refine ⟨iff_of_false hadmits.not_refuses fun hall => ?_, iff_of_true hadmits ?_⟩
          · exact hcall (hall frame hframe)
          · exact ⟨frame, hframe, by simpa using hcall⟩

/-- A branch in a block of a module, as an instance: the names go with control into the module, whose
engine lets `return` through there, while the importer refuses it outside. -/
theorem exits_are_misuse_of_import :
    ∃ state point : State, state.AtRest ∧ Script.Visits 20 .run state 1 point ∧
      (point.callStack 1).innermostFirst = ["<if>", "f", "<main>"] ∧
      point.Admits 1 .return ∧ state.Refuses Script.main .return := by
  let files := FileTree.putFile {} ["bir", "m.bir"] (.file "f[] { if 1 { return 7 } }".toUTF8)
  let start := State.initial {} files (.prepared []) "main.bir" "use \"m\"\nf()"
  let watch : Watch := fun self _ state =>
    decide (self = 1 ∧ (state.callStack self).innermostFirst = ["<if>", "f", "<main>"])
  have hstops : ((Script.perform 20 .load start).state?.map fun state =>
      (Script.performUnder watch 20 .run state).isStopped) = some true := by decide +kernel
  obtain ⟨state, hstate, hstopped⟩ := Option.map_eq_some_iff.1 hstops
  have hrest : state.AtRest := .performed (.initial ..) hstate
  obtain ⟨hcomes, hframes⟩ := exits_are_misuse_just_outside_blocks hrest
  obtain ⟨self, code, point, hfound, hmeets⟩ := Script.exists_meets hrest.idle.1.sound hstopped
  obtain ⟨rfl, hactive⟩ : self = 1 ∧ (point.callStack self).innermostFirst =
    ["<if>", "f", "<main>"] := by simpa [watch] using hfound
  obtain ⟨entered, pending, hleads⟩ := hcomes 20 .run 1 point (.meets hmeets)
  obtain ⟨hnames, -, htell, hexits⟩ := hframes entered _ hleads
  refine ⟨state, point, hrest, .meets hmeets, hactive, (hexits .return).2.2 ?_, ?_⟩
  · obtain ⟨frame, hframe, hname⟩ : ∃ frame ∈ entered, frame.name = "f" :=
      List.mem_map.1 (by simp [← hnames, hactive])
    refine ⟨frame, hframe, Bool.eq_false_iff.2 fun hflow => ?_⟩
    have hmark := (htell frame hframe).2 hflow
    simp [hname] at hmark
  · exact ((hframes [] _ .refl).2.2.2 .return).1.2 fun _ hmem => by cases hmem

end Bir
