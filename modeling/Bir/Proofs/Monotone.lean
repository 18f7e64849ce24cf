import Bir.Proofs.Discipline.Invariant

/-!
# Monotonicity — what a run loses under a watch or a bound

A watch that stops a run, or a bound that cuts it short, loses the rest of it and changes nothing
else.  What the rest would have been is known of runs under other watches and with other bounds,
which stand for what is lost.  This file defines:

* `Loss` — the ways in which an outcome may be lost, and what answers one that is stopped;
* `Outcome.UpTo` — an outcome is what some others are, or it is lost and one of these answers it.

Every construct is monotone in the evaluations in it, so with a finer watch and a greater bound a
run comes to the same, or no longer loses what it lost: `Loss.Refines.performUnder_upTo`.
-/

namespace Bir

/-- The ways in which an outcome may be lost: stopped for certain causes, or cut short.  One that is
stopped is answered by the outcome of another run. -/
structure Loss where
  stopped : Failure.Cause → Prop
  cut : Prop
  /-- Whether an answer may be cut short. -/
  spent : Prop
  /-- Whether an answer may be a success. -/
  spared : Prop
  /-- The failures that an answer may be. -/
  kept : Failure → Prop
  /-- Loading passes such causes on as they are. -/
  passed : ∀ {failure : Failure} {name}, stopped failure.cause →
    Loading.ofModule name failure = failure
  /-- A success may go on to anything. -/
  free : spared → spent ∧ ∀ failure, kept failure
  place : ∀ {failure} (position : Position), kept failure → kept (failure.place position)
  attach : ∀ {failure : Failure} (report : Unit → Failure.Report), kept failure →
    kept (failure.attach report)
  handed : ∀ {failure} (name : String), kept failure → kept (Loading.ofModule name failure)

/-- An outcome answers one that is stopped. -/
def Outcome.Answers (loss : Loss) {α : Type} (outcome : Outcome α) : Prop :=
  outcome.Within loss.spent (fun _ _ => loss.spared) fun failure _ => loss.kept failure

/-- An outcome is what others are, or it is lost. -/
inductive Outcome.UpTo (loss : Loss) {ι α : Type} (outcome : Outcome α) (others : ι → Outcome α) :
    Prop where
  | same (same : ∀ i, others i = outcome)
  | stopped {failure state} (ended : outcome = .failed failure state)
      (stopped : loss.stopped failure.cause) (answered : ∃ i, (others i).Answers loss)
  | cut (ended : outcome = .exhausted) (cut : loss.cut)

/-- What is made of an outcome is what is made of the others, or it is lost as well. -/
theorem Outcome.UpTo.wrap {loss : Loss} {ι α β : Type} {outcome : Outcome α}
    {others : ι → Outcome α} (h : outcome.UpTo loss others) (wraps : Outcome α → Outcome β)
    (stops : ∀ failure state, loss.stopped failure.cause → ∃ failure' state',
      wraps (.failed failure state) = .failed failure' state' ∧ loss.stopped failure'.cause)
    (answers : ∀ outcome : Outcome α, outcome.Answers loss → (wraps outcome).Answers loss)
    (cut : wraps .exhausted = .exhausted) :
    (wraps outcome).UpTo loss fun i => wraps (others i) := by
  rcases h with hsame | ⟨rfl, hstopped, i, hanswers⟩ | ⟨rfl, hcut⟩
  · exact .same fun i => by rw [hsame i]
  · obtain ⟨failure', state', hended, hstopped'⟩ := stops _ _ hstopped
    exact .stopped hended hstopped' ⟨i, answers _ hanswers⟩
  · exact .cut cut hcut

/-- An action comes to what others do, or is lost. -/
def Action.UpTo (loss : Loss) {ι α : Type} (action : Action α) (others : ι → Action α) : Prop :=
  ∀ state, (action state).UpTo loss fun i => others i state

namespace Action.UpTo

open Outcome

variable {loss : Loss} {ι α β : Type} {action : Action α} {others : ι → Action α}
variable {self : EngineId}

/-! ## Actions put together -/

theorem refl (action : Action α) : UpTo loss action fun _ : ι => action :=
  fun _ => .same fun _ => rfl

theorem bind {next : α → Action β} {nexts : ι → α → Action β} (hfirst : UpTo loss action others)
    (hnext : ∀ value, UpTo loss (next value) fun i => nexts i value) :
    UpTo loss (action >>= next) fun i => others i >>= nexts i := by
  intro state
  rcases hfirst state with hsame | ⟨hended, hstopped, i, hanswers⟩ | ⟨hended, hcut⟩
  · simp only [Action.bind_apply, hsame]
    cases action state with
    | done value after => exact hnext value after
    | failed failure after => exact .same fun _ => rfl
    | exhausted => exact .same fun _ => rfl
  · refine .stopped (by rw [Action.bind_apply, hended]) hstopped ⟨i, within_bind ?_⟩
    refine hanswers.mono (fun value after hspared => ?_) fun _ _ hkept => hkept
    -- What succeeds may go on to anything, so nothing is asked of what comes next.
    obtain ⟨hspent, hkept⟩ := loss.free hspared
    cases nexts i value after with
    | done value after => exact hspared
    | failed failure after => exact hkept failure
    | exhausted => exact hspent
  · exact .cut (by rw [Action.bind_apply, hended]) hcut

theorem thenSame {next : α → Action β} (h : UpTo loss action others) :
    UpTo loss (action >>= next) fun i => others i >>= next :=
  h.bind fun value => refl (next value)

theorem locate (h : UpTo loss action others) (position : Unit → Position) :
    UpTo loss (Action.locate position action) fun i => Action.locate position (others i) :=
  fun state => (h state).wrap (fun outcome => Action.locate position (fun _ => outcome) state)
    (fun failure after hstopped => ⟨_, after, rfl, by simpa using hstopped⟩)
    (fun _ hanswers => within_locate (hanswers.mono (fun _ _ h' => h') fun _ _ => loss.place _)) rfl

theorem reporting (h : UpTo loss action others) :
    UpTo loss (Action.reporting self action) fun i => Action.reporting self (others i) :=
  fun state => (h state).wrap (fun outcome => Action.reporting self (fun _ => outcome) state)
    (fun failure after hstopped => ⟨_, after, rfl, by simpa using hstopped⟩)
    (fun _ hanswers => within_reporting (hanswers.mono (fun _ _ h' => h') fun _ _ => loss.attach _))
    rfl

theorem withScope (h : UpTo loss action others) (scope : ScopeId) :
    UpTo loss (Action.withScope self scope action)
      fun i => Action.withScope self scope (others i) :=
  fun state => (h (state.pushScope self scope)).wrap
    (fun outcome => Action.withScope self scope (fun _ => outcome) state)
    (fun failure _ hstopped => ⟨failure, _, rfl, hstopped⟩)
    (fun _ hanswers => within_withScope hanswers) rfl

theorem thenPop (h : UpTo loss action others) :
    UpTo loss (Action.thenPop self action) fun i => Action.thenPop self (others i) :=
  fun state => (h state).wrap (fun outcome => Action.thenPop self (fun _ => outcome) state)
    (fun failure _ hstopped => ⟨failure, _, rfl, hstopped⟩)
    (fun _ hanswers => within_thenPop hanswers) rfl

theorem inFlowFrame (h : UpTo loss (Action.reporting self action)
      fun i => Action.reporting self (others i)) (frame : FlowFrame) :
    UpTo loss (Action.inFlowFrame self frame action)
      fun i => Action.inFlowFrame self frame (others i) :=
  fun _ => h.thenPop _

theorem inCallFrame (h : UpTo loss action others) (name : String) :
    UpTo loss (Action.inCallFrame self name action)
      fun i => Action.inCallFrame self name (others i) := by
  intro state
  simp only [Action.inCallFrame]
  split
  · exact .same fun _ => rfl
  · exact h.thenPop _

theorem lending (h : UpTo loss action others) (caller owner : EngineId) :
    UpTo loss (Action.lending caller owner action)
      fun i => Action.lending caller owner (others i) :=
  fun state => (h (Action.Loan.take caller owner state).2).wrap
    (fun outcome => Action.lending caller owner (fun _ => outcome) state)
    (fun failure after hstopped => ⟨_, _, rfl, by simpa using hstopped⟩)
    (fun _ hanswers => within_lending (hanswers.mono (fun _ _ h' => h') fun _ _ => loss.attach _))
    rfl

/-- A module that is lost is lost to its importer. -/
theorem loadModule {load : EngineId → Action Unit} {loads : ι → EngineId → Action Unit}
    {module : EngineId} (h : UpTo loss (load module) fun i => loads i module) (name : String) :
    UpTo loss (Loading.loadModule load name module)
      fun i => Loading.loadModule (loads i) name module := by
  refine fun state => (h state).wrap
    (fun outcome => Loading.loadModule (fun _ _ => outcome) name module state) ?_ ?_ rfl
  · intro failure after hstopped
    exact ⟨failure, after, by simp [Loading.loadModule, loss.passed hstopped], hstopped⟩
  · intro outcome hanswers
    cases outcome with
    | done value after => exact hanswers
    | failed failure after => exact loss.handed name hanswers
    | exhausted => exact hanswers

theorem whileLoading {action : Action Unit} {others : ι → Action Unit}
    (h : UpTo loss action others) :
    UpTo loss (Loading.whileLoading self action) fun i => Loading.whileLoading self (others i) := by
  refine fun state => (h _).wrap
    (fun outcome => Loading.whileLoading self (fun _ => outcome) state)
    (fun failure _ hstopped => ⟨failure, _, rfl, hstopped⟩) ?_ rfl
  intro outcome hanswers
  cases outcome with
  | done value after => exact hanswers
  | failed failure after => exact hanswers
  | exhausted => exact hanswers

end Action.UpTo

/-! ## Evaluation -/

/-- An evaluator and a runner come to what others do, or are lost.  What is run is looked at with
the report that its failures get. -/
structure Loss.Knot (loss : Loss) {ι : Type} (evaluate : Evaluator) (evaluate' : ι → Evaluator)
    (run : Runner) (run' : ι → Runner) : Prop where
  evaluates : ∀ self expression,
    Action.UpTo loss (evaluate self expression) fun i => evaluate' i self expression
  runs : ∀ self statements, Action.UpTo loss (Action.reporting self (run self statements))
    fun i => Action.reporting self (run' i self statements)

namespace Loss.Knot

open Bir.Action Bir.Action.UpTo

variable {loss : Loss} {ι : Type} {evaluate : Evaluator} {evaluate' : ι → Evaluator}
variable {run : Runner} {run' : ι → Runner}
variable (knot : loss.Knot evaluate evaluate' run run') (self : EngineId)
include knot

theorem all (expressions : List Expression) :
    UpTo loss (evaluate.all self expressions) fun i => (evaluate' i).all self expressions := by
  induction expressions with
  | nil => exact UpTo.refl _
  | cons expression rest ih =>
      refine (knot.evaluates self expression).bind fun value => ?_
      exact ih.thenSame

theorem invoke (ref : BlockRef) (called : String) (verbs arguments : List Int64) :
    UpTo loss (Call.invoke run self ref called verbs arguments)
      fun i => Call.invoke (run' i) self ref called verbs arguments := by
  intro state
  simp only [Call.invoke]
  split
  · exact .same fun _ => rfl
  · rename_i program _
    exact (((knot.runs self program).inCallFrame called).withScope _) _

theorem route (found : FoundBlock) (called : String) (verbs arguments : List Int64) :
    UpTo loss (Call.route run self found called verbs arguments)
      fun i => Call.route (run' i) self found called verbs arguments := by
  intro state
  simp only [Call.route]
  split
  · exact (knot.invoke _ found.block called verbs arguments).lending self _ state
  · exact knot.invoke self found.block called verbs arguments state

theorem block (name : String) (verbs arguments : List Expression) :
    UpTo loss (Call.block evaluate run self name verbs arguments)
      fun i => Call.block (evaluate' i) (run' i) self name verbs arguments := by
  intro state
  simp only [Call.block]
  split
  · exact .same fun _ => rfl
  · rename_i found _
    split
    · refine ((knot.all self verbs).bind fun verbs => ?_) state
      exact (knot.all self arguments).bind fun arguments => knot.route self found name verbs arguments
    · exact .same fun _ => rfl

theorem slot (op : SlotOp) (arguments : List Expression) :
    UpTo loss (Call.slot evaluate self op arguments)
      fun i => Call.slot (evaluate' i) self op arguments := by
  unfold Call.slot
  split
  · exact UpTo.refl _
  · exact (knot.all self arguments).thenSame

theorem runInit (ref : BlockRef) (name : String) (init : Option (List Statement)) :
    UpTo loss (Declaration.runInit run self ref name init)
      fun i => Declaration.runInit (run' i) self ref name init := by
  cases init with
  | none => exact UpTo.refl _
  | some statements =>
      refine (UpTo.refl _).bind fun store => ?_
      exact (((knot.runs self statements).inCallFrame _).withScope store).thenSame

theorem plain (name : Identifier) (verbs arguments : List Identifier)
    (init : Option (List Statement)) (program : List Statement) :
    UpTo loss (Declaration.plain run self name verbs arguments init program)
      fun i => Declaration.plain (run' i) self name verbs arguments init program := by
  intro state
  simp only [Declaration.plain]
  split
  · exact .same fun _ => rfl
  · refine ((UpTo.refl _).bind fun ref => ?_) state
    exact (knot.runInit self ref name.name init).thenSame

theorem populate (scope : ScopeId) (source : Populate) (store : Option ScopeId) :
    UpTo loss (Declaration.populate evaluate self scope source store)
      fun i => Declaration.populate (evaluate' i) self scope source store := by
  unfold Declaration.populate
  cases source with
  | string text => exact UpTo.refl _
  | array elements => exact (knot.all self elements).thenSame

theorem implementing (name parent : Identifier) (source : Option Populate) :
    UpTo loss (Declaration.implementing evaluate run self name parent source)
      fun i => Declaration.implementing (evaluate' i) (run' i) self name parent source := by
  intro state
  simp only [Declaration.implementing]
  split
  · exact .same fun _ => rfl
  · split
    · exact .same fun _ => rfl
    · refine ((UpTo.refl _).bind fun ref => ?_) state
      refine (knot.runInit self ref name.name _).bind fun store => ?_
      cases source with
      | none => exact UpTo.refl _
      | some source => exact (knot.populate self _ source store).thenSame

theorem binding (kind : BindingKind) (name : Identifier) (value : Expression) :
    UpTo loss (Declaration.binding evaluate self kind name value)
      fun i => Declaration.binding (evaluate' i) self kind name value := by
  intro state
  simp only [Declaration.binding]
  split
  · exact .same fun _ => rfl
  · exact (knot.evaluates self value).thenSame state

theorem expression (expression : Expression) :
    UpTo loss (Evaluation.expression evaluate run self expression)
      fun i => Evaluation.expression (evaluate' i) (run' i) self expression := by
  cases expression with
  | arithmetic op left right =>
      exact (knot.evaluates self left).bind fun l => (knot.evaluates self right).thenSame
  | condition op left right =>
      exact (knot.evaluates self left).bind fun l => (knot.evaluates self right).thenSame
  | logarithm operand keyword => exact (knot.evaluates self operand).thenSame
  | @call name verbs arguments position =>
      exact (knot.block self name.name verbs arguments).locate fun _ => position
  | slot op arguments keyword => exact (knot.slot self op arguments).locate fun _ => keyword
  | integer value position => exact UpTo.refl _
  | string text position => exact UpTo.refl _
  | reference name => exact UpTo.refl _

theorem assign (target : Identifier) (value : Expression) :
    UpTo loss (Evaluation.assign evaluate self target value)
      fun i => Evaluation.assign (evaluate' i) self target value := by
  intro state
  simp only [Evaluation.assign]
  split
  · exact .same fun _ => rfl
  · exact (knot.evaluates self value).thenSame state

theorem modify (op : QuantityOp) (target : Expression) (operand : Option Expression) :
    UpTo loss (Evaluation.modify evaluate self op target operand)
      fun i => Evaluation.modify (evaluate' i) self op target operand := by
  refine (knot.evaluates self target).bind fun current => ?_
  cases operand with
  | none => exact UpTo.refl _
  | some operand => exact (knot.evaluates self operand).thenSame

theorem taken (frame : FlowFrame) (body : List Statement) :
    UpTo loss (Evaluation.taken run self frame body)
      fun i => Evaluation.taken (run' i) self frame body :=
  ((knot.runs self body).inFlowFrame frame).thenSame

theorem firstArm (asked : Int64 → Bool) (frame last : FlowFrame)
    (rest : Option (List Statement)) (arms : List (Expression × List Statement)) :
    UpTo loss (Evaluation.firstArm evaluate run self asked frame last rest arms)
      fun i => Evaluation.firstArm (evaluate' i) (run' i) self asked frame last rest arms := by
  induction arms with
  | nil =>
      cases rest with
      | none => exact UpTo.refl _
      | some body => exact knot.taken self last body
  | cons arm arms ih =>
      obtain ⟨test, body⟩ := arm
      refine (knot.evaluates self test).bind fun value => ?_
      split
      · exact knot.taken self frame body
      · exact ih

/-- A loop may take more turns on the right only where a loop that is cut short is lost. -/
theorem repeatWhile (condition : Expression) (body : List Statement) {turns turns' : Nat}
    (hturns : turns = turns' ∨ turns ≤ turns' ∧ loss.cut) :
    UpTo loss (Evaluation.repeatWhile evaluate run self condition body turns)
      fun i => Evaluation.repeatWhile (evaluate' i) (run' i) self condition body turns' := by
  induction turns generalizing turns' with
  | zero =>
      rcases hturns with rfl | ⟨-, hcut⟩
      · exact UpTo.refl _
      · exact fun _ => .cut rfl hcut
  | succ turns ih =>
      obtain ⟨left, rfl⟩ : ∃ left, turns' = left + 1 := ⟨turns' - 1, by omega⟩
      refine (knot.evaluates self condition).bind fun value => ?_
      split
      · have hrest : turns = left ∨ turns ≤ left ∧ loss.cut := by
          rcases hturns with heq | ⟨hle, hcut⟩
          · exact Or.inl (by omega)
          · exact Or.inr ⟨by omega, hcut⟩
        exact ((knot.runs self body).inFlowFrame .loopWhile).bind fun _ => ih hrest
      · exact UpTo.refl _

theorem repeatFor (placeholder : String) (body : List Statement) (left : Nat) (index : Int64) :
    UpTo loss (Evaluation.repeatFor run self placeholder body left index)
      fun i => Evaluation.repeatFor (run' i) self placeholder body left index := by
  induction left generalizing index with
  | zero => exact UpTo.refl _
  | succ left ih =>
      have hturn : UpTo loss (Evaluation.turn run self placeholder body index)
          fun i => Evaluation.turn (run' i) self placeholder body index := by
        refine (UpTo.refl _).bind fun scope => ?_
        exact (((knot.runs self body).inFlowFrame .loopFor).withScope scope).thenSame
      exact hturn.bind fun _ => ih (index + 1)

theorem leave (exit : Exit) (value : Expression) :
    UpTo loss (Evaluation.leave evaluate self exit value)
      fun i => Evaluation.leave (evaluate' i) self exit value := by
  intro state
  simp only [Evaluation.leave]
  split
  · exact .same fun _ => rfl
  · exact (knot.evaluates self value).thenSame state

theorem statement {turns turns' : Nat} (hturns : turns = turns' ∨ turns ≤ turns' ∧ loss.cut)
    (statement : Statement) :
    UpTo loss (Evaluation.statement evaluate run turns self statement)
      fun i => Evaluation.statement (evaluate' i) (run' i) turns' self statement := by
  cases statement with
  | declare kind name value keyword => exact (knot.binding self kind name value).thenSame
  | block name verbs arguments init program =>
      exact (knot.plain self name verbs arguments init program).thenSame
  | implementing name parent populate => exact (knot.implementing self name parent populate).thenSame
  | assign target value => exact (knot.assign self target value).thenSame
  | modify op target operand => exact (knot.modify self op target operand).thenSame
  | exit exit value keyword => exact knot.leave self exit value
  | branch condition body elifs rest keyword =>
      refine (knot.evaluates self condition).bind fun value => ?_
      split
      · exact knot.taken self .branch body
      · exact knot.firstArm self isTruthy .elif .otherwise rest elifs
  | repeatWhile condition body keyword =>
      exact (knot.repeatWhile self condition body hturns).thenSame
  | repeatFor count placeholder body keyword =>
      refine (knot.evaluates self count).bind fun count => ?_
      exact (knot.repeatFor self placeholder.name body _ 0).thenSame
  | switch condition cases rest keyword =>
      refine (knot.evaluates self condition).bind fun value => ?_
      exact knot.firstArm self (· == value) .case .default rest cases
  | evaluate value => exact (knot.evaluates self value).thenSame
  | comment text position => exact UpTo.refl _

theorem statements {turns turns' : Nat} (hturns : turns = turns' ∨ turns ≤ turns' ∧ loss.cut)
    (statements : List Statement) :
    UpTo loss (Evaluation.statements (Evaluation.statement evaluate run turns self) statements)
      fun i => Evaluation.statements
        (Evaluation.statement (evaluate' i) (run' i) turns' self) statements := by
  induction statements with
  | nil => exact UpTo.refl _
  | cons first rest ih =>
      refine ((knot.statement self hturns first).locate _).bind fun flow => ?_
      cases flow with
      | next => exact ih
      | ended value => exact UpTo.refl _

end Loss.Knot

/-! ## Levels, loading and scripts -/

/-- What comes of a point under a watch answers a run that is stopped there. -/
def Watch.Answers (watch : Watch) (loss : Loss) (self : EngineId) (state : State) : Code → Prop
  | .expression expression =>
    ∀ bound, (evaluateUnder watch (bound + 1) self expression state).Answers loss
  | .frame statements =>
    ∀ bound, (Action.reporting self (executeUnder watch (bound + 1) self statements) state).Answers
      loss
  | .source => ∀ bound, (loadUnder watch (bound + 1) self state).Answers loss

/-- What is lost under one watch and bound as compared to finer watches and a greater bound. -/
structure Loss.Refines (loss : Loss) {ι : Type} (watch : Watch) (watch' : ι → Watch)
    (bound bound' : Nat) : Prop where
  finer : ∀ {i self code state}, watch' i self code state = true → watch self code state = true
  stops : ∀ {self code state}, watch self code state = true →
    loss.stopped Watch.stopCause ∧ ∃ i, (watch' i).Answers loss self state code
  deeper : bound = bound' ∨ bound ≤ bound' ∧ loss.cut

namespace Loss.Refines

open Bir.Action

variable {loss : Loss} {ι : Type} {watch : Watch} {watch' : ι → Watch} {bound bound' : Nat}

theorem pred (h : loss.Refines watch watch' (bound + 1) (bound' + 1)) :
    loss.Refines watch watch' bound bound' := by
  refine ⟨h.finer, h.stops, ?_⟩
  rcases h.deeper with heq | ⟨hle, hcut⟩
  · exact Or.inl (by omega)
  · exact Or.inr ⟨by omega, hcut⟩

/-- The greater bound is none only where the other is. -/
theorem cases_bound (h : loss.Refines watch watch' bound bound') :
    (bound = 0 ∧ (bound' = 0 ∨ loss.cut)) ∨ ∃ less less', bound = less + 1 ∧ bound' = less' + 1 := by
  rcases h.deeper with rfl | ⟨hle, hcut⟩
  · cases bound with
    | zero => exact Or.inl ⟨rfl, Or.inl rfl⟩
    | succ less => exact Or.inr ⟨less, less, rfl, rfl⟩
  · cases bound with
    | zero => exact Or.inl ⟨rfl, Or.inr hcut⟩
    | succ less => exact Or.inr ⟨less, bound' - 1, rfl, by omega⟩

/-- A run that goes on under a watch goes on under the finer ones. -/
theorem silent (h : loss.Refines watch watch' bound bound') {self : EngineId} {code : Code}
    {state : State} (hwatch : watch self code state = false) (i : ι) :
    watch' i self code state = false := by
  rw [← Bool.not_eq_true]
  intro hstops
  rw [h.finer hstops] at hwatch
  cases hwatch

theorem knot (h : loss.Refines watch watch' bound bound') :
    loss.Knot (evaluateUnder watch bound) (fun i => evaluateUnder (watch' i) bound')
      (executeUnder watch bound) (fun i => executeUnder (watch' i) bound') := by
  induction bound generalizing bound' with
  | zero =>
      rcases h.cases_bound with ⟨-, rfl | hcut⟩ | ⟨_, _, hzero, -⟩
      · constructor
        · exact fun self expression state => .same fun _ => by simp only [evaluateUnder]
        · exact fun self statements state => .same fun _ => by
            simp only [Action.reporting, executeUnder]
      · constructor
        · exact fun self expression state => .cut (by simp only [evaluateUnder]) hcut
        · exact fun self statements state => .cut (by
            simp only [Action.reporting, executeUnder]) hcut
      · cases hzero
  | succ bound ih =>
      rcases h.cases_bound with ⟨hzero, -⟩ | ⟨_, less, -, rfl⟩
      · cases hzero
      · have hknot := ih h.pred
        constructor
        · intro self expression state
          cases hwatch : watch self (.expression expression) state with
          | true =>
              obtain ⟨hstopped, i, hanswers⟩ := h.stops hwatch
              have hended : evaluateUnder watch (bound + 1) self expression state =
                  .failed Watch.stop state := by simp [evaluateUnder, hwatch]
              exact .stopped hended hstopped ⟨i, hanswers less⟩
          | false =>
              simpa [evaluateUnder, hwatch, h.silent hwatch]
                using hknot.expression self expression state
        · intro self statements state
          cases hwatch : watch self (.frame statements) state with
          | true =>
              obtain ⟨hstopped, i, hanswers⟩ := h.stops hwatch
              have hended : Action.reporting self (executeUnder watch (bound + 1) self statements)
                  state = .failed (Watch.stop.attach fun _ => state.report self) state := by
                simp [Action.reporting, executeUnder, hwatch]
              exact .stopped hended (by rwa [Failure.cause_attach]) ⟨i, hanswers less⟩
          | false =>
              have hreported : UpTo loss (Action.reporting self _) _ :=
                (hknot.statements self h.pred.deeper statements).reporting
              simpa [Action.reporting, executeUnder, hwatch, h.silent hwatch] using hreported state

theorem runMain_upTo (h : loss.Refines watch watch' bound bound') (self : EngineId) :
    UpTo loss (runMain (executeUnder watch bound) self)
      fun i => runMain (executeUnder (watch' i) bound') self := by
  refine (UpTo.refl _).bind fun statements => ?_
  exact ((h.knot.runs self statements).inFlowFrame .main).thenSame

theorem importModule_upTo (h : loss.Refines watch watch' bound bound')
    {load : EngineId → Action Unit} {load' : ι → EngineId → Action Unit}
    (hload : ∀ self, UpTo loss (load self) fun i => load' i self) (self : EngineId)
    (name : String) :
    UpTo loss (Loading.importModule load (executeUnder watch bound) self name)
      fun i => Loading.importModule (load' i) (executeUnder (watch' i) bound') self name := by
  refine (UpTo.refl _).bind fun place => (UpTo.refl _).bind fun path => ?_
  refine (UpTo.refl _).bind fun _ => (UpTo.refl _).bind fun content => ?_
  refine (UpTo.refl _).bind fun module => ?_
  refine ((hload module).loadModule name).bind fun _ => ?_
  exact (h.runMain_upTo module).thenSame

theorem importAll_upTo (h : loss.Refines watch watch' bound bound')
    {load : EngineId → Action Unit} {load' : ι → EngineId → Action Unit}
    (hload : ∀ self, UpTo loss (load self) fun i => load' i self) (self : EngineId)
    (requests : List Import) :
    UpTo loss (Loading.importAll load (executeUnder watch bound) self requests)
      fun i => Loading.importAll (load' i) (executeUnder (watch' i) bound') self requests := by
  induction requests with
  | nil => exact UpTo.refl _
  | cons request rest ih =>
      have himport := h.importModule_upTo hload self request.module
      exact ((himport.locate fun _ => request.position).reporting).bind fun _ => ih

theorem imports_upTo (h : loss.Refines watch watch' bound bound')
    {load : EngineId → Action Unit} {load' : ι → EngineId → Action Unit}
    (hload : ∀ self, UpTo loss (load self) fun i => load' i self) (self : EngineId) :
    UpTo loss (Loading.imports load (executeUnder watch bound) self)
      fun i => Loading.imports (load' i) (executeUnder (watch' i) bound') self := by
  intro state
  simp only [Loading.imports]
  split
  · exact .same fun _ => rfl
  · exact (h.importAll_upTo hload self _).whileLoading state

theorem loadUnder_upTo (h : loss.Refines watch watch' bound bound') (self : EngineId) :
    UpTo loss (loadUnder watch bound self) fun i => loadUnder (watch' i) bound' self := by
  induction bound generalizing bound' self with
  | zero =>
      rcases h.cases_bound with ⟨-, rfl | hcut⟩ | ⟨_, _, hzero, -⟩
      · exact UpTo.refl _
      · exact fun _ => .cut rfl hcut
      · cases hzero
  | succ bound ih =>
      rcases h.cases_bound with ⟨hzero, -⟩ | ⟨_, less, -, rfl⟩
      · cases hzero
      · intro state
        cases hwatch : watch self .source state with
        | true =>
            obtain ⟨hstopped, i, hanswers⟩ := h.stops hwatch
            have hended : loadUnder watch (bound + 1) self state = .failed Watch.stop state := by
              simp [loadUnder, Action.bind_apply, Watch.look, hwatch]
            exact .stopped hended hstopped ⟨i, hanswers less⟩
        | false =>
            have hlook : ∀ w : Watch, w self .source state = false →
                ∀ next : Unit → Action Unit, (w.look self >>= next) state = next () state := by
              intro w hw next
              simp [Action.bind_apply, Watch.look, hw]
            simp only [loadUnder, hlook _ hwatch, hlook _ (h.silent hwatch _)]
            refine (UpTo.bind (UpTo.refl _) fun _ => UpTo.bind (UpTo.refl _) fun _ => ?_) state
            exact h.pred.imports_upTo (fun self => ih h.pred self) self

theorem performUnder_upTo (h : loss.Refines watch watch' bound bound') (step : Script.Step) :
    UpTo loss (Script.performUnder watch bound step)
      fun i => Script.performUnder (watch' i) bound' step := by
  cases step with
  | load => exact h.loadUnder_upTo Script.main
  | run => exact h.runMain_upTo Script.main

theorem runUnder_upTo (h : loss.Refines watch watch' bound bound') :
    UpTo loss (Script.runUnder watch bound) fun i => Script.runUnder (watch' i) bound' :=
  (h.performUnder_upTo .load).bind fun _ => h.performUnder_upTo .run

end Loss.Refines

/-! ## Watched runs -/

/-- The loss of a run that its watch stops, where nothing is asked of the run without the watch. -/
def Loss.stop : Loss where
  stopped cause := cause = Watch.stopCause
  cut := False
  spent := True
  spared := True
  kept _ := True
  passed hcause := Failure.ofModule_of_stopped hcause _
  free _ := ⟨trivial, fun _ => trivial⟩
  place _ _ := trivial
  attach _ _ := trivial
  handed _ _ := trivial

theorem Outcome.answers_stop {α : Type} (outcome : Outcome α) : outcome.Answers Loss.stop := by
  cases outcome <;> exact trivial

theorem Loss.stop_refines (watch : Watch) (bound : Nat) :
    Loss.stop.Refines watch (fun _ : Unit => Watch.silent) bound bound where
  finer h := by cases h
  stops {self code state} _ := by
    refine ⟨rfl, (), ?_⟩
    cases code <;> exact fun _ => Outcome.answers_stop _
  deeper := Or.inl rfl

theorem Outcome.UpTo.eq_of_not_stopped {ι α : Type} {outcome : Outcome α}
    {others : ι → Outcome α} (h : outcome.UpTo Loss.stop others)
    (hstopped : outcome.isStopped = false) (i : ι) : outcome = others i := by
  rcases h with hsame | ⟨rfl, hcause, -⟩ | ⟨-, hcut⟩
  · exact (hsame i).symm
  · have hcause : _ = Watch.stopCause := hcause
    simp [isStopped, hcause] at hstopped
  · exact hcut.elim

namespace Script

theorem runUnder_silent (bound : Nat) : runUnder Watch.silent bound = run bound := by
  simp [runUnder, run, performUnder_silent]

/-- A watched step that is not stopped is the step itself. -/
theorem performUnder_eq {watch : Watch} {bound : Nat} {step : Step} {state : State}
    (h : (performUnder watch bound step state).isStopped = false) :
    performUnder watch bound step state = perform bound step state := by
  rw [← performUnder_silent]
  exact ((Loss.stop_refines watch bound).performUnder_upTo step state).eq_of_not_stopped h ()

/-- A watched run that is not stopped is the run itself. -/
theorem runUnder_eq {watch : Watch} {bound : Nat} {state : State}
    (h : (runUnder watch bound state).isStopped = false) :
    runUnder watch bound state = run bound state := by
  rw [← runUnder_silent]
  exact ((Loss.stop_refines watch bound).runUnder_upTo state).eq_of_not_stopped h ()

end Script

/-! ## Runs with greater bounds -/

/-- The loss of a run that its bound cuts short. -/
def Loss.short : Loss where
  stopped _ := False
  cut := True
  spent := True
  spared := True
  kept _ := True
  passed h := h.elim
  free _ := ⟨trivial, fun _ => trivial⟩
  place _ _ := trivial
  attach _ _ := trivial
  handed _ _ := trivial

theorem Loss.short_refines {bound bound' : Nat} (h : bound ≤ bound') :
    Loss.short.Refines Watch.silent (fun _ : Unit => Watch.silent) bound bound' where
  finer h := h
  stops h := by cases h
  deeper := Or.inr ⟨h, trivial⟩

theorem Outcome.UpTo.eq_of_within {ι α : Type} {good : α → State → Prop}
    {bad : Failure → State → Prop} {outcome : Outcome α} {others : ι → Outcome α}
    (h : outcome.UpTo Loss.short others) (finished : outcome.Within False good bad) (i : ι) :
    others i = outcome := by
  rcases h with hsame | ⟨-, hstopped, -⟩ | ⟨rfl, -⟩
  · exact hsame i
  · exact hstopped.elim
  · exact finished.elim

end Bir
