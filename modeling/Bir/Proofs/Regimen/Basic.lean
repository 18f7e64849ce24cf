import Bir.Proofs.Activation
import Bir.Proofs.Code
import Bir.Proofs.Failure

/-!
# Regimens — what may be run how deep, and with which bound

A regimen is what is known of the moments of a run, of the code that may be run in them and of the
failures that leave them, together with the reasons why each single step keeps it.  What may be run
depends on the bound that is left and on the number of frames that the run has entered, and what is
known of a failure depends on that number as well.  This file defines `Regimen` and shows, once for
all regimens, that calls and slot operations keep it:

* `Regimen.Keeps` — an action keeps a regimen, whether it ends in a value or in a failure, and is
  cut short only if the regimen allows for that;
* `Regimen.Knot` — an evaluator and a runner keep it, on what they may be asked for.

`Bir.Proofs.Regimen.Evaluation` goes on to all other constructs.  A failure is known in three forms:
`blames` inside a frame, `settled` where it leaves the statements of the frame, placed but not yet
reported, and `complete` where it leaves the frame.

A `strict` regimen tells the moments at which code is run from those between a scope and its frame,
and is told for which block a frame is entered.  This asks for reasons why names keep their meanings.
-/

namespace Bir

/-- The reasons for which a call may fail before any statement of the block runs. -/
def Failure.Cause.IsRefusal (cause : Failure.Cause) : Prop :=
  (∃ limit, cause = .callStackOverflow limit) ∨
    ∃ mismatches, cause = .argumentCount Console.blockName mismatches

/-- Whether evaluation finds a cause by itself: neither the console nor the loading of sources
does. -/
@[simp]
def Failure.Cause.isEvaluation : Failure.Cause → Bool
  | .malformed _ => false
  | .missingModule _ _ => false
  | .cyclicImport _ _ => false
  | .moduleLoad _ _ => false
  | .console _ => false
  | _ => true

theorem Failure.Cause.ne_console {cause : Failure.Cause} (h : cause.isEvaluation = true)
    (reason : String) : cause ≠ .console reason := by
  rintro rfl
  cases h

theorem Failure.Cause.IsRefusal.isEvaluation {cause : Failure.Cause} (h : cause.IsRefusal) :
    cause.isEvaluation = true := by
  rcases h with ⟨limit, rfl⟩ | ⟨mismatches, rfl⟩ <;> rfl

/-- The number of frames that are open. -/
def frames : List Bracket → Nat
  | [] => 0
  | .frame :: pending => frames pending + 1
  | _ :: pending => frames pending

/-- What is known of where code is run, beside what is known of expressions and of the moments at which
code is run. -/
structure Whereabouts (watch : Watch) (expression : Nat → Nat → EngineId → Expression → Prop)
    (holds : Moment → Prop) where
  /-- Whether it is known where code is run, and what the frames are entered for. -/
  strict : Prop
  /-- The moments that a run comes to, be it to enter or to leave something. -/
  passes : Moment → Prop
  holds_iff : ∀ {moment}, holds moment ↔ passes moment ∧ (strict → Running moment.pending)
  /-- Names stand for the same blocks when an expression has been evaluated. -/
  keeps : strict → ∀ {bound pending self expression' state}, holds ⟨pending, self, state⟩ →
    expression bound (frames pending) self expression' →
    (evaluateUnder watch bound self expression' state).Leaves fun after =>
      ∀ name, after.callee? self name = state.callee? self name
  /-- Names stand for the same blocks where the stacks are lent. -/
  lends : strict → ∀ {pending self} {state : State} {found : FoundBlock},
    holds ⟨pending, self, state⟩ → Call.isLent state self found = true →
    let owner := (state.graph.block found.block).owner
    ∀ name, (Action.Loan.take self owner state).2.callee? owner name =
      state.callee? self name

/-- Nothing is known of where code is run. -/
@[reducible]
def Whereabouts.unknown {watch : Watch} {expression : Nat → Nat → EngineId → Expression → Prop}
    {holds : Moment → Prop} : Whereabouts watch expression holds where
  strict := False
  passes := holds
  holds_iff := ⟨fun h => ⟨h, False.elim⟩, And.left⟩
  keeps := False.elim
  lends := False.elim

/-- What is known of a run under a watch, and why each step keeps it.  What is known of code depends
on the bound that is left and on the number of open frames. -/
structure Regimen (watch : Watch) where
  /-- Whether a run may be cut short. -/
  cut : Prop
  /-- Whether calls may be made. -/
  ready : Nat → Nat → Prop
  /-- The names that blocks may be called by. -/
  callable : String → Prop
  /-- The expressions that an engine may evaluate. -/
  expression : Nat → Nat → EngineId → Expression → Prop
  /-- The statements that an engine may run. -/
  statement : Nat → Nat → EngineId → Statement → Prop
  /-- The frames that an engine may be asked to run, once they are entered. -/
  body : Nat → Nat → EngineId → List Statement → Prop
  /-- The moments that a run comes to, to run code. -/
  holds : Moment → Prop
  /-- Where code is run, if that is known. -/
  whereabouts : Whereabouts watch expression holds := .unknown
  /-- The failures that leave expressions and statements. -/
  blames : Nat → EngineId → Failure → Prop
  /-- The failures that leave the statements of a frame. -/
  settled : Nat → EngineId → Failure → Prop
  /-- The failures that leave a frame, with a report. -/
  complete : Nat → Failure → Prop
  spentExpression : ∀ {depth self expression'}, expression 0 depth self expression' → cut
  spentBody : ∀ {depth self statements}, body 0 depth self statements → cut
  endless : ∀ {bound depth self condition statements keyword},
    statement bound depth self (.repeatWhile condition statements keyword) → cut
  operand : ∀ {bound depth self expression' operand},
    expression (bound + 1) depth self expression' → operand ∈ expression'.operands →
    expression bound depth self operand
  calling : ∀ {bound depth self name verbs arguments position},
    expression (bound + 1) depth self (@Expression.call name verbs arguments position) →
      ready bound depth
  named : ∀ {bound depth self name verbs arguments position},
    expression (bound + 1) depth self (@Expression.call name verbs arguments position) →
      callable name.name
  part : ∀ {bound depth self statement' part}, statement bound depth self statement' →
    part ∈ statement'.expressions → expression bound depth self part
  nested : ∀ {bound depth self statement' nested}, statement bound depth self statement' →
    statement'.isDeclaration = false → nested ∈ statement'.bodies →
    body bound (depth + 1) self nested
  declaring : ∀ {bound depth self statement'}, statement bound depth self statement' →
    statement'.isDeclaration = true → ready bound depth
  opened : ∀ {bound pending self state statements}, holds ⟨pending, self, state⟩ →
    body (bound + 1) (frames pending) self statements →
    watch self (.frame statements) state = false →
    ∀ first ∈ statements, statement bound (frames pending) self first
  inits : ∀ {bound pending self} {state : State} {name verbs arguments init program position},
    holds ⟨pending, self, state⟩ → (state.callStack self).exceeded? = none →
    statement bound (frames pending) self
      (@Statement.block name verbs arguments init program position) →
    ∀ section' ∈ init, body bound (frames pending + 1) self section'
  called : ∀ {bound pending self} {state : State} {ref : BlockRef} {init program},
    holds ⟨pending, self, state⟩ → (state.callStack self).exceeded? = none →
    ready bound (frames pending) → (state.graph.block ref).body = .interpreted init program →
    body bound (frames pending + 1) self program ∧
      ∀ section' ∈ init, body bound (frames pending + 1) self section'
  step : ∀ {moment moment'}, whereabouts.passes moment →
    Move (fun self statement' => ∃ bound, statement bound (frames moment.pending) self statement')
      moment moment' → ¬ moment.Enters moment' →
    (whereabouts.strict → Running moment.pending ∨ moment.Withdraws moment') →
      whereabouts.passes moment'
  enter : ∀ {moment} {activation : Activation}, activation.Begins whereabouts.strict moment →
    activation.frame.Opens callable moment → whereabouts.passes moment →
      whereabouts.passes (moment.enter activation.frame)
  raise : ∀ {depth self cause}, Failure.Cause.isEvaluation cause = true →
    blames depth self (.ofCause cause)
  haltExpression : ∀ {bound pending self state expression'}, holds ⟨pending, self, state⟩ →
    expression bound (frames pending) self expression' →
    watch self (.expression expression') state = true → blames (frames pending) self Watch.stop
  haltFrame : ∀ {bound pending self state statements} [Framed pending],
    holds ⟨pending, self, state⟩ →
    body bound (frames pending) self statements → watch self (.frame statements) state = true →
    settled (frames pending) self Watch.stop
  place : ∀ {bound depth self failure expression'}, blames depth self failure →
    expression bound depth self expression' →
    blames depth self (failure.place expression'.position)
  mark : ∀ {bound depth self failure statement' position}, blames depth self failure →
    statement bound depth self statement' → position ∈ statement'.marks →
    blames depth self (failure.place position)
  settle : ∀ {bound depth self failure statement'}, blames depth self failure →
    statement bound depth self statement' →
    settled depth self (failure.place statement'.position)
  attach : ∀ {bound pending self entry state failure statements}, holds ⟨pending, self, entry⟩ →
    body bound (frames pending) self statements →
    executeUnder watch bound self statements entry = .failed failure state →
    holds ⟨pending, self, state⟩ → settled (frames pending) self failure →
    complete (frames pending) (failure.attach fun _ => state.report self)
  reported : ∀ {depth failure}, complete depth failure → failure.report.isSome
  pass : ∀ {depth self failure}, complete (depth + 1) failure → blames depth self failure
  refuse : ∀ {bound terms caller pending owner state cause},
    holds ⟨.loan terms caller :: pending, owner, state⟩ → ready bound (frames pending) →
    owner ≠ caller → cause.IsRefusal →
    blames (frames pending) caller ((Failure.ofCause cause).attach fun _ => state.report owner)

namespace Regimen

open Outcome Bir.Action

variable {watch : Watch} (R : Regimen watch) {α β : Type}
variable {bound : Nat} {pending : List Bracket} {self : EngineId}

/-- Whether it is known where code is run, and what the frames are entered for. -/
abbrev strict : Prop := R.whereabouts.strict

/-- The moments that a run comes to, be it to enter or to leave something. -/
abbrev passes : Moment → Prop := R.whereabouts.passes

section Moves

variable {moment moment' : Moment} {state : State}

theorem running (h : R.holds moment) (strict : R.strict) : Running moment.pending :=
  (R.whereabouts.holds_iff.1 h).2 strict

/-- A move that enters and leaves nothing keeps a regimen. -/
theorem move (h : R.holds moment)
    (hmove : Move (fun self statement' =>
      ∃ bound, R.statement bound (frames moment.pending) self statement') moment moment')
    (same : entries moment'.pending = entries moment.pending := by simp [entries]) :
    R.holds moment' := by
  obtain ⟨hplain, hrunning⟩ := hmove.running same
  exact R.whereabouts.holds_iff.2
    ⟨R.step (R.whereabouts.holds_iff.1 h).1 hmove hplain fun strict => Or.inl (R.running h strict),
      fun strict => hrunning (R.running h strict)⟩

/-- A scope is entered. -/
theorem enterScope {entered : State} (h : R.holds ⟨pending, self, state⟩)
    (hmove : Move (fun self statement' =>
      ∃ bound, R.statement bound (frames pending) self statement')
        ⟨pending, self, state⟩ ⟨.scope :: pending, self, entered⟩) :
    R.passes ⟨.scope :: pending, self, entered⟩ :=
  R.step (R.whereabouts.holds_iff.1 h).1 hmove (by simp [Moment.Enters]) fun strict =>
    Or.inl (R.running h strict)

theorem leaveScope (h : R.passes ⟨.scope :: pending, self, state⟩) :
    R.passes ⟨pending, self, state.popScope self⟩ :=
  R.step h .leaveScope (by simp [Moment.Enters]) fun _ => Or.inr ⟨List.suffix_cons _ _, rfl⟩

theorem leaveFrame (h : R.passes ⟨.frame :: pending, self, state⟩) :
    R.passes ⟨pending, self, state.modifyCallStack self CallStack.pop⟩ :=
  R.step h .leaveFrame (fun henters => Nat.not_lt.2 (Nat.le_succ _) henters.2)
    fun _ => Or.inr ⟨List.suffix_cons _ _, rfl⟩

/-- Where code was run it may be run again. -/
theorem resume {entry : State} (entered : R.holds ⟨pending, self, entry⟩)
    (h : R.passes ⟨pending, self, state⟩) : R.holds ⟨pending, self, state⟩ := by
  have hrunning : R.strict → Running pending := R.running entered
  exact R.whereabouts.holds_iff.2 ⟨h, hrunning⟩

end Moves

/-! ## Actions that keep a regimen -/

/-- An action of the engine in control keeps a regimen. -/
def Keeps (pending : List Bracket) (self : EngineId) (action : Action α) : Prop :=
  ∀ state, R.holds ⟨pending, self, state⟩ →
    (action state).Within R.cut (fun _ state' => R.holds ⟨pending, self, state'⟩)
      (fun failure state' => R.holds ⟨pending, self, state'⟩ ∧
        R.blames (frames pending) self failure)

/-- The statements of a frame keep a regimen. -/
def Settles (pending : List Bracket) (self : EngineId) (action : Action α) : Prop :=
  ∀ state, R.holds ⟨pending, self, state⟩ →
    (action state).Within R.cut (fun _ state' => R.holds ⟨pending, self, state'⟩)
      (fun failure state' => R.holds ⟨pending, self, state'⟩ ∧
        R.settled (frames pending) self failure)

/-- What is known of a failure is known of it once it is placed at a position. -/
def Places (pending : List Bracket) (self : EngineId) (position : Position) : Prop :=
  ∀ failure, R.blames (frames pending) self failure →
    R.blames (frames pending) self (failure.place position)

/-- An evaluator and a runner keep a regimen on the code that it allows with a bound. -/
structure Knot (bound : Nat) (evaluate : Evaluator) (run : Runner) : Prop where
  evaluates : ∀ {pending self expression}, R.expression bound (frames pending) self expression →
    R.Keeps pending self (evaluate self expression)
  runs : ∀ {pending self statements} [Framed pending],
    R.body bound (frames pending) self statements → R.Settles pending self (run self statements)
  evaluator : evaluate = evaluateUnder watch bound
  runner : run = executeUnder watch bound

variable {R}

theorem Keeps.pure (value : α) : R.Keeps pending self (pure value : Action α) := by
  intro state h
  exact h

theorem Keeps.bind {first : Action α} {next : α → Action β}
    (hfirst : R.Keeps pending self first) (hnext : ∀ value, R.Keeps pending self (next value)) :
    R.Keeps pending self (first >>= next) := by
  intro state h
  apply within_bind
  refine (hfirst state h).mono ?_ ?_
  · intro value state' h'
    exact hnext value state' h'
  · intro failure state' h'
    exact h'

theorem Keeps.locate {action : Action α} {position : Position}
    (h : R.Keeps pending self action)
    (hplace : R.Places pending self position) :
    R.Keeps pending self (Action.locate (fun _ => position) action) := by
  intro state hstate
  apply within_locate
  refine (h state hstate).mono (fun _ _ h' => h') ?_
  rintro failure state' ⟨h', hblame⟩
  exact ⟨h', hplace failure hblame⟩

theorem Keeps.fail {cause : Failure.Cause} (natural : cause.isEvaluation = true) :
    R.Keeps pending self (Action.fail cause : Action α) := by
  intro state h
  exact ⟨h, R.raise natural⟩

theorem Keeps.failAt {cause : Failure.Cause} {position : Position}
    (natural : cause.isEvaluation = true)
    (hplace : R.Places pending self position) :
    R.Keeps pending self (Action.failAt cause position : Action α) := by
  intro state h
  exact ⟨h, hplace _ (R.raise natural)⟩

theorem Keeps.ofArithmetic (result : Except ArithmeticFault α) :
    R.Keeps pending self (Action.ofArithmetic result) := by
  intro state h
  cases result with
  | ok value => exact h
  | error fault => exact ⟨h, R.raise (by simp)⟩

/-! ## Frames -/

section Knotted

variable {evaluate : Evaluator} {run : Runner}

theorem Knot.keeps_all (knot : R.Knot bound evaluate run) {expressions : List Expression}
    (allowed : ∀ expression ∈ expressions, R.expression bound (frames pending) self expression) :
    R.Keeps pending self (evaluate.all self expressions) := by
  induction expressions with
  | nil => exact Keeps.pure []
  | cons expression rest ih =>
      refine Keeps.bind (knot.evaluates (allowed expression (by simp))) fun value => ?_
      refine Keeps.bind (ih fun other hother => allowed other (by simp [hother])) fun values => ?_
      exact Keeps.pure (value :: values)

/-- Wherever it is asked for, names stand for the same blocks as before. -/
def KeepsNames (R : Regimen watch) (self : EngineId) (before after : State) : Prop :=
  R.strict → ∀ name, after.callee? self name = before.callee? self name

/-- Evaluated expressions keep a regimen, and the meanings of names; each has a value. -/
theorem Knot.all_within (knot : R.Knot bound evaluate run) {expressions : List Expression}
    (allowed : ∀ expression ∈ expressions, R.expression bound (frames pending) self expression)
    {state : State} (h : R.holds ⟨pending, self, state⟩) :
    (evaluate.all self expressions state).Within R.cut
      (fun values state' => R.holds ⟨pending, self, state'⟩ ∧ R.KeepsNames self state state' ∧
        values.length = expressions.length)
      (fun failure state' => R.holds ⟨pending, self, state'⟩ ∧
        R.blames (frames pending) self failure) := by
  induction expressions generalizing state with
  | nil => exact ⟨h, fun _ _ => rfl, rfl⟩
  | cons expression rest ih =>
      have hfirst := allowed expression List.mem_cons_self
      apply within_bind
      refine (knot.evaluates hfirst state h).keep.mono ?_ fun _ _ h' => h'.1
      rintro value between ⟨hbetween, hended⟩
      have hkept : R.KeepsNames self state between := by
        intro strict
        have hnames := R.whereabouts.keeps strict h hfirst
        rwa [← knot.evaluator, hended] at hnames
      apply within_bind
      refine (ih (fun other hother => allowed other (List.mem_cons_of_mem _ hother)) hbetween).mono
        ?_ fun _ _ h' => h'
      rintro values after ⟨hafter, hkept', hlength⟩
      refine ⟨hafter, fun strict name => (hkept' strict name).trans (hkept strict name), ?_⟩
      rw [List.length_cons, List.length_cons, hlength]

/-- The frame is gone when the action ends, and a failure carries the report of its engine. -/
theorem Knot.framed [framed : Framed pending] (knot : R.Knot bound evaluate run)
    {body : List Statement} (allowed : R.body bound (frames pending + 1) self body) {state : State}
    (h : R.passes ⟨.frame :: pending, self, state⟩) :
    (thenPop self (reporting self (run self body)) state).Within R.cut
      (fun _ state' => R.passes ⟨pending, self, state'⟩)
      (fun failure state' => R.passes ⟨pending, self, state'⟩ ∧
        R.complete (frames pending + 1) failure) := by
  have hruns : R.Settles (.frame :: pending) self (run self body) := knot.runs allowed
  have hholds : R.holds ⟨.frame :: pending, self, state⟩ :=
    R.whereabouts.holds_iff.2 ⟨h, fun _ => framed.awaited?_eq⟩
  apply within_thenPop
  apply within_reporting
  refine (hruns state hholds).keep.mono ?_ ?_
  · rintro value state' ⟨h', -⟩
    exact R.leaveFrame (R.whereabouts.holds_iff.1 h').1
  · rintro failure state' ⟨⟨h', hsettled⟩, hended⟩
    rw [knot.runner] at hended
    exact ⟨R.leaveFrame (R.whereabouts.holds_iff.1 h').1, R.attach hholds allowed hended h' hsettled⟩

/-- A frame that is no block's is entered where code is run, and what is run there goes on. -/
theorem Knot.inFlowFrame [Framed pending] (knot : R.Knot bound evaluate run)
    {body : List Statement} (allowed : R.body bound (frames pending + 1) self body)
    (frame : FlowFrame) : R.Keeps pending self (Action.inFlowFrame self frame (run self body)) := by
  intro state h
  have hbegins : Activation.Begins R.strict ⟨.flow frame, none, []⟩ ⟨pending, self, state⟩ :=
    .branch frame (R.running h)
  refine (knot.framed allowed (R.enter hbegins (.flow frame) (R.whereabouts.holds_iff.1 h).1)).mono ?_ ?_
  · intro value state' h'
    exact R.resume h h'
  · rintro failure state' ⟨h', hcomplete⟩
    exact ⟨R.resume h h', R.pass hcomplete⟩

/-- What is known of a failure of a call: it has left a frame of the call, or the call was refused
before it had one. -/
def Refused (R : Regimen watch) (depth : Nat) (failure : Failure) : Prop :=
  R.complete (depth + 1) failure ∨
    ∃ cause, Failure.Cause.IsRefusal cause ∧ failure = .ofCause cause

theorem Refused.blames {depth : Nat} {failure : Failure} (h : R.Refused depth failure) :
    R.blames depth self failure := by
  rcases h with hcomplete | ⟨cause, hcause, rfl⟩
  · exact R.pass hcomplete
  · exact R.raise hcause.isEvaluation

/-- What is asked of the body of a call has to be shown where there is room for its frame. -/
theorem Knot.inCallFrame [Framed pending] (knot : R.Knot bound evaluate run)
    {body : List Statement} {activation : Activation} {state : State}
    (h : R.passes ⟨pending, self, state⟩)
    (begins : activation.Begins R.strict ⟨pending, self, state⟩)
    (opens : (state.callStack self).exceeded? = none →
      activation.frame.Opens R.callable ⟨pending, self, state⟩)
    (allowed : (state.callStack self).exceeded? = none →
      R.body bound (frames pending + 1) self body) :
    (Action.inCallFrame self activation.frame.name (reporting self (run self body)) state).Within
      R.cut (fun _ state' => R.passes ⟨pending, self, state'⟩)
      (fun failure state' => R.passes ⟨pending, self, state'⟩ ∧
        R.Refused (frames pending) failure) := by
  unfold Action.inCallFrame
  cases hroom : (state.callStack self).exceeded? with
  | some limit => exact ⟨h, Or.inr ⟨_, Or.inl ⟨limit, rfl⟩, rfl⟩⟩
  | none =>
      refine (knot.framed (allowed hroom) (R.enter begins (opens hroom) h)).mono
        (fun _ _ h' => h') ?_
      rintro failure state' ⟨h', hcomplete⟩
      exact ⟨h', Or.inl hcomplete⟩

/-! ## Calls -/

theorem within_console {verbs arguments : List Int64} {state : State}
    (h : R.passes ⟨pending, self, state⟩) :
    (Call.console verbs arguments state).Within R.cut
      (fun _ state' => R.passes ⟨pending, self, state'⟩)
      (fun failure state' => R.passes ⟨pending, self, state'⟩ ∧
        ∃ cause, Failure.Cause.IsRefusal cause ∧ failure = .ofCause cause) := by
  have hmove : R.passes ⟨pending, self, (state.callConsole verbs arguments).1⟩ :=
    R.step h (.console verbs arguments) (fun henters => Nat.lt_irrefl _ henters.2)
      fun _ => Or.inr ⟨List.suffix_rfl, rfl⟩
  have hfailure : ∀ failure, (state.callConsole verbs arguments).2 = .error failure →
      ∃ cause, Failure.Cause.IsRefusal cause ∧ failure = .ofCause cause := by
    intro failure herror
    have hcall : (state.console.call verbs arguments).1 = .error failure := herror
    unfold Console.call at hcall
    split at hcall
    · cases hcall
    · split at hcall
      · split at hcall
        · cases hcall
          exact ⟨_, Or.inr ⟨_, rfl⟩, rfl⟩
        · cases hcall
      · split at hcall
        · cases hcall
        · split at hcall
          · cases hcall
          · split at hcall <;> cases hcall
  unfold Call.console
  cases hresult : (state.callConsole verbs arguments).2 with
  | ok value => simpa [hresult] using hmove
  | error failure => simpa [hresult] using ⟨hmove, hfailure failure hresult⟩

theorem Knot.invoke (knot : R.Knot bound evaluate run) {state : State}
    (h : R.holds ⟨pending, self, state⟩) (ready : R.ready bound (frames pending)) {ref : BlockRef}
    (awaited : awaited? pending = some ref) {called : String} (named : R.callable called)
    (seen : R.strict → state.callee? self called = some ref) {verbs arguments : List Int64}
    (brought : brought? pending = some (verbs.length, arguments.length)) :
    (Call.invoke run self ref called verbs arguments state).Within R.cut
      (fun _ state' => R.holds ⟨pending, self, state'⟩)
      (fun failure state' => R.holds ⟨pending, self, state'⟩ ∧
        R.Refused (frames pending) failure) := by
  unfold Call.invoke
  cases hbody : (state.graph.block ref).body with
  | native =>
      simp only [hbody, Action.inCallFrame]
      cases hroom : (state.callStack self).exceeded? with
      | some limit => exact ⟨h, Or.inr ⟨_, Or.inl ⟨limit, rfl⟩, rfl⟩⟩
      | none =>
          have hbegins : Activation.Begins R.strict ⟨.call called, some ref, []⟩
              ⟨pending, self, state⟩ := .native awaited
          have henter := R.enter hbegins (.native awaited named hroom) (R.whereabouts.holds_iff.1 h).1
          apply within_thenPop
          refine (within_console henter).mono ?_ ?_
          · intro value state' h'
            exact R.resume h (R.leaveFrame h')
          · rintro failure state' ⟨h', hrefusal⟩
            exact ⟨R.resume h (R.leaveFrame h'), Or.inr hrefusal⟩
  | interpreted init program =>
      simp only [hbody]
      apply within_withScope
      have hinterpreted : (state.graph.block ref).isNative = false := by simp [Block.isNative, hbody]
      have henter := R.enterScope h (.enterCall awaited hinterpreted verbs arguments brought)
      have hbegins : Activation.Begins R.strict ⟨.call called, some ref,
          state.graph.scopes.size :: (state.graph.block ref).store.toList⟩
            ⟨.scope :: pending, self, ((state.addScope (Call.scope (state.graph.block ref)
              (state.currentScope self) verbs arguments)).1).pushScope self
                state.graph.scopes.size⟩ := .call awaited seen verbs arguments
      -- A scope is entered between here and the frame, and leaves the call stack as it is.
      have hallowed : (((state.addScope (Call.scope (state.graph.block ref)
            (state.currentScope self) verbs arguments)).1.pushScope self
              state.graph.scopes.size).callStack self).exceeded? = none →
          R.body bound (frames (.scope :: pending) + 1) self program := by
        intro hroom
        rw [State.callStack_pushScope] at hroom
        exact (R.called h hroom ready hbody).1
      refine (knot.inCallFrame henter hbegins (.call awaited named) hallowed).mono ?_ ?_
      · intro value state' h'
        exact R.resume h (R.leaveScope h')
      · rintro failure state' ⟨h', hrefused⟩
        exact ⟨R.resume h (R.leaveScope h'), hrefused⟩

/-- A block runs where its name stands for it. -/
theorem Knot.route (knot : R.Knot bound evaluate run) (ready : R.ready bound (frames pending))
    {found : FoundBlock} {called : String} (named : R.callable called) {state : State}
    {verbs arguments : List Int64}
    (h : R.holds ⟨.call found.block verbs.length arguments.length :: pending, self, state⟩)
    (seen : R.strict → state.callee? self called = some found.block) :
    (Call.route run self found called verbs arguments state).Within R.cut
      (fun _ state' =>
        R.holds ⟨.call found.block verbs.length arguments.length :: pending, self, state'⟩)
      (fun failure state' =>
        R.holds ⟨.call found.block verbs.length arguments.length :: pending, self, state'⟩ ∧
          R.blames (frames (.call found.block verbs.length arguments.length :: pending)) self
            failure) := by
  unfold Call.route
  split
  · rename_i hlent
    apply within_lending
    have hlend := R.move h (.lend rfl hlent)
    have hseen := fun strict => (R.whereabouts.lends strict h hlent called).trans (seen strict)
    refine (knot.invoke hlend ready rfl named hseen rfl).mono ?_ ?_
    · intro value state' h'
      exact R.move h' .giveBack
    · rintro failure state' ⟨h', hrefused⟩
      refine ⟨R.move h' .giveBack, ?_⟩
      rcases hrefused with hcomplete | ⟨cause, hcause, rfl⟩
      · rw [Failure.attach_of_report (R.reported hcomplete)]
        exact R.pass hcomplete
      · exact R.refuse h' ready (State.owner_ne_of_isLent hlent) hcause
  · refine (knot.invoke h ready rfl named seen rfl).mono (fun _ _ h' => h') ?_
    rintro failure state' ⟨h', hrefused⟩
    exact ⟨h', hrefused.blames⟩

theorem Knot.block (knot : R.Knot bound evaluate run) (ready : R.ready bound (frames pending))
    {name : String} (named : R.callable name) {verbs arguments : List Expression}
    (allowed : ∀ expression ∈ verbs ++ arguments,
      R.expression bound (frames pending) self expression) :
    R.Keeps pending self (Call.block evaluate run self name verbs arguments) := by
  intro state h
  unfold Call.block
  split
  · exact ⟨h, R.raise (by simp)⟩
  · rename_i found hfound
    split
    · -- The call is pending from here on, until the block has run or anything has failed.
      rename_i henough
      have hopen := R.move h (.openCall hfound henough)
      have hseen : state.callee? self name = some found.block := by
        rw [State.callee?, hfound, Option.map_some]
      have hall : ∀ expression ∈ verbs ++ arguments,
          R.expression bound
            (frames (.call found.block verbs.length arguments.length :: pending)) self expression :=
        allowed
      have hclosed : ∀ failure state',
          R.holds ⟨.call found.block verbs.length arguments.length :: pending, self, state'⟩ ∧
            R.blames (frames pending) self failure →
          R.holds ⟨pending, self, state'⟩ ∧ R.blames (frames pending) self failure :=
        fun _ _ h' => ⟨R.move h'.1 .closeCall, h'.2⟩
      apply within_bind
      refine (knot.all_within (fun expression hmem => hall expression (by simp [hmem])) hopen).mono
        ?_ hclosed
      rintro verbValues between ⟨hbetween, hkept, hverbs⟩
      apply within_bind
      refine (knot.all_within (fun expression hmem => hall expression (by simp [hmem]))
        hbetween).mono ?_ hclosed
      rintro argumentValues reached ⟨hreached, hkept', harguments⟩
      rw [← hverbs, ← harguments] at hreached hclosed
      refine (knot.route ready named hreached fun strict => ?_).mono ?_ hclosed
      · rw [hkept' strict, hkept strict, hseen]
      · intro value state' h'
        exact R.move h' .closeCall
    · exact ⟨h, R.raise (by simp)⟩

/-! ## Slots -/

theorem keeps_access (op : SlotOp) (index value : Int64) :
    R.Keeps pending self (Slot.access self op index value) := by
  intro state h
  unfold Slot.access
  cases htarget : Slot.target? state self with
  | none => exact ⟨h, R.raise (by simp)⟩
  | some target =>
      cases hstore : (state.graph.block target).store with
      | none => simpa [hstore] using And.intro h (R.raise (by simp))
      | some store =>
          have hslot : state.slotStore? self = some store := by
            simp [State.slotStore?, htarget, hstore]
          simp only [hstore]
          cases op with
          | read =>
              simp only [Slot.read]
              split
              · exact h
              · exact ⟨h, R.raise (by simp)⟩
          | write =>
              simp only [Slot.write]
              split
              · rename_i hbinds
                have hwrite := R.move h (.slotWrite _ value hslot hbinds)
                split
                · exact ⟨hwrite, R.raise (by simp)⟩
                · exact ⟨hwrite, R.raise (by simp)⟩
                · exact hwrite
                · exact hwrite
              · rename_i hbinds
                exact R.move h (.slotPush _ value hslot (by simpa using hbinds))
          | delete =>
              simp only [Slot.delete]
              split
              · rename_i hbinds
                exact R.move h (.slotErase _ hslot hbinds)
              · exact ⟨h, R.raise (by simp)⟩

theorem Knot.slot (knot : R.Knot bound evaluate run) {op : SlotOp} {arguments : List Expression}
    (allowed : ∀ expression ∈ arguments, R.expression bound (frames pending) self expression) :
    R.Keeps pending self (Call.slot evaluate self op arguments) := by
  unfold Call.slot
  split
  · exact Keeps.fail (by simp)
  · exact Keeps.bind (knot.keeps_all allowed) fun values => keeps_access op _ _

end Knotted

end Regimen

end Bir
