import Bir.Proofs.Layout.Evaluation
import Bir.Proofs.Monotone
import Bir.Proofs.Reachable

/-!
# Changes — a change in place is an assignment

`x += e` reads `x`, evaluates `e`, computes and writes `x` back.  `x = x + e` looks for `x` and
leaves the rest to an expression, which reads `x` once more.  Between what is read and what is
written the operand may rebind `x`, remove what `x` was found in, or fail, so that the two agree only
because they read, check and write in the same order.  This file defines:

* `QuantityOp.arithmetic` and `QuantityOp.assignment` — the assignment that a change stands for;
* `Comes` — what a frame comes to with every bound that is ample;
* `State.Agrees` and `Outcome.Agrees` — the same but for positions.

A bound is spent on the nesting of expressions, and the assignment nests one deeper.  What both come
to does not depend on it: `changes_are_assignments`.
-/

namespace Bir

/-! ## The assignment of a change -/

namespace QuantityOp

/-- The operator that a change computes with. -/
def arithmetic : QuantityOp → ArithmeticOp
  | .increment | .add => .addition
  | .decrement | .subtract => .subtraction
  | .multiply => .multiplication
  | .divide => .division

/-- A change computes what its operator does. -/
theorem apply_eq (op : QuantityOp) (current amount : Int64) :
    op.apply current amount = op.arithmetic.apply current amount := by
  cases op <;> rfl

/-- The assignment of a name that a change of it stands for, where the change stands: `x = x + e`
for `x += e`, and `x = x + 1` for `x++`. -/
def assignment (op : QuantityOp) (target : Identifier) (operand : Option Expression)
    (position : Position) : Statement :=
  @Statement.assign target
    (@Expression.arithmetic op.arithmetic (.reference target)
      (operand.getD (.integer 1 position)) position) position

end QuantityOp

/-! ## Positions of failures -/

namespace Action

variable {α β : Type}

/-- Each part of a sequence has its failures placed. -/
theorem locate_bind (position : Unit → Position) (first : Action α) (next : α → Action β) :
    locate position (first >>= next) =
      locate position first >>= fun value => locate position (next value) := by
  funext state
  simp only [locate, bind_apply]
  cases first state with
  | done value after => rfl
  | failed failure after => rfl
  | exhausted => rfl

/-- A failure is placed once. -/
@[simp]
theorem locate_locate (position : Unit → Position) (action : Action α) :
    locate position (locate position action) = locate position action := by
  funext state
  simp only [locate]
  cases action state with
  | done value after => rfl
  | failed failure after =>
      have hplaced : (failure.place (position ())).place (position ()) =
          failure.place (position ()) := by
        unfold Failure.place
        split <;> simp_all
      simp only [hplaced]
  | exhausted => rfl

end Action

namespace Evaluation

open Bir.Action

/-! ## One statement -/

section Statement

variable {evaluate : Evaluator} {run : Runner} (self : EngineId) {target : Identifier}
variable (position : Position)

/-- A name that is not bound has no value. -/
theorem reference_of_unbound {state : State}
    (h : state.graph.find? (state.currentScope self) target.name = none) :
    expression evaluate run self (.reference target) state =
      failAt (.undefinedReference target.name) target.position state := by
  simp only [expression, h]

/-- What a change of a name does: without an operand its amount is one. -/
theorem modify_reference (op : QuantityOp) (operand : Option Expression) :
    modify (expression evaluate run) self op (.reference target) operand =
      (do
        let current ← expression evaluate run self (.reference target)
        let amount ← expression evaluate run self (operand.getD (.integer 1 position))
        let value ← ofArithmetic (op.arithmetic.apply current amount)
        writeBack self target value : Action Unit) := by
  cases operand with
  | none => simp only [modify, QuantityOp.apply_eq]; rfl
  | some operand => simp only [modify, QuantityOp.apply_eq]; rfl

/-- What an assignment of a bound name does: the name was found in vain, for its value is read again
before the operand is evaluated. -/
theorem assign_of_bound {op : ArithmeticOp} {amount : Expression} {found : Int64} {state : State}
    (h : state.graph.find? (state.currentScope self) target.name = some found) :
    assign (expression evaluate run) self target
        (@Expression.arithmetic op (.reference target) amount position) state =
      (do
        let current ← evaluate self (.reference target)
        let amount ← evaluate self amount
        let value ← locate (fun _ => position) (ofArithmetic (op.apply current amount))
        writeBack self target value : Action Unit) state := by
  simp only [assign, h, expression, Action.bind_assoc]

/-- A change of a name does what its assignment does, with failures placed. -/
theorem locate_modify_eq (op : QuantityOp) (operand : Option Expression) (run' : Runner) :
    locate (fun _ => position)
        (modify (expression evaluate run) self op (.reference target) operand) =
      locate (fun _ => position)
        (assign (expression (expression evaluate run) run') self target
          (@Expression.arithmetic op.arithmetic (.reference target)
            (operand.getD (.integer 1 position)) position)) := by
  funext state
  cases hfound : state.graph.find? (state.currentScope self) target.name with
  | none =>
      have hmodify : modify (expression evaluate run) self op (.reference target) operand state =
          failAt (.undefinedReference target.name) target.position state := by
        simp only [modify, bind_apply, reference_of_unbound self hfound, failAt]
      simp only [locate, hmodify, assign, hfound]
  | some found =>
      calc
        locate (fun _ => position)
            (modify (expression evaluate run) self op (.reference target) operand) state
          = locate (fun _ => position) (do
              let current ← expression evaluate run self (.reference target)
              let amount ← expression evaluate run self (operand.getD (.integer 1 position))
              let value ← locate (fun _ => position)
                (ofArithmetic (op.arithmetic.apply current amount))
              writeBack self target value) state := by
            simp only [modify_reference self position, locate_bind, locate_locate]
        _ = _ := by simp only [locate, assign_of_bound self position hfound]

end Statement

end Evaluation

/-! ## Levels -/

theorem evaluate_succ (bound : Nat) :
    evaluate (bound + 1) = Evaluation.expression (evaluate bound) (execute bound) := by
  funext self expression state
  rw [evaluate]

/-- What a frame does with its first statement, and then with the others. -/
theorem execute_succ (bound : Nat) (self : EngineId) (first : Statement) (rest : List Statement) :
    execute (bound + 1) self (first :: rest) =
      Action.locate (fun _ => first.position)
          (Evaluation.statement (evaluate bound) (execute bound) bound self first) >>= fun flow =>
        match flow with
        | .next => Evaluation.statements
            (Evaluation.statement (evaluate bound) (execute bound) bound self) rest
        | .ended value => pure value := by
  funext state
  rw [execute]
  rfl

open Bir.Action in
/-- A change of a name does as a statement what its assignment does one level above. -/
theorem locate_statement_eq (op : QuantityOp) (target : Identifier) (operand : Option Expression)
    (position : Position) (self : EngineId) (bound : Nat) :
    locate (fun _ => position) (Evaluation.statement (evaluate (bound + 1)) (execute (bound + 1))
        (bound + 1) self (@Statement.modify op (.reference target) operand position)) =
      locate (fun _ => position) (Evaluation.statement (evaluate (bound + 2)) (execute (bound + 2))
        (bound + 2) self (op.assignment target operand position)) := by
  have hmodify := @Evaluation.locate_modify_eq (evaluate bound) (execute bound) self target position
    op operand (execute (bound + 1))
  simp only [← evaluate_succ] at hmodify
  simp only [Evaluation.statement, QuantityOp.assignment, Evaluation.thenNext, locate_bind, hmodify]

/-! ## Bounds -/

section Bounds

open Bir.Action

variable {bound bound' : Nat}

theorem knot_of_le (h : bound ≤ bound') :
    Loss.short.Knot (evaluate bound) (fun _ : Unit => evaluate bound') (execute bound)
      fun _ => execute bound' := by
  have hknot := (Loss.short_refines h).knot
  simpa only [evaluateUnder_silent] using hknot

/-- A frame comes to what another one does with a greater bound, if its first statement does and the
others are the same. -/
theorem execute_upTo_of_first (h : bound ≤ bound') (self : EngineId) {first first' : Statement}
    (hfirst : UpTo Loss.short
      (locate (fun _ => first.position)
        (Evaluation.statement (evaluate bound) (execute bound) bound self first))
      fun _ : Unit => locate (fun _ => first'.position)
        (Evaluation.statement (evaluate bound') (execute bound') bound' self first'))
    (rest : List Statement) :
    UpTo Loss.short (execute (bound + 1) self (first :: rest))
      fun _ : Unit => execute (bound' + 1) self (first' :: rest) := by
  rw [execute_succ, execute_succ]
  refine hfirst.bind fun flow => ?_
  cases flow with
  | next => exact (knot_of_le h).statements self (.inr ⟨h, trivial⟩) rest
  | ended value => exact UpTo.refl _

/-- A greater bound changes nothing but what the bound has cut short. -/
theorem execute_upTo (h : bound ≤ bound') (self : EngineId) (body : List Statement) :
    UpTo Loss.short (execute bound self body) fun _ : Unit => execute bound' self body := by
  cases bound with
  | zero => exact fun state => .cut (by rw [execute]) trivial
  | succ bound =>
      rcases bound' with - | bound'
      · exact absurd h (Nat.not_succ_le_zero _)
      have hle := Nat.le_of_succ_le_succ h
      cases body with
      | nil => exact fun state => .same fun _ => by simp only [execute, Evaluation.statements]
      | cons first rest =>
          refine execute_upTo_of_first hle self (UpTo.locate ?_ _) rest
          exact (knot_of_le hle).statement self (.inr ⟨hle, trivial⟩) first

end Bounds

/-! ## What frames come to -/

/-- What a frame comes to: the outcome that it has with every bound that is ample. -/
def Comes (self : EngineId) (body : List Statement) (state : State) (outcome : Outcome Int64) :
    Prop :=
  outcome ≠ .exhausted ∧ ∃ ample, ∀ bound ≥ ample, execute bound self body state = outcome

theorem Outcome.UpTo.eq_of_ne_exhausted {α : Type} {outcome other : Outcome α}
    (h : outcome.UpTo Loss.short fun _ : Unit => other) (finished : outcome ≠ .exhausted) :
    other = outcome := by
  have hfinished : outcome.Within False (fun _ _ => True) fun _ _ => True := by
    cases outcome with
    | done value state => exact trivial
    | failed failure state => exact trivial
    | exhausted => exact finished rfl
  exact h.eq_of_within hfinished ()

namespace Comes

variable {self : EngineId} {body : List Statement} {state : State} {outcome : Outcome Int64}

/-- One bound that cuts nothing short tells what a frame comes to. -/
theorem of_execute {bound : Nat} (h : execute bound self body state = outcome)
    (finished : outcome ≠ .exhausted) : Comes self body state outcome := by
  refine ⟨finished, bound, fun bound' hle => ?_⟩
  subst h
  exact (execute_upTo hle self body state).eq_of_ne_exhausted finished

/-- A frame comes to what another one does, if it is that with some greater bound. -/
theorem of_upTo {body' : List Statement} (h : Comes self body state outcome)
    (deeper : ∀ bound, ∃ bound', Action.UpTo Loss.short (execute bound self body)
      fun _ : Unit => execute bound' self body') : Comes self body' state outcome := by
  rcases h with ⟨finished, ample, hample⟩
  rcases deeper ample with ⟨bound', hupto⟩
  have hsame := hupto state
  rw [hample ample (Nat.le_refl _)] at hsame
  exact of_execute (hsame.eq_of_ne_exhausted finished) finished

end Comes

/-- A change of a name at the start of a frame comes to what its assignment does. -/
theorem comes_change_iff (op : QuantityOp) (target : Identifier) (operand : Option Expression)
    (position : Position) (rest : List Statement) (self : EngineId) (state : State)
    (outcome : Outcome Int64) :
    Comes self (@Statement.modify op (.reference target) operand position :: rest) state outcome ↔
      Comes self (op.assignment target operand position :: rest) state outcome := by
  have hsame := locate_statement_eq op target operand position self
  constructor
  · intro h
    refine h.of_upTo fun bound => ?_
    cases bound with
    | zero => exact ⟨0, fun state => .cut (by rw [execute]) trivial⟩
    | succ bound =>
        -- The change one level above is the assignment two levels above.
        refine ⟨bound + 3, execute_upTo_of_first (Nat.le_add_right _ 2) self ?_ rest⟩
        have hmodify := (knot_of_le (Nat.le_succ bound)).statement self
          (.inr ⟨Nat.le_succ bound, trivial⟩)
          (@Statement.modify op (.reference target) operand position)
        have hlocated := hmodify.locate fun _ => position
        rwa [hsame bound] at hlocated
  · intro h
    refine h.of_upTo fun bound => ?_
    cases bound with
    | zero => exact ⟨0, fun state => .cut (by rw [execute]) trivial⟩
    | succ bound =>
        refine ⟨bound + 2, execute_upTo_of_first (Nat.le_succ _) self ?_ rest⟩
        have hassign := (knot_of_le (Nat.le_add_right bound 2)).statement self
          (.inr ⟨Nat.le_add_right bound 2, trivial⟩) (op.assignment target operand position)
        have hlocated := hassign.locate fun _ => position
        rwa [← hsame bound] at hlocated

/-! ## Positions -/

/-- Two states have as many scopes, with the same bindings, and the same console; in all else they
differ in nothing but positions. -/
structure State.Agrees (state state' : State) : Prop where
  scopes : state.graph.scopes.size = state'.graph.scopes.size
  bindings : ∀ id, (state.graph.get id).bindings = (state'.graph.get id).bindings
  console : state.console = state'.console
  unplaced : state.unplaced = state'.unplaced

theorem State.agrees_of_unplaced {state state' : State} (h : state.unplaced = state'.unplaced) :
    state.Agrees state' where
  scopes := by
    have hsize := congrArg (fun state : State => state.graph.scopes.size) h
    simpa using hsize
  bindings id := by
    have hbindings := congrArg (fun state : State => (state.graph.get id).bindings) h
    simpa using hbindings
  console := by
    have hconsole := congrArg State.console h
    exact hconsole
  unplaced := h

/-- Two runs have the same value, or failures of one kind that differ in nothing but positions, and
leave states that agree. -/
inductive Outcome.Agrees {α : Type} : Outcome α → Outcome α → Prop where
  | done {value : α} {state state' : State} (states : state.Agrees state') :
      Agrees (.done value state) (.done value state')
  | failed {failure failure' : Failure} {state state' : State}
      (kind : failure.cause.code = failure'.cause.code)
      (unplaced : failure.unplaced = failure'.unplaced) (states : state.Agrees state') :
      Agrees (.failed failure state) (.failed failure' state')

/-- The kind of a failure is in its cause, wherever it happened. -/
theorem Failure.Cause.code_unplaced (cause : Cause) : cause.unplaced.code = cause.code := by
  cases cause with
  | malformed cause => cases cause <;> rfl
  | _ => rfl

theorem Outcome.agrees_of_unplaced {α : Type} {outcome outcome' : Outcome α}
    (h : outcome.unplaced = outcome'.unplaced) (finished : outcome ≠ .exhausted) :
    outcome.Agrees outcome' := by
  cases outcome with
  | done value state =>
      cases outcome' with
      | done value' state' =>
          simp only [unplaced, done.injEq] at h
          rcases h with ⟨rfl, hstates⟩
          exact .done (State.agrees_of_unplaced hstates)
      | failed failure' state' => cases h
      | exhausted => cases h
  | failed failure state =>
      cases outcome' with
      | done value' state' => cases h
      | failed failure' state' =>
          simp only [unplaced, failed.injEq] at h
          rcases h with ⟨hfailures, hstates⟩
          have hcauses : failure.cause.unplaced = failure'.cause.unplaced :=
            congrArg Failure.cause hfailures
          refine .failed ?_ hfailures (State.agrees_of_unplaced hstates)
          rw [← failure.cause.code_unplaced, hcauses, failure'.cause.code_unplaced]
      | exhausted => cases h
  | exhausted => exact absurd rfl finished

/-- Frames that differ in nothing but positions come to outcomes that agree. -/
theorem Comes.agrees {self : EngineId} {body body' : List Statement} {state : State}
    {outcome : Outcome Int64} (h : Comes self body state outcome)
    (spelled : body.map Statement.unplaced = body'.map Statement.unplaced) :
    ∃ outcome', Comes self body' state outcome' ∧ outcome.Agrees outcome' := by
  rcases h with ⟨finished, ample, hample⟩
  have hunplaced : outcome.unplaced = (execute ample self body' state).unplaced := by
    calc
      outcome.unplaced
          = (execute ample self body state).unplaced := by rw [hample ample (Nat.le_refl _)]
      _ = execute ample self (body.map Statement.unplaced) state.unplaced :=
          ((runner_unplaced ample).2 self body state).symm
      _ = execute ample self (body'.map Statement.unplaced) state.unplaced := by rw [spelled]
      _ = (execute ample self body' state).unplaced := (runner_unplaced ample).2 self body' state
  have hagrees := Outcome.agrees_of_unplaced hunplaced finished
  have hfinished : execute ample self body' state ≠ .exhausted := by
    intro hexhausted
    rw [hexhausted] at hagrees
    cases hagrees
  exact ⟨_, .of_execute rfl hfinished, hagrees⟩

/-- A change in place is an assignment, in every state and with whatever operand: `x += e` comes to
what `x = x + e` does, and `x++` to what `x = x + 1` does, value or failure and state, or neither
ever finishes.  Written out elsewhere, as any assignment in the source is, they still have the same
value or failures of the same kind, the same bindings in every scope and the same console. -/
theorem changes_are_assignments (op : QuantityOp) (target : Identifier)
    (operand : Option Expression) (position : Position) (rest : List Statement) (self : EngineId)
    (state : State) :
    let change := @Statement.modify op (.reference target) operand position
    (∀ outcome, Comes self (change :: rest) state outcome ↔
      Comes self (op.assignment target operand position :: rest) state outcome) ∧
    ∀ assigned : Statement, assigned.unplaced = (op.assignment target operand position).unplaced →
      (∀ outcome, Comes self (change :: rest) state outcome →
        ∃ outcome', Comes self (assigned :: rest) state outcome' ∧ outcome.Agrees outcome') ∧
      ∀ outcome, Comes self (assigned :: rest) state outcome →
        ∃ outcome', Comes self (change :: rest) state outcome' ∧ outcome.Agrees outcome' := by
  intro change
  have hiff := comes_change_iff op target operand position rest self state
  refine ⟨hiff, fun assigned spelled => ?_⟩
  have hframes : (op.assignment target operand position :: rest).map Statement.unplaced =
      (assigned :: rest).map Statement.unplaced := by
    rw [List.map_cons, List.map_cons, spelled]
  refine ⟨fun outcome h => ((hiff outcome).1 h).agrees hframes, fun outcome h => ?_⟩
  rcases h.agrees hframes.symm with ⟨outcome', hcomes, hagrees⟩
  exact ⟨outcome', (hiff outcome').2 hcomes, hagrees⟩

/-- `-x += f()` as an instance, where the call of `f` writes `x`: the change adds to what `x` was
before, and so does the assignment on another line. -/
theorem changes_are_assignments_of_call :
    let name (negative : Bool) (line : Nat) : Identifier := ⟨"x", negative, ⟨line, 1⟩⟩
    let called (line : Nat) : Expression :=
      @Expression.call ⟨"f", false, ⟨line, 9⟩⟩ [] [] ⟨line, 9⟩
    let body : List Statement :=
      [@Statement.assign (name false 1) (.integer 100 ⟨1, 5⟩) ⟨1, 1⟩,
        .exit .return (.integer 2 ⟨1, 9⟩) ⟨1, 7⟩]
    let state : State :=
      { engines := #[{ scopeStack := #[0] }]
        graph := { scopes := #[{ bindings := [⟨"x", -5, .let⟩],
                                 blocks := [Block.declared 0 "f" [] [] none body] }] } }
    let change : Statement :=
      @Statement.modify .add (.reference (name true 2)) (some (called 2)) ⟨2, 1⟩
    let assigned : Statement :=
      @Statement.assign (name true 3)
        (@Expression.arithmetic .addition (.reference (name true 4)) (called 5) ⟨4, 1⟩) ⟨3, 1⟩
    assigned.unplaced =
        (QuantityOp.add.assignment (name true 2) (some (called 2)) ⟨2, 1⟩).unplaced ∧
      Comes 0 [change] state (execute 9 0 [change] state) ∧
      ((execute 9 0 [change] state).state?.bind fun after => after.graph.find? 0 "x") = some 7 ∧
      ∃ outcome, Comes 0 [assigned] state outcome ∧
        (execute 9 0 [change] state).Agrees outcome := by
  intro name called body state change assigned
  have hspelled : assigned.unplaced =
      (QuantityOp.add.assignment (name true 2) (some (called 2)) ⟨2, 1⟩).unplaced := rfl
  have hshown :
      ((execute 9 0 [change] state).state?.bind fun after => after.graph.find? 0 "x") = some 7 := by
    decide +kernel
  have hcomes : Comes 0 [change] state (execute 9 0 [change] state) := by
    refine .of_execute rfl fun hexhausted => ?_
    rw [hexhausted] at hshown
    cases hshown
  rcases changes_are_assignments .add (name true 2) (some (called 2)) ⟨2, 1⟩ [] 0 state with
    ⟨-, hsame⟩
  exact ⟨hspelled, hcomes, hshown, (hsame assigned hspelled).1 _ hcomes⟩

end Bir
