import Bir.Proofs.Layout.State
import Bir.Proofs.Outcome

/-!
# Layout — evaluation looks at no positions

A run tells failures where they happened and asks nothing of positions.  So a run of a program
without positions, from a state without them, is the run of the program from the state, without
them.  This file defines:

* `Outcome.unplaced`;
* `Action.Unplaced action action'` — `action'` does to states without positions what `action` does
  to states;
* `Evaluator.Unplaced` and `Runner.Unplaced`, for what evaluates code with positions and without.

There is one rule for each way that actions are put together, then one lemma for each construct, and
`runner_unplaced` ties the knot.
-/

namespace Bir

/-! ## Actions -/

/-- An outcome without positions. -/
def Outcome.unplaced {α : Type} : Outcome α → Outcome α
  | .done value state => .done value state.unplaced
  | .failed failure state => .failed failure.unplaced state.unplaced
  | .exhausted => .exhausted

namespace Action

variable {α β : Type}

/-- What one action does to a state without positions is what another one does to the state, without
positions. -/
def Unplaced (action action' : Action α) : Prop :=
  ∀ state : State, action' state.unplaced = (action state).unplaced

namespace Unplaced

variable {action action' : Action α}

/-! ### Sequence -/

theorem pure {value : α} : Unplaced (pure value) (pure value) := fun _ => rfl

theorem bind {next next' : α → Action β} (haction : Unplaced action action')
    (hnext : ∀ value, Unplaced (next value) (next' value)) :
    Unplaced (action >>= next) (action' >>= next') := by
  intro state
  rw [bind_apply, bind_apply, haction state]
  cases action state with
  | done value after => exact hnext value after
  | failed failure after => rfl
  | exhausted => rfl

theorem exhausted : Unplaced (Action.exhausted : Action α) Action.exhausted := fun _ => rfl

theorem fail (cause : Failure.Cause) :
    Unplaced (Action.fail cause : Action α) (Action.fail cause.unplaced) := fun _ => rfl

theorem failAt (cause : Failure.Cause) (position : Position) :
    Unplaced (Action.failAt cause position : Action α)
      (Action.failAt cause.unplaced .synthetic) := by
  intro state
  simp [Action.failAt, Outcome.unplaced]

theorem change {change change' : State → State}
    (commutes : ∀ state, change' state.unplaced = (change state).unplaced) :
    Unplaced (Action.change change) (Action.change change') := by
  intro state
  simp [Action.change, Outcome.unplaced, commutes]

theorem update {change change' : State → State × α}
    (commutes : ∀ state, change' state.unplaced = ((change state).1.unplaced, (change state).2)) :
    Unplaced (Action.update change) (Action.update change') := by
  intro state
  simp [Action.update, Outcome.unplaced, commutes]

theorem ofArithmetic (result : Except ArithmeticFault α) :
    Unplaced (Action.ofArithmetic result) (Action.ofArithmetic result) := by
  intro state
  cases result <;> rfl

/-! ### Failures on their way out -/

theorem locate (haction : Unplaced action action') (position : Unit → Position)
    {position' : Unit → Position} (taken : position' () = .synthetic) :
    Unplaced (Action.locate position action) (Action.locate position' action') := by
  intro state
  simp only [Action.locate, haction state]
  cases action state with
  | done value after => rfl
  | failed failure after => simp [Outcome.unplaced, taken]
  | exhausted => rfl

theorem reporting (self : EngineId) (haction : Unplaced action action') :
    Unplaced (Action.reporting self action) (Action.reporting self action') := by
  intro state
  simp only [Action.reporting, haction state]
  cases action state with
  | done value after => rfl
  | failed failure after => simp [Outcome.unplaced, State.report_unplaced]
  | exhausted => rfl

/-! ### Scopes, frames and loans -/

theorem withScope (self : EngineId) (scope : ScopeId) (haction : Unplaced action action') :
    Unplaced (Action.withScope self scope action) (Action.withScope self scope action') := by
  intro state
  simp only [Action.withScope, State.pushScope_unplaced, haction (state.pushScope self scope)]
  cases action (state.pushScope self scope) <;> simp [Outcome.unplaced]

theorem thenPop (self : EngineId) (haction : Unplaced action action') :
    Unplaced (Action.thenPop self action) (Action.thenPop self action') := by
  intro state
  simp only [Action.thenPop, haction state]
  cases action state <;> simp [Outcome.unplaced]

theorem inFlowFrame (self : EngineId) (frame : FlowFrame) (haction : Unplaced action action') :
    Unplaced (Action.inFlowFrame self frame action) (Action.inFlowFrame self frame action') := by
  intro state
  simp only [Action.inFlowFrame, State.modifyCallStack_unplaced]
  exact (haction.reporting self).thenPop self _

theorem inCallFrame (self : EngineId) (name : String) (haction : Unplaced action action') :
    Unplaced (Action.inCallFrame self name action) (Action.inCallFrame self name action') := by
  intro state
  simp only [Action.inCallFrame, State.callStack_unplaced, State.modifyCallStack_unplaced]
  cases (state.callStack self).exceeded? with
  | some limit => rfl
  | none => exact haction.thenPop self _

theorem take (caller owner : EngineId) (state : State) :
    Loan.take caller owner state.unplaced =
      ((Loan.take caller owner state).1, (Loan.take caller owner state).2.unplaced) := by
  unfold Loan.take
  simp only [State.setCallStack_unplaced, State.engine_unplaced, State.graph_unplaced,
    ScopeGraph.get_unplaced, State.setForeign_unplaced]
  exact Prod.ext rfl (State.modifyEngine_unplaced _ owner fun _ => rfl)

theorem giveBack (loan : Loan) (caller owner : EngineId) (state : State) :
    loan.giveBack caller owner state.unplaced = (loan.giveBack caller owner state).unplaced := by
  have hback := state.restoreStacks_unplaced owner loan.callStack loan.scopes
  simp only [Loan.giveBack, State.engine_unplaced, hback, State.setForeign_unplaced]
  exact State.setCallStack_unplaced _ caller _

theorem lending (caller owner : EngineId) (haction : Unplaced action action') :
    Unplaced (Action.lending caller owner action) (Action.lending caller owner action') := by
  intro state
  simp only [Action.lending, take, haction.reporting owner _]
  cases Action.reporting owner action (Loan.take caller owner state).2 <;>
    simp [Outcome.unplaced, giveBack]

end Unplaced

end Action

/-! ## The console -/

/-- What the console refuses has no position. -/
theorem Console.unplaced_of_call {console : Console} {verbs arguments : List Int64}
    {failure : Failure} (h : (console.call verbs arguments).1 = .error failure) :
    failure.unplaced = failure := by
  unfold Console.call at h
  split at h
  · cases h
  · split at h
    · split at h
      · cases h
        rfl
      · cases h
    · split at h
      · simp at h
      · split at h
        · cases h
        · split at h <;> cases h

/-! ## Evaluators and runners -/

/-- The same values with positions and without. -/
def Evaluator.Unplaced (evaluate evaluate' : Evaluator) : Prop :=
  ∀ (self : EngineId) (expression : Expression),
    (evaluate self expression).Unplaced (evaluate' self expression.unplaced)

/-- The same frames with positions and without. -/
def Runner.Unplaced (run run' : Runner) : Prop :=
  ∀ (self : EngineId) (body : List Statement),
    (run self body).Unplaced (run' self (body.map Statement.unplaced))

section Constructs

variable {evaluate evaluate' : Evaluator} {run run' : Runner}
  (hevaluate : evaluate.Unplaced evaluate') (hrun : run.Unplaced run') (self : EngineId)

namespace Call

include hevaluate in
theorem all_unplaced (expressions : List Expression) :
    (evaluate.all self expressions).Unplaced
      (evaluate'.all self (expressions.map Expression.unplaced)) := by
  induction expressions with
  | nil => exact .pure
  | cons first rest ih =>
      exact (hevaluate self first).bind fun value => ih.bind fun values => .pure

@[simp]
theorem mismatches_unplaced (block : Block) (verbs arguments : Nat) :
    mismatches block.unplaced verbs arguments = mismatches block verbs arguments := by
  unfold mismatches
  rw [Block.isNative_unplaced]
  rfl

theorem console_unplaced (verbs arguments : List Int64) :
    (console verbs arguments).Unplaced (console verbs arguments) := by
  intro state
  simp only [console, State.callConsole_unplaced]
  cases hresult : (state.callConsole verbs arguments).2 with
  | ok value => rfl
  | error failure => rw [Outcome.unplaced, Console.unplaced_of_call hresult]

include hrun in
theorem invoke_unplaced (ref : BlockRef) (called : String) (verbs arguments : List Int64) :
    (invoke run self ref called verbs arguments).Unplaced
      (invoke run' self ref called verbs arguments) := by
  intro state
  unfold invoke
  simp only [State.graph_unplaced, ScopeGraph.block_unplaced, State.currentScope_unplaced]
  have hscope : scope (state.graph.block ref).unplaced (state.currentScope self) verbs arguments =
      (scope (state.graph.block ref) (state.currentScope self) verbs arguments).unplaced := rfl
  rw [hscope, State.addScope_unplaced]
  generalize hblock : state.graph.block ref = block
  obtain ⟨_, _, _, _, body, _, _, _⟩ := block
  cases body with
  | native => exact (console_unplaced verbs arguments).inCallFrame self called state
  | interpreted init program =>
      exact (((hrun self program).reporting self).inCallFrame self called).withScope self _ _

theorem isLent_unplaced (state : State) (found : FoundBlock) :
    isLent state.unplaced self found = isLent state self found := by
  simp only [isLent, State.graph_unplaced, ScopeGraph.block_unplaced, State.config_unplaced,
    State.isLoadedBelow_unplaced]
  rfl

include hrun in
theorem route_unplaced (found : FoundBlock) (called : String) (verbs arguments : List Int64) :
    (route run self found called verbs arguments).Unplaced
      (route run' self found called verbs arguments) := by
  intro state
  simp only [route, isLent_unplaced, State.graph_unplaced, ScopeGraph.block_unplaced]
  split
  · exact (invoke_unplaced hrun _ found.block called verbs arguments).lending self _ state
  · exact invoke_unplaced hrun self found.block called verbs arguments state

include hevaluate hrun in
theorem block_unplaced (name : String) (verbs arguments : List Expression) :
    (block evaluate run self name verbs arguments).Unplaced
      (block evaluate' run' self name (verbs.map Expression.unplaced)
        (arguments.map Expression.unplaced)) := by
  intro state
  simp only [block, State.graph_unplaced, State.currentScope_unplaced,
    ScopeGraph.findBlock?_unplaced]
  cases state.graph.findBlock? (state.currentScope self) name with
  | none => rfl
  | some found =>
      simp only [ScopeGraph.block_unplaced, mismatches_unplaced, List.length_map]
      cases mismatches (state.graph.block found.block) verbs.length arguments.length with
      | cons first rest => rfl
      | nil =>
          refine ((all_unplaced hevaluate self verbs).bind fun verbs => ?_) state
          refine (all_unplaced hevaluate self arguments).bind fun arguments => ?_
          exact route_unplaced hrun self found name verbs arguments

end Call

/-! ### Slots -/

theorem Slot.target?_unplaced (state : State) :
    target? state.unplaced self = target? state self := by
  simp [target?]

theorem Slot.read_unplaced (block : String) (store : ScopeId) (slot : String) :
    (read block store slot).Unplaced (read block store slot) := by
  intro state
  simp only [read, State.graph_unplaced, ScopeGraph.get_unplaced, Scope.binding?_unplaced]
  cases (state.graph.get store).binding? slot <;> rfl

theorem Slot.write_unplaced (store : ScopeId) (slot : String) (value : Int64) :
    (write store slot value).Unplaced (write store slot value) := by
  intro state
  simp only [write, State.graph_unplaced, ScopeGraph.get_unplaced, Scope.binds_unplaced,
    State.updateBinding_unplaced]
  split
  · cases (state.updateBinding store slot value).2 <;> rfl
  · rw [Outcome.unplaced, State.modifyScope_unplaced]
    exact fun _ => rfl

theorem Slot.delete_unplaced (block : String) (store : ScopeId) (slot : String) :
    (delete block store slot).Unplaced (delete block store slot) := by
  intro state
  simp only [delete, State.graph_unplaced, ScopeGraph.get_unplaced, Scope.binds_unplaced]
  split
  · rw [Outcome.unplaced, State.modifyGraph_unplaced]
    exact fun graph => graph.delete_unplaced store slot
  · rfl

theorem Slot.access_unplaced (op : SlotOp) (index value : Int64) :
    (access self op index value).Unplaced (access self op index value) := by
  intro state
  simp only [access, target?_unplaced]
  cases target? state self with
  | none => rfl
  | some target =>
      simp only [State.graph_unplaced, ScopeGraph.block_unplaced]
      cases hstore : (state.graph.block target).store with
      | none => simp only [Block.unplaced, hstore]; rfl
      | some store =>
          simp only [Block.unplaced, hstore]
          cases op with
          | read => exact read_unplaced _ store (name index) state
          | write => exact write_unplaced store (name index) value state
          | delete => exact delete_unplaced _ store (name index) state

include hevaluate in
theorem Call.slot_unplaced (op : SlotOp) (arguments : List Expression) :
    (Call.slot evaluate self op arguments).Unplaced
      (Call.slot evaluate' self op (arguments.map Expression.unplaced)) := by
  simp only [Call.slot, List.length_map]
  split
  · exact .fail _
  · refine (Call.all_unplaced hevaluate self arguments).bind fun values => ?_
    exact Slot.access_unplaced self op _ _

/-! ### Declarations -/

namespace Declaration

theorem addBlock_unplaced (scope : ScopeId) (block : Block) :
    (addBlock scope block).Unplaced (addBlock scope block.unplaced) := by
  refine .update fun state => ?_
  simp only [State.graph_unplaced, ScopeGraph.get_unplaced]
  rw [State.modifyScope_unplaced _ _ fun scope => scope.addBlock_unplaced block]
  simp [Scope.unplaced]

theorem attachStore_unplaced (ref : BlockRef) :
    (attachStore self ref).Unplaced (attachStore self ref) := by
  refine .update fun state => ?_
  have hstore : ∀ parent : ScopeId, state.unplaced.addScope { parents := [parent] } =
      ((state.addScope { parents := [parent] }).1.unplaced,
        (state.addScope { parents := [parent] }).2) :=
    fun parent => state.addScope_unplaced { parents := [parent] }
  simp only [State.currentScope_unplaced, hstore]
  rw [State.modifyGraph_unplaced]
  exact fun graph => graph.modifyBlock_unplaced ref fun _ => rfl

include hrun in
theorem runInit_unplaced (ref : BlockRef) (name : String) (init : Option (List Statement)) :
    (runInit run self ref name init).Unplaced
      (runInit run' self ref name (init.map (List.map Statement.unplaced))) := by
  cases init with
  | none => exact .pure
  | some statements =>
      refine (attachStore_unplaced self ref).bind fun store => ?_
      refine Action.Unplaced.bind ?_ fun _ => .pure
      exact (((hrun self statements).reporting self).inCallFrame self _).withScope self store

theorem finish_unplaced (scope : ScopeId) (name : String) (store : Option ScopeId) :
    (finish scope name store).Unplaced (finish scope name store) :=
  .change fun state => state.modifyGraph_unplaced fun graph =>
    graph.markInitialized_unplaced scope name store

include hrun in
theorem plain_unplaced (name : Identifier) (verbs arguments : List Identifier)
    (init : Option (List Statement)) (program : List Statement) :
    (plain run self name verbs arguments init program).Unplaced
      (plain run' self name.unplaced (verbs.map Identifier.unplaced)
        (arguments.map Identifier.unplaced) (init.map (List.map Statement.unplaced))
        (program.map Statement.unplaced)) := by
  intro state
  simp only [plain, State.graph_unplaced, State.currentScope_unplaced, ScopeGraph.get_unplaced,
    Scope.declares_unplaced, Identifier.name_unplaced, Identifier.position_unplaced]
  split
  · exact Action.Unplaced.failAt (.duplicateDeclaration name.name) name.position state
  · have hnames : ∀ names : List Identifier,
        (names.map Identifier.unplaced).map (·.name) = names.map (·.name) := by
      simp
    have hblock : Block.declared self name.name (verbs.map (·.name)) (arguments.map (·.name))
        (init.map (List.map Statement.unplaced)) (program.map Statement.unplaced) =
        (Block.declared self name.name (verbs.map (·.name)) (arguments.map (·.name)) init
          program).unplaced := rfl
    rw [hnames, hnames, hblock]
    refine ((addBlock_unplaced _ _).bind fun ref => ?_) state
    refine (runInit_unplaced hrun self ref name.name init).bind fun store => ?_
    exact finish_unplaced _ name.name store

/-! ### Implementing blocks -/

include hevaluate in
theorem populateValues_unplaced (source : Populate) :
    (populateValues evaluate self source).Unplaced
      (populateValues evaluate' self source.unplaced) := by
  cases source with
  | string text => exact .pure
  | array elements => exact Call.all_unplaced hevaluate self elements

include hevaluate in
theorem populate_unplaced (scope : ScopeId) (source : Populate) (store : Option ScopeId) :
    (populate evaluate self scope source store).Unplaced
      (populate evaluate' self scope source.unplaced store) := by
  have hseed : ∀ (values : List Int64) (store : ScopeId),
      Action.Unplaced (Action.change fun state => state.modifyScope store (seed values))
        (Action.change fun state => state.modifyScope store (seed values)) :=
    fun values store => .change fun state => state.modifyScope_unplaced store fun _ => rfl
  refine (populateValues_unplaced hevaluate self source).bind fun values => ?_
  cases store with
  | some store =>
      exact Action.Unplaced.pure.bind fun store => (hseed values store).bind fun _ => .pure
  | none =>
      refine (Action.Unplaced.update fun state => ?_).bind fun store =>
        (hseed values store).bind fun _ => .pure
      exact state.addScope_unplaced { parents := [scope] }

include hevaluate hrun in
theorem implementing_unplaced (name parent : Identifier) (source : Option Populate) :
    (implementing evaluate run self name parent source).Unplaced
      (implementing evaluate' run' self name.unplaced parent.unplaced
        (source.map Populate.unplaced)) := by
  intro state
  simp only [implementing, State.graph_unplaced, State.currentScope_unplaced,
    ScopeGraph.findBlock?_unplaced, Identifier.name_unplaced, Identifier.position_unplaced]
  cases state.graph.findBlock? (state.currentScope self) parent.name with
  | none => rfl
  | some found =>
      simp only [ScopeGraph.get_unplaced, Scope.declares_unplaced, ScopeGraph.block_unplaced]
      split
      · exact Action.Unplaced.failAt (.duplicateDeclaration name.name) name.position state
      · have hblock : Block.implementing self name.name (state.graph.block found.block).unplaced =
            (Block.implementing self name.name (state.graph.block found.block)).unplaced := rfl
        rw [hblock, Block.init?_unplaced]
        refine ((addBlock_unplaced _ _).bind fun ref => ?_) state
        refine (runInit_unplaced hrun self ref name.name _).bind fun store => ?_
        cases source with
        | none => exact Action.Unplaced.pure.bind fun store => finish_unplaced _ name.name store
        | some source =>
            refine (populate_unplaced hevaluate self _ source store).bind fun store => ?_
            exact Action.Unplaced.pure.bind fun store => finish_unplaced _ name.name store

include hevaluate in
theorem binding_unplaced (kind : BindingKind) (name : Identifier) (value : Expression) :
    (binding evaluate self kind name value).Unplaced
      (binding evaluate' self kind name.unplaced value.unplaced) := by
  intro state
  simp only [binding, State.graph_unplaced, State.currentScope_unplaced, ScopeGraph.get_unplaced,
    Scope.binds_unplaced, Identifier.name_unplaced, Identifier.position_unplaced]
  split
  · exact Action.Unplaced.failAt (.duplicateDeclaration name.name) name.position state
  · refine ((hevaluate self value).bind fun value => .change fun state => ?_) state
    exact state.modifyScope_unplaced _ fun _ => rfl

end Declaration

/-! ### Expressions -/

namespace Evaluation

include hevaluate hrun in
theorem expression_unplaced (expression : Expression) :
    (Evaluation.expression evaluate run self expression).Unplaced
      (Evaluation.expression evaluate' run' self expression.unplaced) := by
  cases expression with
  | arithmetic op left right =>
      refine (hevaluate self left).bind fun l => (hevaluate self right).bind fun r => ?_
      exact (Action.Unplaced.ofArithmetic _).locate _ rfl
  | condition op left right =>
      exact (hevaluate self left).bind fun l => (hevaluate self right).bind fun r => .pure
  | logarithm operand keyword =>
      refine (hevaluate self operand).bind fun value => ?_
      exact (Action.Unplaced.ofArithmetic _).locate _ rfl
  | call name verbs arguments =>
      have hcall := Call.block_unplaced hevaluate hrun self name.name verbs arguments
      simp only [Evaluation.expression, Expression.unplaced, Expression.unplacedAll_eq_map]
      exact hcall.locate _ rfl
  | slot op arguments keyword =>
      have hslot := Call.slot_unplaced hevaluate self op arguments
      simp only [Evaluation.expression, Expression.unplaced, Expression.unplacedAll_eq_map]
      exact hslot.locate _ rfl
  | integer value position => exact .pure
  | string text position => exact .failAt _ position
  | reference name =>
      intro state
      simp only [Evaluation.expression, Expression.unplaced, State.graph_unplaced,
        State.currentScope_unplaced, ScopeGraph.find?_unplaced, Identifier.name_unplaced]
      cases state.graph.find? (state.currentScope self) name.name with
      | some value => rfl
      | none => exact Action.Unplaced.failAt (.undefinedReference name.name) name.position state

/-! ### Writing -/

theorem writeBack_unplaced (target : Identifier) (value : Int64) :
    (writeBack self target value).Unplaced (writeBack self target.unplaced value) := by
  intro state
  simp only [writeBack, State.currentScope_unplaced, Identifier.name_unplaced,
    State.updateBinding_unplaced]
  cases (state.updateBinding (state.currentScope self) target.name value).2 with
  | granted => rfl
  | deniedConst => exact Action.Unplaced.failAt (.constReassignment target.name) target.position _
  | deniedImmutable =>
      exact Action.Unplaced.failAt (.immutableReassignment target.name) target.position _
  | unbound => exact Action.Unplaced.failAt (.undefinedReference target.name) target.position _

include hevaluate in
theorem assign_unplaced (target : Identifier) (value : Expression) :
    (assign evaluate self target value).Unplaced
      (assign evaluate' self target.unplaced value.unplaced) := by
  intro state
  simp only [assign, State.graph_unplaced, State.currentScope_unplaced, ScopeGraph.find?_unplaced,
    Identifier.name_unplaced]
  cases state.graph.find? (state.currentScope self) target.name with
  | none => exact Action.Unplaced.failAt (.undefinedReference target.name) target.position state
  | some _ =>
      exact ((hevaluate self value).bind fun value => writeBack_unplaced self target value) state

/-- The value of a change goes back to the name that it is asked of, if it is asked of one. -/
theorem writeBack_target_unplaced (target : Expression) (value : Int64) :
    Action.Unplaced
      (match target.reference? with
        | some name => writeBack self name value
        | none => pure ())
      (match target.unplaced.reference? with
        | some name => writeBack self name value
        | none => pure ()) := by
  rw [Expression.reference?_unplaced]
  cases target.reference? with
  | none => exact .pure
  | some name => exact writeBack_unplaced self name value

include hevaluate in
theorem modify_unplaced (op : QuantityOp) (target : Expression) (operand : Option Expression) :
    (modify evaluate self op target operand).Unplaced
      (modify evaluate' self op target.unplaced (operand.map Expression.unplaced)) := by
  refine (hevaluate self target).bind fun current => ?_
  have hcomputed (amount : Int64) :=
    Action.Unplaced.ofArithmetic (op.apply current amount)
  cases operand with
  | none =>
      exact Action.Unplaced.pure.bind fun amount =>
        (hcomputed amount).bind (writeBack_target_unplaced self target)
  | some operand =>
      exact (hevaluate self operand).bind fun amount =>
        (hcomputed amount).bind (writeBack_target_unplaced self target)

/-! ### Statements -/

include hrun in
theorem taken_unplaced (frame : FlowFrame) (body : List Statement) :
    (taken run self frame body).Unplaced
      (taken run' self frame (body.map Statement.unplaced)) :=
  ((hrun self body).inFlowFrame self frame).bind fun _ => .pure

include hrun in
theorem otherwise_unplaced (frame : FlowFrame) (rest : Option (List Statement)) :
    (otherwise run self frame rest).Unplaced
      (otherwise run' self frame (rest.map (List.map Statement.unplaced))) := by
  cases rest with
  | none => exact .pure
  | some body => exact taken_unplaced hrun self frame body

include hevaluate hrun in
theorem firstArm_unplaced (asked : Int64 → Bool) (frame last : FlowFrame)
    (rest : Option (List Statement)) (arms : List (Expression × List Statement)) :
    (firstArm evaluate run self asked frame last rest arms).Unplaced
      (firstArm evaluate' run' self asked frame last (rest.map (List.map Statement.unplaced))
        (arms.map Statement.unplacedArm)) := by
  induction arms with
  | nil => exact otherwise_unplaced hrun self last rest
  | cons first arms ih =>
      rw [List.map_cons, Statement.unplacedArm_eq]
      refine (hevaluate self first.1).bind fun value => ?_
      split
      · exact taken_unplaced hrun self frame first.2
      · exact ih

include hevaluate hrun in
theorem repeatWhile_unplaced (condition : Expression) (body : List Statement) (turns : Nat) :
    (repeatWhile evaluate run self condition body turns).Unplaced
      (repeatWhile evaluate' run' self condition.unplaced (body.map Statement.unplaced) turns) := by
  induction turns with
  | zero => exact .exhausted
  | succ turns ih =>
      refine (hevaluate self condition).bind fun value => ?_
      split
      · exact ((hrun self body).inFlowFrame self .loopWhile).bind fun _ => ih
      · exact .pure

include hrun in
theorem turn_unplaced (placeholder : String) (body : List Statement) (index : Int64) :
    (turn run self placeholder body index).Unplaced
      (turn run' self placeholder (body.map Statement.unplaced) index) := by
  refine Action.Unplaced.bind (.update fun state => ?_) fun scope => ?_
  · rw [State.currentScope_unplaced]
    exact state.addScope_unplaced (turnScope placeholder (state.currentScope self) index)
  · refine Action.Unplaced.bind ?_ fun _ => .pure
    exact ((hrun self body).inFlowFrame self .loopFor).withScope self scope

include hrun in
theorem repeatFor_unplaced (placeholder : String) (body : List Statement) (left : Nat)
    (index : Int64) :
    (repeatFor run self placeholder body left index).Unplaced
      (repeatFor run' self placeholder (body.map Statement.unplaced) left index) := by
  induction left generalizing index with
  | zero => exact .pure
  | succ left ih => exact (turn_unplaced hrun self placeholder body index).bind fun _ => ih _

include hevaluate in
theorem leave_unplaced (exit : Exit) (value : Expression) :
    (leave evaluate self exit value).Unplaced (leave evaluate' self exit value.unplaced) := by
  intro state
  simp only [leave, State.callStack_unplaced]
  split
  · rfl
  · refine ((hevaluate self value).bind fun value => ?_) state
    cases exit with
    | «return» => exact .pure
    | throw => exact .fail (.uncaughtThrow value)

theorem thenNext_unplaced {α : Type} {action action' : Action α} (h : action.Unplaced action') :
    (thenNext action).Unplaced (thenNext action') :=
  h.bind fun _ => .pure

include hevaluate hrun in
theorem statement_unplaced (turns : Nat) (statement : Statement) :
    (Evaluation.statement evaluate run turns self statement).Unplaced
      (Evaluation.statement evaluate' run' turns self statement.unplaced) := by
  cases statement with
  | declare kind name value keyword =>
      exact thenNext_unplaced (Declaration.binding_unplaced hevaluate self kind name value)
  | block name verbs arguments init program =>
      rw [Statement.unplaced, Statement.unplacedRest_eq_map, Statement.unplacedBody_eq_map]
      exact thenNext_unplaced
        (Declaration.plain_unplaced hrun self name verbs arguments init program)
  | implementing name parent populate =>
      exact thenNext_unplaced
        (Declaration.implementing_unplaced hevaluate hrun self name parent populate)
  | assign target value => exact thenNext_unplaced (assign_unplaced hevaluate self target value)
  | modify op target operand =>
      exact thenNext_unplaced (modify_unplaced hevaluate self op target operand)
  | exit way value keyword => exact leave_unplaced hevaluate self way value
  | branch condition body elifs rest keyword =>
      rw [Statement.unplaced, Statement.unplacedBody_eq_map, Statement.unplacedArms_eq_map,
        Statement.unplacedRest_eq_map]
      refine (hevaluate self condition).bind fun value => ?_
      split
      · exact taken_unplaced hrun self .branch body
      · exact firstArm_unplaced hevaluate hrun self isTruthy .elif .otherwise rest elifs
  | repeatWhile condition body keyword =>
      rw [Statement.unplaced, Statement.unplacedBody_eq_map]
      exact thenNext_unplaced (repeatWhile_unplaced hevaluate hrun self condition body turns)
  | repeatFor count placeholder body keyword =>
      rw [Statement.unplaced, Statement.unplacedBody_eq_map]
      refine (hevaluate self count).bind fun count => ?_
      exact thenNext_unplaced (repeatFor_unplaced hrun self placeholder.name body _ 0)
  | switch condition cases rest keyword =>
      rw [Statement.unplaced, Statement.unplacedArms_eq_map, Statement.unplacedRest_eq_map]
      refine (hevaluate self condition).bind fun value => ?_
      exact firstArm_unplaced hevaluate hrun self (· == value) .case .default rest cases
  | evaluate value => exact thenNext_unplaced (hevaluate self value)
  | comment text position => exact .pure

theorem statements_unplaced {step step' : Statement → Action Flow}
    (hstep : ∀ statement, (step statement).Unplaced (step' statement.unplaced))
    (body : List Statement) :
    (statements step body).Unplaced (statements step' (body.map Statement.unplaced)) := by
  induction body with
  | nil => exact .pure
  | cons first rest ih =>
      refine ((hstep first).locate _ first.position_unplaced).bind fun flow => ?_
      cases flow with
      | next => exact ih
      | ended value => exact .pure

end Evaluation

end Constructs

/-! ## All levels -/

/-- Evaluation and execution look at no positions, however deep they nest. -/
theorem runner_unplaced (bound : Nat) :
    Evaluator.Unplaced (evaluate bound) (evaluate bound) ∧
      Runner.Unplaced (execute bound) (execute bound) := by
  induction bound with
  | zero =>
      refine ⟨fun self expression state => ?_, fun self body state => ?_⟩
      · rw [evaluate, evaluate, Outcome.unplaced]
      · rw [execute, execute, Outcome.unplaced]
  | succ bound ih =>
      obtain ⟨hevaluate, hrun⟩ := ih
      refine ⟨fun self expression state => ?_, fun self body state => ?_⟩
      · rw [evaluate, evaluate]
        exact Evaluation.expression_unplaced hevaluate hrun self expression state
      · rw [execute, execute]
        exact Evaluation.statements_unplaced
          (Evaluation.statement_unplaced hevaluate hrun self bound) body state

end Bir
