import Bir.Proofs.Bridging.Coupling

/-!
# Coupled evaluation — every construct comes to the same on both sides

This file goes through declarations, expressions and statements and shows that each comes to the
same on both sides of a coupling if the evaluations in it do.  `Coupling.knot` closes the circle by
induction on the bound.

A declaration records the engine that makes it, so in a scope that is kept it must be the same
engine on both sides.
-/

namespace Bir

namespace Coupling

variable {C : Coupling} {α : Type} {left right : EngineId}
variable {evaluate evaluate' : Evaluator} {run run' : Runner}

/-- Two actions that may declare blocks come to the same where the current scope is not kept, or
one engine makes the declarations on both sides. -/
def CouplesDeclaring (C : Coupling) (left right : EngineId) (action action' : Action α) : Prop :=
  ∀ state state', Agree C.kept left state right state' →
    left = right ∨ C.kept (state.currentScope left) = false →
    C.Pairs (state.callStack left) state state' (action state) (action' state')

theorem Couples.declaring {action action' : Action α} (h : C.Couples left right action action') :
    C.CouplesDeclaring left right action action' :=
  fun state state' hagree _ => h state state' hagree

/-! ## Declarations -/

/-- A new scope gets the same number on both sides. -/
theorem Pairs.addScope {state state' : State} {stack : CallStack}
    (h : Agree C.kept left state right state') (scope : Scope) :
    C.Pairs stack state state' (Action.update (fun state => state.addScope scope) state)
      (Action.update (fun state => state.addScope scope) state') := by
  change C.Pairs stack state state' (.done state.graph.scopes.size (state.addScope scope).1)
    (.done state'.graph.scopes.size (state'.addScope scope).1)
  rw [← h.graph.size]
  exact .done (h.addScope scope)

/-- Both sides make the same store for a block. -/
theorem Pairs.attachStore {state state' : State} {stack : CallStack}
    (h : Agree C.kept left state right state') (ref : BlockRef) :
    C.Pairs stack state state' (Declaration.attachStore left ref state)
      (Declaration.attachStore right ref state') := by
  have hadded := h.addScope { parents := [state.currentScope left] }
  have hattached : InStep C.kept state state' (state.attachStore left ref)
      (state'.attachStore right ref) := by
    refine { h.inStep with graph := ?_ }
    simp only [State.attachStore, State.graph_modifyGraph, ← h.current, ← h.graph.size]
    exact hadded.graph.modifyBlock ref fun _ => rfl
  change C.Pairs stack state state' (.done state.graph.scopes.size (state.attachStore left ref))
    (.done state'.graph.scopes.size (state'.attachStore right ref))
  rw [← h.graph.size]
  exact .done hattached

theorem Knot.runInit (knot : C.Knot evaluate evaluate' run run') (ref : BlockRef) (name : String)
    (init : Option (List Statement)) :
    C.Couples left right (Declaration.runInit run left ref name init)
      (Declaration.runInit run' right ref name init) := by
  cases init with
  | none => exact Couples.pure none
  | some statements =>
      intro state state' h
      refine Pairs.bind (Pairs.attachStore h ref) fun store after after' hstep => ?_
      have hentered := (h.after hstep).pushScope store
      have hinit := (knot.runs statements).inCallFrame (Declaration.initFrame name) _ _ hentered
      rw [State.callStack_pushScope, State.callStack_congr hstep.engines] at hinit
      refine Pairs.bind (Pairs.withScope hinit) fun _ later later' hlater => ?_
      exact .done { hlater with engines := rfl, engines' := rfl, config := rfl }

theorem Couples.finish (scope : ScopeId) (name : String) (store : Option ScopeId) :
    C.Couples left right (Declaration.finish scope name store)
      (Declaration.finish scope name store) := by
  intro state state' h
  exact .done (h.change (h.graph.markInitialized scope name store))

/-- A declared block is added to the same place on both sides. -/
theorem Pairs.addBlock {state state' : State} {stack : CallStack}
    (h : Agree C.kept left state right state') (scope : ScopeId) {block block' : Block}
    (bare : block.bare = block'.bare) (owner : C.kept scope = true → block = block') :
    C.Pairs stack state state' (Declaration.addBlock scope block state)
      (Declaration.addBlock scope block' state') := by
  have hplace : (state.graph.get scope).blocks.length = (state'.graph.get scope).blocks.length :=
    (h.graph.scopes scope).length
  have hstep : InStep C.kept state state'
      (state.modifyScope scope fun scope => scope.addBlock block)
      (state'.modifyScope scope fun scope => scope.addBlock block') :=
    h.change (h.graph.modify scope fun _ _ hlike => hlike.addBlock bare owner)
  simp only [Declaration.addBlock, Action.update, hplace]
  exact .done hstep

/-- Where the current scope is kept, one engine makes the declarations on both sides. -/
theorem eq_of_kept {state : State} (hfree : left = right ∨ C.kept (state.currentScope left) = false)
    (hkept : C.kept (state.currentScope left) = true) : left = right := by
  rcases hfree with heq | hfree
  · exact heq
  · rw [hfree] at hkept
    cases hkept

/-- The rest of a declaration, once its block has a place. -/
theorem Pairs.thenCouples {β : Type} {state state' : State} {first first' : Action α}
    {next next' : α → Action β} (h : Agree C.kept left state right state')
    (hfirst : C.Pairs (state.callStack left) state state' (first state) (first' state'))
    (hnext : ∀ value, C.Couples left right (next value) (next' value)) :
    C.Pairs (state.callStack left) state state' ((first >>= next) state)
      ((first' >>= next') state') := by
  refine Pairs.bind hfirst fun value after after' hstep => ?_
  have hrest := hnext value after after' (h.after hstep)
  rwa [State.callStack_congr hstep.engines] at hrest

theorem Knot.plain (knot : C.Knot evaluate evaluate' run run') (name : Identifier)
    (verbs arguments : List Identifier) (init : Option (List Statement))
    (program : List Statement) :
    C.CouplesDeclaring left right (Declaration.plain run left name verbs arguments init program)
      (Declaration.plain run' right name verbs arguments init program) := by
  intro state state' h hfree
  unfold Declaration.plain
  simp only [← h.current, h.declares]
  split
  · exact .failed (.refl _) h.inStep
  · refine Pairs.thenCouples h (Pairs.addBlock h _ rfl ?_) fun ref => ?_
    · intro hkept
      rw [eq_of_kept hfree hkept]
    · exact Couples.bind (knot.runInit ref name.name init) fun store => Couples.finish _ _ store

theorem Knot.populate (knot : C.Knot evaluate evaluate' run run') (scope : ScopeId)
    (source : Populate) (store : Option ScopeId) :
    C.Couples left right (Declaration.populate evaluate left scope source store)
      (Declaration.populate evaluate' right scope source store) := by
  have hvalues : C.Couples left right (Declaration.populateValues evaluate left source)
      (Declaration.populateValues evaluate' right source) := by
    cases source with
    | string text => exact Couples.pure _
    | array elements => exact knot.all elements
  have hseed : ∀ (values : List Int64) (store : ScopeId), C.Couples left right
      (do
        Action.change fun state => state.modifyScope store (Declaration.seed values)
        return store : Action ScopeId)
      (do
        Action.change fun state => state.modifyScope store (Declaration.seed values)
        return store) := by
    intro values store state state' h
    exact .done (h.modifyScope store fun _ _ hlike =>
      (hlike.withBindings (· ++ Declaration.seededSlots values)).overwrite _ _)
  refine Couples.bind hvalues fun values => ?_
  cases store with
  | some store => exact hseed values store
  | none =>
      intro state state' h
      exact Pairs.thenCouples h (Pairs.addScope h { parents := [scope] }) (hseed values)

theorem Knot.implementing (knot : C.Knot evaluate evaluate' run run') (name parent : Identifier)
    (source : Option Populate) :
    C.CouplesDeclaring left right
      (Declaration.implementing evaluate run left name parent source)
      (Declaration.implementing evaluate' run' right name parent source) := by
  intro state state' h hfree
  have hfound := h.findBlock? parent.name
  unfold Declaration.implementing
  simp only [← h.current, h.declares] at hfound ⊢
  cases hleft : state.graph.findBlock? (state.currentScope left) parent.name <;>
    cases hright : state'.graph.findBlock? (state.currentScope left) parent.name <;>
    rw [hleft, hright] at hfound
  · exact .failed (.refl _) h.inStep
  · cases hfound
  · cases hfound
  · rename_i found found'
    have hblock : found.block = found'.block := by simpa using hfound
    have hbare := h.graph.block found'.block
    simp only [hblock]
    split
    · exact .failed (.refl _) h.inStep
    · have hinit : (Block.implementing left name.name (state.graph.block found'.block)).init? =
          (Block.implementing right name.name (state'.graph.block found'.block)).init? :=
        Block.congr_bare Block.init? (fun _ => rfl)
          (Block.bare_implementing hbare left right name.name)
      rw [hinit]
      refine Pairs.thenCouples h (Pairs.addBlock h _ (Block.bare_implementing hbare _ _ _) ?_)
        fun ref => ?_
      · intro hkept
        rw [← eq_of_kept hfree hkept]
        exact Block.congr_bare (Block.implementing left name.name) (fun _ => rfl) hbare
      · refine Couples.bind (knot.runInit ref name.name _) fun store => ?_
        cases source with
        | none => exact Couples.finish _ _ store
        | some source =>
            exact Couples.bind (knot.populate _ source store) fun store => Couples.finish _ _ _

theorem Knot.binding (knot : C.Knot evaluate evaluate' run run') (kind : BindingKind)
    (name : Identifier) (value : Expression) :
    C.Couples left right (Declaration.binding evaluate left kind name value)
      (Declaration.binding evaluate' right kind name value) := by
  intro state state' h
  unfold Declaration.binding
  simp only [← h.current, h.binds]
  split
  · exact .failed (.refl _) h.inStep
  · refine Pairs.thenCouples h (knot.evaluates value state state' h) fun value => ?_
    intro after after' hafter
    exact .done (hafter.modifyScope _ fun _ _ hlike => hlike.push name.name value kind)

/-! ## Expressions -/

theorem Knot.expression (knot : C.Knot evaluate evaluate' run run') (expression : Expression) :
    C.Couples left right (Evaluation.expression evaluate run left expression)
      (Evaluation.expression evaluate' run' right expression) := by
  cases expression with
  | arithmetic op l r =>
      refine Couples.bind (knot.evaluates l) fun l => ?_
      refine Couples.bind (knot.evaluates r) fun r => ?_
      exact (Couples.ofArithmetic _).locate _
  | condition op l r =>
      refine Couples.bind (knot.evaluates l) fun l => ?_
      exact Couples.bind (knot.evaluates r) fun r => Couples.pure _
  | logarithm operand keyword =>
      refine Couples.bind (knot.evaluates operand) fun value => ?_
      exact (Couples.ofArithmetic _).locate _
  | @call name verbs arguments position =>
      exact (knot.block name.name verbs arguments).locate fun _ => position
  | slot op arguments keyword => exact (knot.slot op arguments).locate fun _ => keyword
  | integer value position => exact Couples.pure value
  | string text position => exact Couples.failAt _ position
  | reference name =>
      intro state state' h
      simp only [Evaluation.expression, h.find?]
      split
      · exact .done h.inStep
      · exact .failed (.refl _) h.inStep

/-! ## Statements -/

theorem Couples.writeBack (target : Identifier) (value : Int64) :
    C.Couples left right (Evaluation.writeBack left target value)
      (Evaluation.writeBack right target value) := by
  intro state state' h
  obtain ⟨hgraph, houtcome⟩ := h.graph.update (state.currentScope left) target.name value
  have hstep : InStep C.kept state state'
      (state.updateBinding (state.currentScope left) target.name value).1
      (state'.updateBinding (state.currentScope left) target.name value).1 :=
    { h.inStep with graph := hgraph }
  have hsame : (state.updateBinding (state.currentScope left) target.name value).2 =
      (state'.updateBinding (state.currentScope left) target.name value).2 := houtcome
  simp only [Evaluation.writeBack, ← h.current, hsame]
  split
  · exact .done hstep
  · exact .failed (.refl _) hstep

theorem Knot.assign (knot : C.Knot evaluate evaluate' run run') (target : Identifier)
    (value : Expression) :
    C.Couples left right (Evaluation.assign evaluate left target value)
      (Evaluation.assign evaluate' right target value) := by
  intro state state' h
  simp only [Evaluation.assign, h.find?]
  split
  · exact .failed (.refl _) h.inStep
  · exact Couples.bind (knot.evaluates value) (fun value => Couples.writeBack target value)
      state state' h

/-- The value of a change goes back to the name that it is asked of, if it is asked of one. -/
theorem couples_writeBack_target (target : Expression) (value : Int64) :
    C.Couples left right
      (match target.reference? with
        | some name => Evaluation.writeBack left name value
        | none => pure ())
      (match target.reference? with
        | some name => Evaluation.writeBack right name value
        | none => pure ()) := by
  cases target.reference? with
  | none => exact Couples.pure ()
  | some name => exact Couples.writeBack name value

theorem Knot.modify (knot : C.Knot evaluate evaluate' run run') (op : QuantityOp)
    (target : Expression) (operand : Option Expression) :
    C.Couples left right (Evaluation.modify evaluate left op target operand)
      (Evaluation.modify evaluate' right op target operand) := by
  refine Couples.bind (knot.evaluates target) fun current => ?_
  have hcomputed (amount : Int64) : C.Couples left right
      (Action.ofArithmetic (op.apply current amount))
      (Action.ofArithmetic (op.apply current amount)) := Couples.ofArithmetic _
  cases operand with
  | none =>
      exact Couples.bind (Couples.pure 1) fun amount =>
        Couples.bind (hcomputed amount) (couples_writeBack_target target)
  | some operand =>
      exact Couples.bind (knot.evaluates operand) fun amount =>
        Couples.bind (hcomputed amount) (couples_writeBack_target target)

theorem Knot.taken (knot : C.Knot evaluate evaluate' run run') (frame : FlowFrame)
    (body : List Statement) :
    C.Couples left right (Evaluation.taken run left frame body)
      (Evaluation.taken run' right frame body) :=
  Couples.bind ((knot.runs body).inFlowFrame frame) fun value =>
    Couples.pure (Evaluation.Flow.ended value)

theorem Knot.firstArm (knot : C.Knot evaluate evaluate' run run') (asked : Int64 → Bool)
    (frame last : FlowFrame) (rest : Option (List Statement))
    (arms : List (Expression × List Statement)) :
    C.Couples left right (Evaluation.firstArm evaluate run left asked frame last rest arms)
      (Evaluation.firstArm evaluate' run' right asked frame last rest arms) := by
  induction arms with
  | nil =>
      cases rest with
      | none => exact Couples.pure Evaluation.Flow.next
      | some body => exact knot.taken last body
  | cons arm arms ih =>
      obtain ⟨test, body⟩ := arm
      refine Couples.bind (knot.evaluates test) fun value => ?_
      split
      · exact knot.taken frame body
      · exact ih

theorem Knot.repeatWhile (knot : C.Knot evaluate evaluate' run run') (condition : Expression)
    (body : List Statement) (turns : Nat) :
    C.Couples left right (Evaluation.repeatWhile evaluate run left condition body turns)
      (Evaluation.repeatWhile evaluate' run' right condition body turns) := by
  induction turns with
  | zero => exact Couples.exhausted
  | succ turns ih =>
      refine Couples.bind (knot.evaluates condition) fun value => ?_
      split
      · exact Couples.bind ((knot.runs body).inFlowFrame .loopWhile) fun _ => ih
      · exact Couples.pure ()

theorem Knot.turn (knot : C.Knot evaluate evaluate' run run') (placeholder : String)
    (body : List Statement) (index : Int64) :
    C.Couples left right (Evaluation.turn run left placeholder body index)
      (Evaluation.turn run' right placeholder body index) := by
  intro state state' h
  refine Pairs.bind ?_ fun scope after after' hstep => ?_
  · simp only [Action.update, ← h.current]
    exact Pairs.addScope h (Evaluation.turnScope placeholder (state.currentScope left) index)
  · have hentered := (h.after hstep).pushScope scope
    have hturn := (knot.runs body).inFlowFrame .loopFor _ _ hentered
    rw [State.callStack_pushScope, State.callStack_congr hstep.engines] at hturn
    refine Pairs.bind (Pairs.withScope hturn) fun _ later later' hlater => ?_
    exact .done { hlater with engines := rfl, engines' := rfl, config := rfl }

theorem Knot.repeatFor (knot : C.Knot evaluate evaluate' run run') (placeholder : String)
    (body : List Statement) (left' : Nat) (index : Int64) :
    C.Couples left right (Evaluation.repeatFor run left placeholder body left' index)
      (Evaluation.repeatFor run' right placeholder body left' index) := by
  induction left' generalizing index with
  | zero => exact Couples.pure ()
  | succ left' ih =>
      exact Couples.bind (knot.turn placeholder body index) fun _ => ih (index + 1)

theorem Knot.leave (knot : C.Knot evaluate evaluate' run run') (exit : Exit) (value : Expression) :
    C.Couples left right (Evaluation.leave evaluate left exit value)
      (Evaluation.leave evaluate' right exit value) := by
  intro state state' h
  simp only [Evaluation.leave, ← h.callStack]
  split
  · exact .failed (.refl _) h.inStep
  · refine Couples.bind (knot.evaluates value) (fun value => ?_) state state' h
    cases exit with
    | «return» => exact Couples.pure (Evaluation.Flow.ended value)
    | throw => exact Couples.fail _

theorem Couples.thenNext {action action' : Action α} (h : C.Couples left right action action') :
    C.Couples left right (Evaluation.thenNext action) (Evaluation.thenNext action') :=
  Couples.bind h fun _ => Couples.pure Evaluation.Flow.next

theorem CouplesDeclaring.thenNext {action action' : Action α}
    (h : C.CouplesDeclaring left right action action') :
    C.CouplesDeclaring left right (Evaluation.thenNext action) (Evaluation.thenNext action') := by
  intro state state' hagree hfree
  exact Pairs.thenCouples hagree (h state state' hagree hfree) fun _ => Couples.pure Evaluation.Flow.next

theorem Knot.statement (knot : C.Knot evaluate evaluate' run run') (turns : Nat)
    (statement : Statement) :
    C.CouplesDeclaring left right (Evaluation.statement evaluate run turns left statement)
      (Evaluation.statement evaluate' run' turns right statement) := by
  cases statement with
  | declare kind name value keyword => exact (knot.binding kind name value).thenNext.declaring
  | block name verbs arguments init program =>
      exact (knot.plain name verbs arguments init program).thenNext
  | implementing name parent populate => exact (knot.implementing name parent populate).thenNext
  | assign target value => exact (knot.assign target value).thenNext.declaring
  | modify op target operand => exact (knot.modify op target operand).thenNext.declaring
  | exit exit value keyword => exact (knot.leave exit value).declaring
  | branch condition body elifs rest keyword =>
      refine Couples.declaring (Couples.bind (knot.evaluates condition) fun value => ?_)
      split
      · exact knot.taken .branch body
      · exact knot.firstArm isTruthy .elif .otherwise rest elifs
  | repeatWhile condition body keyword =>
      exact (knot.repeatWhile condition body turns).thenNext.declaring
  | repeatFor count placeholder body keyword =>
      refine Couples.declaring (Couples.bind (knot.evaluates count) fun count => ?_)
      exact (knot.repeatFor placeholder.name body _ 0).thenNext
  | switch condition cases rest keyword =>
      refine Couples.declaring (Couples.bind (knot.evaluates condition) fun value => ?_)
      exact knot.firstArm (· == value) .case .default rest cases
  | evaluate value => exact (knot.evaluates value).thenNext.declaring
  | comment text position => exact (Couples.pure Evaluation.Flow.next).declaring

/-- A statement leaves the current scope what it was, so all of a frame declares in one scope. -/
theorem Knot.statements (knot : C.Knot evaluate evaluate' run run') (turns : Nat)
    (statements : List Statement) :
    C.CouplesDeclaring left right
      (Evaluation.statements (Evaluation.statement evaluate run turns left) statements)
      (Evaluation.statements (Evaluation.statement evaluate' run' turns right) statements) := by
  induction statements with
  | nil => exact (Couples.pure 0).declaring
  | cons first rest ih =>
      intro state state' h hfree
      have hfirst := (knot.statement turns first) state state' h hfree
      refine Pairs.bind (hfirst.locate _) fun flow after after' hstep => ?_
      cases flow with
      | next =>
          rw [← State.currentScope_congr hstep.engines] at hfree
          have hrest := ih after after' (h.after hstep) hfree
          rwa [State.callStack_congr hstep.engines] at hrest
      | ended value => exact .done (h.after hstep).inStep

/-! ## All levels -/

/-- Both sides are asked by their watches and go on only together, unless the left is lost. -/
theorem Pairs.guarded {state state' : State} {code : Code} {outcome outcome' : Outcome α}
    (h : Agree C.kept left state right state')
    (silent : C.watch left code state = false →
      C.Pairs (state.callStack left) state state' outcome outcome') :
    C.Pairs (state.callStack left) state state'
      (if C.watch left code state then .failed Watch.stop state else outcome)
      (if C.watch' right code state' then .failed Watch.stop state' else outcome') := by
  cases hleft : C.watch left code state with
  | true =>
      cases hright : C.watch' right code state' with
      | true => exact .failed (.refl _) h.inStep
      | false => exact .lost ⟨C.alone h hleft hright, rfl⟩
  | false =>
      have hright : C.watch' right code state' = false := by
        rw [← Bool.not_eq_true]
        intro hstops
        rw [C.stops h hstops] at hleft
        cases hleft
      simpa [hright] using silent hleft

variable (C) in
/-- Evaluation under the watches of a coupling comes to the same on both sides. -/
theorem knot (bound : Nat) : C.Knot (evaluateUnder C.watch bound) (evaluateUnder C.watch' bound)
    (executeUnder C.watch bound) (executeUnder C.watch' bound) := by
  induction bound with
  | zero =>
      constructor
      · intro left right expression state state' h
        simp only [evaluateUnder]
        exact .exhausted
      · intro left right statements state state' h
        simp only [executeUnder]
        exact .exhausted
  | succ bound ih =>
      constructor
      · intro left right expression state state' h
        simp only [evaluateUnder]
        exact Pairs.guarded h fun _ => ih.expression expression state state' h
      · intro left right statements state state' h
        simp only [executeUnder]
        exact Pairs.guarded h fun hsilent =>
          ih.statements bound statements state state' h (C.declares h hsilent)

end Coupling

end Bir
