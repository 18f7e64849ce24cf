import Bir.Proofs.Regimen.Basic

/-!
# Regimens of evaluation — every construct keeps a regimen

This file goes through declarations, statements and expressions and shows that each keeps a
regimen if the evaluations in it do.  `Regimen.knot` closes the circle by induction on the
bound: evaluation under a watch, with every bound, keeps every regimen of that watch on the code
that the regimen allows with this bound.
-/

namespace Bir

namespace Regimen

open Outcome Bir.Action

variable {watch : Watch} {R : Regimen watch} {α : Type}
variable {bound : Nat} {pending : List Bracket} {self : EngineId} {position : Position}
variable {evaluate : Evaluator} {run : Runner}

/-! ## Declarations -/

/-- The `init` section of a block runs in the store that it makes. -/
theorem Knot.runInit (knot : R.Knot bound evaluate run) {ref : BlockRef} {name : String}
    {init : Option (List Statement)} {state : State}
    (h : R.holds ⟨.block ref name none :: pending, self, state⟩)
    (allowed : (state.callStack self).exceeded? = none →
      ∀ section' ∈ init, R.body bound (frames pending + 1) self section') :
    (Declaration.runInit run self ref name init state).Within R.cut
      (fun store state' => R.holds ⟨.block ref name store :: pending, self, state'⟩)
      (fun failure state' => R.holds ⟨pending, self, state'⟩ ∧
        R.blames (frames pending) self failure) := by
  cases init with
  | none => exact h
  | some statements =>
      have hattach := R.move h .attachStore
      have henter := R.enterScope hattach .enterStore
      apply within_bind
      change ((do
        let _ ← Action.withScope self state.graph.scopes.size
          (Action.inCallFrame self (Declaration.initFrame name)
            (Action.reporting self (run self statements)))
        return some state.graph.scopes.size : Action (Option ScopeId))
          (state.attachStore self ref)).Within R.cut _ _
      apply within_bind
      apply within_withScope
      have hallowed : (((state.attachStore self ref).pushScope self
            state.graph.scopes.size).callStack self).exceeded? = none →
          R.body bound (frames pending + 1) self statements := by
        intro hroom
        rw [State.callStack_pushScope] at hroom
        exact allowed hroom statements rfl
      refine (knot.inCallFrame henter .init .init hallowed).mono ?_ ?_
      · intro value state' h'
        exact R.resume hattach (R.leaveScope h')
      · rintro failure state' ⟨h', hrefused⟩
        exact ⟨R.move (R.resume hattach (R.leaveScope h')) .dropBlock, hrefused.blames⟩

/-- A declaration of a block fails, or all is done but for marking the block that it has added. -/
theorem Knot.plain_within [Framed pending] (knot : R.Knot bound evaluate run) {name : Identifier}
    {verbs arguments : List Identifier} {init : Option (List Statement)}
    {program : List Statement}
    (allowed : R.statement bound (frames pending) self
      (@Statement.block name verbs arguments init program position))
    {good : State → Prop} {state : State} (h : R.holds ⟨pending, self, state⟩)
    (closed : ∀ {store state'}, R.holds ⟨.block ⟨state.currentScope self,
        (state.graph.get (state.currentScope self)).blocks.length⟩ name.name store :: pending, self,
          state'⟩ → good (state'.modifyGraph fun graph =>
            graph.markInitialized (state.currentScope self) name.name store)) :
    (Declaration.plain run self name verbs arguments init program state).Within R.cut
      (fun _ => good)
      (fun failure state' => R.holds ⟨pending, self, state'⟩ ∧
        R.blames (frames pending) self failure) := by
  unfold Declaration.plain
  simp only
  split
  · exact ⟨h, R.mark (R.raise (by simp)) allowed (by simp [Statement.marks])⟩
  · rename_i hmissing
    have hopen := R.move h (.openBlock ⟨_, allowed⟩ (by simpa using hmissing))
    apply within_bind
    simp only [Declaration.addBlock, Action.update, within_done]
    apply within_bind
    refine (knot.runInit hopen fun hroom => R.inits h hroom allowed).mono ?_ (fun _ _ h' => h')
    intro store state' h'
    exact closed h'

theorem Knot.plain [Framed pending] (knot : R.Knot bound evaluate run) {name : Identifier}
    {verbs arguments : List Identifier} {init : Option (List Statement)}
    {program : List Statement}
    (allowed : R.statement bound (frames pending) self
      (@Statement.block name verbs arguments init program position)) :
    R.Keeps pending self (Declaration.plain run self name verbs arguments init program) :=
  fun _ h => knot.plain_within allowed h fun h' => R.move h' .closeBlock

/-- The values of a populate are evaluated before the store is touched. -/
theorem Knot.populateValues (knot : R.Knot bound evaluate run) {source : Populate}
    (allowed : ∀ expression ∈ source.expressions,
      R.expression bound (frames pending) self expression) :
    R.Keeps pending self (Declaration.populateValues evaluate self source) := by
  cases source with
  | string text => exact Keeps.pure _
  | array elements => exact knot.keeps_all allowed

/-- A populate leaves a state in which the store of the block is seeded. -/
theorem Knot.populate (knot : R.Knot bound evaluate run) {source : Populate}
    (allowed : ∀ expression ∈ source.expressions,
      R.expression bound (frames pending) self expression)
    {ref : BlockRef} {name : String} {store : Option ScopeId} {state : State}
    (h : R.holds ⟨.block ref name store :: pending, self, state⟩) :
    (Declaration.populate evaluate self ref.scope source store state).Within R.cut
      (fun store state' => ∃ (unseeded : State) (values : List Int64),
        R.holds ⟨.block ref name (some store) :: pending, self, unseeded⟩ ∧
          state' = unseeded.modifyScope store (Declaration.seed values))
      (fun failure state' => R.holds ⟨pending, self, state'⟩ ∧
        R.blames (frames pending) self failure) := by
  have hvalues : R.Keeps (.block ref name store :: pending) self
      (Declaration.populateValues evaluate self source) := knot.populateValues allowed
  apply within_bind
  refine (hvalues state h).mono ?_ ?_
  · intro values state' h'
    cases store with
    | some store => exact ⟨state', values, h', rfl⟩
    | none => exact ⟨_, values, R.move h' .makeStore, rfl⟩
  · rintro failure state' ⟨h', hblame⟩
    exact ⟨R.move h' .dropBlock, hblame⟩

/-- The `init` section that an implementing block copies may be run. -/
theorem implementing_inits {name parent : Identifier} {source : Option Populate}
    (allowed : R.statement bound (frames pending) self
      (@Statement.implementing name parent source position))
    {state : State} (h : R.holds ⟨pending, self, state⟩) (ref : BlockRef)
    (room : (state.callStack self).exceeded? = none) :
    ∀ section' ∈ (state.graph.block ref).init?, R.body bound (frames pending + 1) self section' := by
  intro section' hsection
  cases hbody : (state.graph.block ref).body with
  | native => simp [Block.init?, hbody] at hsection
  | interpreted init program =>
      refine (R.called h room (R.declaring allowed rfl) hbody).2 section' ?_
      simpa [Block.init?, hbody] using hsection

/-- A declaration of a block that implements another fails, or all is done but for seeding and
marking the block that it has added. -/
theorem Knot.implementing_within [Framed pending] (knot : R.Knot bound evaluate run)
    {name parent : Identifier} {source : Option Populate}
    (allowed : R.statement bound (frames pending) self
      (@Statement.implementing name parent source position))
    {good : State → Prop} {state : State} (h : R.holds ⟨pending, self, state⟩)
    (closed : ∀ {store state'}, R.holds ⟨.block ⟨state.currentScope self,
        (state.graph.get (state.currentScope self)).blocks.length⟩ name.name store :: pending, self,
          state'⟩ → good (state'.modifyGraph fun graph =>
            graph.markInitialized (state.currentScope self) name.name store))
    (seeded : ∀ {store state'} values, R.holds ⟨.block ⟨state.currentScope self,
        (state.graph.get (state.currentScope self)).blocks.length⟩ name.name (some store) ::
          pending, self, state'⟩ → good ((state'.modifyScope store (Declaration.seed values)).modifyGraph
            fun graph => graph.markInitialized (state.currentScope self) name.name (some store))) :
    (Declaration.implementing evaluate run self name parent source state).Within R.cut
      (fun _ => good)
      (fun failure state' => R.holds ⟨pending, self, state'⟩ ∧
        R.blames (frames pending) self failure) := by
  unfold Declaration.implementing
  simp only
  split
  · exact ⟨h, R.raise (by simp)⟩
  · rename_i found hfound
    split
    · exact ⟨h, R.mark (R.raise (by simp)) allowed (by simp [Statement.marks])⟩
    · rename_i hmissing
      have hopen := R.move h (.openImplementing ⟨_, allowed⟩ hfound (by simpa using hmissing))
      apply within_bind
      simp only [Declaration.addBlock, Action.update, within_done]
      apply within_bind
      refine (knot.runInit hopen (implementing_inits allowed h found.block)).mono ?_ (fun _ _ h' => h')
      intro store state' h'
      cases source with
      | none => exact closed h'
      | some source =>
          have hsource : ∀ expression ∈ source.expressions,
              R.expression bound (frames pending) self expression := by
            intro expression hmem
            exact R.part allowed (by simpa [Statement.expressions] using hmem)
          apply within_bind
          refine (knot.populate hsource h').mono ?_ (fun _ _ h'' => h'')
          rintro made _ ⟨unseeded, values, h'', rfl⟩
          exact seeded values h''

theorem Knot.implementing [Framed pending] (knot : R.Knot bound evaluate run)
    {name parent : Identifier} {source : Option Populate}
    (allowed : R.statement bound (frames pending) self
      (@Statement.implementing name parent source position)) :
    R.Keeps pending self (Declaration.implementing evaluate run self name parent source) :=
  fun _ h => knot.implementing_within allowed h (fun h' => R.move h' .closeBlock)
    fun values h' => R.move h' (.closeSeeded values)

theorem Knot.binding [Framed pending] (knot : R.Knot bound evaluate run) {kind : BindingKind}
    {name : Identifier} {value : Expression} {keyword : Position}
    (allowed : R.statement bound (frames pending) self (.declare kind name value keyword)) :
    R.Keeps pending self (Declaration.binding evaluate self kind name value) := by
  intro state h
  unfold Declaration.binding
  simp only
  split
  · exact ⟨h, R.mark (R.raise (by simp)) allowed (by simp [Statement.marks])⟩
  · rename_i hmissing
    have hopen := R.move h (.openBinding ⟨_, allowed⟩ (by simpa using hmissing))
    have hvalue : R.Keeps (.binding (state.currentScope self) name.name kind :: pending) self
        (evaluate self value) := knot.evaluates (R.part allowed (by simp [Statement.expressions]))
    apply within_bind
    refine (hvalue state hopen).mono ?_ ?_
    · intro value state' h'
      exact R.move h' (.closeBinding value)
    · rintro failure state' ⟨h', hblame⟩
      exact ⟨R.move h' .dropBinding, hblame⟩

/-! ## Expressions -/

theorem Knot.expression (knot : R.Knot bound evaluate run) {expression : Expression}
    (allowed : R.expression (bound + 1) (frames pending) self expression) :
    R.Keeps pending self (Evaluation.expression evaluate run self expression) := by
  have hplace : R.Places pending self expression.position :=
    fun failure hblame => R.place hblame allowed
  cases expression with
  | arithmetic op left right =>
      have hleft := R.operand allowed (by simp [Expression.operands] : left ∈ _)
      have hright := R.operand allowed (by simp [Expression.operands] : right ∈ _)
      refine Keeps.bind (knot.evaluates hleft) fun l => ?_
      refine Keeps.bind (knot.evaluates hright) fun r => ?_
      exact Keeps.locate (Keeps.ofArithmetic _) hplace
  | condition op left right =>
      have hleft := R.operand allowed (by simp [Expression.operands] : left ∈ _)
      have hright := R.operand allowed (by simp [Expression.operands] : right ∈ _)
      refine Keeps.bind (knot.evaluates hleft) fun l => ?_
      refine Keeps.bind (knot.evaluates hright) fun r => ?_
      exact Keeps.pure _
  | logarithm operand keyword =>
      have hoperand := R.operand allowed (by simp [Expression.operands] : operand ∈ _)
      refine Keeps.bind (knot.evaluates hoperand) fun value => ?_
      exact Keeps.locate (Keeps.ofArithmetic _) hplace
  | call name verbs arguments =>
      exact Keeps.locate (knot.block (R.calling allowed) (R.named allowed) fun operand hmem =>
        R.operand allowed hmem) hplace
  | slot op arguments keyword =>
      exact Keeps.locate (knot.slot fun operand hmem => R.operand allowed hmem) hplace
  | integer value position => exact Keeps.pure value
  | string text position => exact Keeps.failAt (by simp) hplace
  | reference name =>
      intro state h
      simp only [Evaluation.expression]
      split
      · exact h
      · exact ⟨h, hplace _ (R.raise (by simp))⟩

/-! ## Statements -/

theorem keeps_writeBack {target : Identifier} (value : Int64)
    (hplace : R.Places pending self target.position) :
    R.Keeps pending self (Evaluation.writeBack self target value) := by
  intro state h
  have hwrite := R.move h (.write target.name value)
  simp only [Evaluation.writeBack]
  split
  · exact hwrite
  · rename_i cause hrefusal
    refine ⟨hwrite, hplace _ (R.raise ?_)⟩
    unfold Evaluation.refusal? at hrefusal
    split at hrefusal <;> cases hrefusal <;> rfl

theorem Knot.assign (knot : R.Knot bound evaluate run) {target : Identifier} {value : Expression}
    (allowed : R.statement bound (frames pending) self (@Statement.assign target value position)) :
    R.Keeps pending self (Evaluation.assign evaluate self target value) := by
  have hplace : R.Places pending self target.position :=
    fun failure hblame => R.mark hblame allowed (by simp [Statement.marks])
  intro state h
  simp only [Evaluation.assign]
  split
  · exact ⟨h, hplace _ (R.raise (by simp))⟩
  · have hvalue := R.part allowed (by simp [Statement.expressions] : value ∈ _)
    exact Keeps.bind (knot.evaluates hvalue) (fun _ => keeps_writeBack _ hplace) state h

/-- The value of a change goes back to the name that it is asked of, if it is asked of one. -/
theorem keeps_writeBack_target {target : Expression}
    (allowed : R.expression bound (frames pending) self target) (value : Int64) :
    R.Keeps pending self
      (match target.reference? with
        | some name => Evaluation.writeBack self name value
        | none => pure ()) := by
  cases target with
  | reference name => exact keeps_writeBack value fun failure hblame => R.place hblame allowed
  | _ => exact Keeps.pure ()

theorem Knot.modify (knot : R.Knot bound evaluate run) {op : QuantityOp} {target : Expression}
    {operand : Option Expression}
    (allowed : R.statement bound (frames pending) self
      (@Statement.modify op target operand position)) :
    R.Keeps pending self (Evaluation.modify evaluate self op target operand) := by
  have htarget := R.part allowed (by simp [Statement.expressions] : target ∈ _)
  refine Keeps.bind (knot.evaluates htarget) fun current => ?_
  have hcomputed (amount : Int64) : R.Keeps pending self
      (Action.ofArithmetic (op.apply current amount)) := Keeps.ofArithmetic _
  cases operand with
  | none =>
      exact Keeps.bind (Keeps.pure 1) fun amount =>
        Keeps.bind (hcomputed amount) (keeps_writeBack_target htarget)
  | some operand =>
      have hoperand := R.part allowed (by simp [Statement.expressions] : operand ∈ _)
      exact Keeps.bind (knot.evaluates hoperand) fun amount =>
        Keeps.bind (hcomputed amount) (keeps_writeBack_target htarget)

theorem Knot.taken [Framed pending] (knot : R.Knot bound evaluate run) {frame : FlowFrame}
    {body : List Statement} (allowed : R.body bound (frames pending + 1) self body) :
    R.Keeps pending self (Evaluation.taken run self frame body) :=
  Keeps.bind (knot.inFlowFrame allowed frame) fun value => Keeps.pure (Evaluation.Flow.ended value)

theorem Knot.firstArm [Framed pending] (knot : R.Knot bound evaluate run) {asked : Int64 → Bool}
    {frame last : FlowFrame} {rest : Option (List Statement)}
    {arms : List (Expression × List Statement)}
    (tests : ∀ arm ∈ arms, R.expression bound (frames pending) self arm.1)
    (bodies : ∀ arm ∈ arms, R.body bound (frames pending + 1) self arm.2)
    (otherwise : ∀ body ∈ rest, R.body bound (frames pending + 1) self body) :
    R.Keeps pending self (Evaluation.firstArm evaluate run self asked frame last rest arms) := by
  induction arms with
  | nil =>
      cases rest with
      | none => exact Keeps.pure Evaluation.Flow.next
      | some body => exact knot.taken (otherwise body rfl)
  | cons arm arms ih =>
      obtain ⟨test, body⟩ := arm
      refine Keeps.bind (knot.evaluates (tests (test, body) (by simp))) fun value => ?_
      split
      · exact knot.taken (bodies (test, body) (by simp))
      · exact ih (fun arm hmem => tests arm (by simp [hmem]))
          (fun arm hmem => bodies arm (by simp [hmem]))

theorem Knot.repeatWhile [Framed pending] (knot : R.Knot bound evaluate run)
    {condition : Expression} {body : List Statement} {keyword : Position}
    (allowed : R.statement bound (frames pending) self (.repeatWhile condition body keyword))
    (turns : Nat) :
    R.Keeps pending self (Evaluation.repeatWhile evaluate run self condition body turns) := by
  induction turns with
  | zero => exact fun _ _ => R.endless allowed
  | succ turns ih =>
      have htest := R.part allowed (by simp [Statement.expressions] : condition ∈ _)
      have hbody := R.nested allowed rfl (by simp [Statement.bodies] : body ∈ _)
      refine Keeps.bind (knot.evaluates htest) fun value => ?_
      split
      · exact Keeps.bind (knot.inFlowFrame hbody .loopWhile) fun _ => ih
      · exact Keeps.pure ()

theorem Knot.turn [Framed pending] (knot : R.Knot bound evaluate run) {placeholder : String}
    {body : List Statement} (allowed : R.body bound (frames pending + 1) self body)
    (index : Int64) :
    R.Keeps pending self (Evaluation.turn run self placeholder body index) := by
  intro state h
  have hbegins : Activation.Begins R.strict ⟨.flow .loopFor, none, [state.graph.scopes.size]⟩
      ⟨.scope :: pending, self,
        ((state.addScope (Evaluation.turnScope placeholder (state.currentScope self)
          index)).1).pushScope self state.graph.scopes.size⟩ :=
    .turn (R.running h) placeholder index
  have henter := R.enter hbegins (.flow .loopFor) (R.enterScope h (.enterTurn placeholder index))
  have hframe := knot.framed (show R.body bound (frames (.scope :: pending) + 1) self body from allowed)
    henter
  apply within_bind
  change ((do
    let _ ← Action.withScope self state.graph.scopes.size
      (Action.inFlowFrame self .loopFor (run self body))
    return () : Action Unit)
      (state.addScope (Evaluation.turnScope placeholder (state.currentScope self)
        index)).1).Within R.cut _ _
  apply within_bind
  apply within_withScope
  refine hframe.mono ?_ ?_
  · intro value state' h'
    exact R.resume h (R.leaveScope h')
  · rintro failure state' ⟨h', hcomplete⟩
    exact ⟨R.resume h (R.leaveScope h'), R.pass hcomplete⟩

theorem Knot.repeatFor [Framed pending] (knot : R.Knot bound evaluate run) {placeholder : String}
    {body : List Statement} (allowed : R.body bound (frames pending + 1) self body) (left : Nat)
    (index : Int64) :
    R.Keeps pending self (Evaluation.repeatFor run self placeholder body left index) := by
  induction left generalizing index with
  | zero => exact Keeps.pure ()
  | succ left ih => exact Keeps.bind (knot.turn allowed index) fun _ => ih (index + 1)

theorem Knot.leave (knot : R.Knot bound evaluate run) {exit : Exit} {value : Expression}
    (allowed : R.expression bound (frames pending) self value) :
    R.Keeps pending self (Evaluation.leave evaluate self exit value) := by
  intro state h
  simp only [Evaluation.leave]
  split
  · exact ⟨h, R.raise (by simp)⟩
  · refine Keeps.bind (knot.evaluates allowed) (fun value => ?_) state h
    cases exit with
    | «return» => exact Keeps.pure (Evaluation.Flow.ended value)
    | throw => exact Keeps.fail (by simp)

theorem Keeps.thenNext {action : Action α} (h : R.Keeps pending self action) :
    R.Keeps pending self (Evaluation.thenNext action) :=
  Keeps.bind h fun _ => Keeps.pure Evaluation.Flow.next

theorem Knot.statement [Framed pending] (knot : R.Knot bound evaluate run) {turns : Nat}
    {statement : Statement} (allowed : R.statement bound (frames pending) self statement) :
    R.Keeps pending self (Evaluation.statement evaluate run turns self statement) := by
  have part : ∀ {expression}, expression ∈ statement.expressions →
      R.expression bound (frames pending) self expression := R.part allowed
  have nested : ∀ {body}, statement.isDeclaration = false → body ∈ statement.bodies →
      R.body bound (frames pending + 1) self body := R.nested allowed
  cases statement with
  | declare kind name value keyword => exact (knot.binding allowed).thenNext
  | block name verbs arguments init program => exact (knot.plain allowed).thenNext
  | implementing name parent populate => exact (knot.implementing allowed).thenNext
  | assign target value => exact (knot.assign allowed).thenNext
  | modify op target operand => exact (knot.modify allowed).thenNext
  | exit exit value keyword => exact knot.leave (part (by simp [Statement.expressions]))
  | branch condition body elifs rest keyword =>
      refine Keeps.bind (knot.evaluates (part (by simp [Statement.expressions]))) fun value => ?_
      split
      · exact knot.taken (nested rfl (by simp [Statement.bodies]))
      · refine knot.firstArm ?_ ?_ ?_
        · intro arm hmem
          exact part (by simp [Statement.expressions]; exact Or.inr ⟨_, hmem⟩)
        · intro arm hmem
          exact nested rfl (by simp [Statement.bodies]; exact Or.inr (Or.inl ⟨_, hmem⟩))
        · intro body hmem
          exact nested rfl (by simp [Statement.bodies, Option.mem_def.1 hmem])
  | repeatWhile condition body keyword =>
      exact (knot.repeatWhile allowed turns).thenNext
  | repeatFor count placeholder body keyword =>
      refine Keeps.bind (knot.evaluates (part (by simp [Statement.expressions]))) fun count => ?_
      exact (knot.repeatFor (nested rfl (by simp [Statement.bodies])) _ _).thenNext
  | switch condition cases rest keyword =>
      refine Keeps.bind (knot.evaluates (part (by simp [Statement.expressions]))) fun value => ?_
      refine knot.firstArm ?_ ?_ ?_
      · intro arm hmem
        exact part (by simp [Statement.expressions]; exact Or.inr ⟨_, hmem⟩)
      · intro arm hmem
        exact nested rfl (by simp [Statement.bodies]; exact Or.inl ⟨_, hmem⟩)
      · intro body hmem
        exact nested rfl (by simp [Statement.bodies, Option.mem_def.1 hmem])
  | evaluate value => exact (knot.evaluates (part (by simp [Statement.expressions]))).thenNext
  | comment text position => exact Keeps.pure Evaluation.Flow.next

/-- The statements of a frame settle their failures: each is placed at the statement at least. -/
theorem Knot.statements [Framed pending] (knot : R.Knot bound evaluate run) {turns : Nat}
    {statements : List Statement}
    (allowed : ∀ statement ∈ statements, R.statement bound (frames pending) self statement) :
    R.Settles pending self
      (Evaluation.statements (Evaluation.statement evaluate run turns self) statements) := by
  induction statements with
  | nil =>
      intro state h
      exact h
  | cons first rest ih =>
      intro state h
      apply within_bind
      apply within_locate
      have hfirst := allowed first (by simp)
      refine (knot.statement hfirst state h).mono ?_ ?_
      · intro flow state' h'
        cases flow with
        | next => exact ih (fun other hmem => allowed other (by simp [hmem])) state' h'
        | ended value => exact h'
      · rintro failure state' ⟨h', hblame⟩
        exact ⟨h', R.settle hblame hfirst⟩

/-! ## All levels -/

variable (R)

/-- Evaluation under a watch keeps every regimen of that watch. -/
theorem knot (bound : Nat) :
    R.Knot bound (evaluateUnder watch bound) (executeUnder watch bound) := by
  induction bound with
  | zero =>
      constructor
      · intro pending self expression allowed state _
        simpa [evaluateUnder] using R.spentExpression allowed
      · intro pending self statements _ allowed state _
        simpa [executeUnder] using R.spentBody allowed
      · rfl
      · rfl
  | succ bound ih =>
      constructor
      · intro pending self expression allowed state h
        simp only [evaluateUnder]
        split
        · rename_i hstop
          exact ⟨h, R.haltExpression h allowed hstop⟩
        · exact ih.expression allowed state h
      · intro pending self statements framed allowed state h
        simp only [executeUnder]
        split
        · rename_i hstop
          exact ⟨h, R.haltFrame h allowed hstop⟩
        · rename_i hsilent
          exact ih.statements (R.opened h allowed (by simpa using hsilent)) state h
      · rfl
      · rfl

variable {R}

/-- The main program of an engine keeps a regimen, and its failures are complete. -/
theorem runMain_completes [Framed pending] {state : State} (h : R.holds ⟨pending, self, state⟩)
    (allowed : R.body bound (frames pending + 1) self (state.engine self).program.statements) :
    (runMain (executeUnder watch bound) self state).Within R.cut
      (fun _ state' => R.holds ⟨pending, self, state'⟩)
      (fun failure state' => R.holds ⟨pending, self, state'⟩ ∧
        R.complete (frames pending + 1) failure) := by
  apply within_bind
  change ((do
    let _ ← Action.inFlowFrame self .main
      (executeUnder watch bound self (state.engine self).program.statements)
    return () : Action Unit) state).Within R.cut _ _
  apply within_bind
  have hbegins : Activation.Begins R.strict ⟨.flow .main, none, []⟩ ⟨pending, self, state⟩ :=
    .branch .main (R.running h)
  have henter := R.enter hbegins (.flow .main) (R.whereabouts.holds_iff.1 h).1
  refine ((R.knot bound).framed allowed henter).mono ?_ ?_
  · intro value state' h'
    exact R.resume h h'
  · rintro failure state' ⟨h', hcomplete⟩
    exact ⟨R.resume h h', hcomplete⟩

end Regimen

/-- Evaluation keeps every regimen that asks for no watch. -/
theorem Regimen.knot_silent (R : Regimen Watch.silent) (bound : Nat) :
    R.Knot bound (evaluate bound) (execute bound) := by
  have knot := R.knot bound
  rwa [(evaluateUnder_silent bound).1, (evaluateUnder_silent bound).2] at knot

end Bir
