import Bir.Proofs.Watch

/-!
# Moves — what a run does to its state

Between two evaluations a run changes its state in few ways.  This file lists them, with all that
is known when one is made:

* `Bracket` — what a run has begun and will end: a scope or a frame on a stack, a loan of stacks, a
  declaration, a call;
* `Framed` — brackets between which statements are run, `Code.Fits`, the code that a run comes to
  between brackets, and `awaited?`, the block that is called, with what `brought?` counts;
* `Moment` — the engine in control, the state, and the brackets that are open, the innermost first;
* `Move` — one change of a moment in an evaluation;
* `Frame` and `Frame.Opens` — what a frame is for, and where one may be entered;
* `LoadMove` — one change of a moment while sources are loaded.

What every move keeps holds wherever a run comes to: see `Bir.Proofs.Discipline`.
-/

namespace Bir

/-- What a run has begun and will end. -/
inductive Bracket where
  /-- The current scope was put on the scope stack. -/
  | scope
  /-- The innermost frame was put on the call stack. -/
  | frame
  /-- The engine in control borrows the stacks of a caller. -/
  | loan (terms : Action.Loan) (caller : EngineId)
  /-- A binding is declared in a scope; its value is still to come. -/
  | binding (scope : ScopeId) (name : String) (kind : BindingKind)
  /-- A block is declared; its store is being made. -/
  | block (ref : BlockRef) (name : String) (store : Option ScopeId)
  /-- A block is called with so many verbs and arguments: it was found, and these are evaluated, or
  it runs. -/
  | call (ref : BlockRef) (verbs arguments : Nat)
  /-- The imports that an engine requests are being loaded. -/
  | imports (importer : EngineId) (requests : List Import)
  /-- The engine in control is that of a module, which is loaded for an importer. -/
  | module (importer : EngineId)
  /-- The value of an expression is asked for and no statement waits for it.  No move ends this. -/
  | question

/-- Statements are run between brackets whose innermost ones are frames, with a scope of their own
below them, a module, or nothing.  A value that is waited for is evaluated, and runs no statement
before a scope is entered. -/
class inductive Framed : List Bracket → Prop where
  | rest : Framed []
  | scope (pending : List Bracket) : Framed (.scope :: pending)
  | module (importer : EngineId) (pending : List Bracket) : Framed (.module importer :: pending)
  | frame {pending : List Bracket} (inner : Framed pending) : Framed (.frame :: pending)

attribute [instance] Framed.rest Framed.scope Framed.module

instance {pending : List Bracket} [inner : Framed pending] : Framed (.frame :: pending) :=
  .frame inner

/-- Code is such as a run may come to between brackets: a frame only where statements are run, and
only one that may be run there. -/
def Code.Fits (allowed : List Statement → Prop) (pending : List Bracket) : Code → Prop
  | .frame statements => Framed pending ∧ allowed statements
  | _ => True

/-- The block that is called, by the engine in control or by the one that lent its stacks to it. -/
def awaited? : List Bracket → Option BlockRef
  | .call ref _ _ :: _ => some ref
  | .loan _ _ :: .call ref _ _ :: _ => some ref
  | _ => none

/-- How many verbs and arguments the block that is called is called with. -/
def brought? : List Bracket → Option (Nat × Nat)
  | .call _ verbs arguments :: _ => some (verbs, arguments)
  | .loan _ _ :: .call _ verbs arguments :: _ => some (verbs, arguments)
  | _ => none

/-- A point of a run. -/
structure Moment where
  /-- What is begun and not ended, the innermost first. -/
  pending : List Bracket
  /-- The engine in control. -/
  self : EngineId
  state : State

namespace State

/-- Make a store for the block at a place: a scope below the current one of an engine. -/
def attachStore (state : State) (self : EngineId) (ref : BlockRef) : State :=
  ((state.addScope { parents := [state.currentScope self] }).1).modifyGraph fun graph =>
    graph.modifyBlock ref fun block => { block with store := some state.graph.scopes.size }

/-- Let an engine see the bindings and blocks of a module from now on. -/
def expose (state : State) (importer module : EngineId) : State :=
  ((state.modifyScope (state.currentScope module) (fun scope =>
      { scope with immutable := true, foreign := true })).modifyScope (state.engine importer).root
    (fun root => root.addParent (state.currentScope module))).modifyEngine importer
    (fun engine => { engine with uses := engine.uses ++ [module] })

/-- The store that slot operations of an engine act on. -/
def slotStore? (state : State) (self : EngineId) : Option ScopeId :=
  (Slot.target? state self).bind fun target => (state.graph.block target).store

/-- No engine lends its stacks to itself. -/
theorem owner_ne_of_isLent {state : State} {self : EngineId} {found : FoundBlock}
    (lent : Call.isLent state self found = true) :
    (state.graph.block found.block).owner ≠ self := by
  simp only [Call.isLent, Bool.and_eq_true, bne_iff_ne] at lent
  exact lent.1.1.2

end State

/-! ## Evaluation -/

/-- One change of a moment.  A statement makes declarations only if it is `allowed`. -/
inductive Move (allowed : EngineId → Statement → Prop) : Moment → Moment → Prop where
  /-- Assign to what the current scope sees. -/
  | write {pending self state} (name : String) (value : Int64) :
      Move allowed ⟨pending, self, state⟩
        ⟨pending, self, (state.updateBinding (state.currentScope self) name value).1⟩
  /-- Call the console. -/
  | console {pending self state} (verbs arguments : List Int64) :
      Move allowed ⟨pending, self, state⟩
        ⟨pending, self, (state.callConsole verbs arguments).1⟩
  /-- Make a slot of a store. -/
  | slotPush {pending self} {state : State} {store : ScopeId} (index value : Int64)
      (target : state.slotStore? self = some store)
      (missing : (state.graph.get store).binds (Slot.name index) = false) :
      Move allowed ⟨pending, self, state⟩
        ⟨pending, self,
          state.modifyScope store (fun scope => scope.push (Slot.name index) value .let)⟩
  /-- Write a slot of a store. -/
  | slotWrite {pending self} {state : State} {store : ScopeId} (index value : Int64)
      (target : state.slotStore? self = some store)
      (found : (state.graph.get store).binds (Slot.name index) = true) :
      Move allowed ⟨pending, self, state⟩
        ⟨pending, self, (state.updateBinding store (Slot.name index) value).1⟩
  /-- Remove a slot of a store. -/
  | slotErase {pending self} {state : State} {store : ScopeId} (index : Int64)
      (target : state.slotStore? self = some store)
      (found : (state.graph.get store).binds (Slot.name index) = true) :
      Move allowed ⟨pending, self, state⟩
        ⟨pending, self, state.modifyGraph (fun graph => graph.delete store (Slot.name index))⟩
  /-- Begin to declare a binding in the current scope. -/
  | openBinding {pending self} {state : State} {kind name value keyword}
      [framed : Framed pending]
      (statement : allowed self (.declare kind name value keyword))
      (missing : (state.graph.get (state.currentScope self)).binds name.name = false) :
      Move allowed ⟨pending, self, state⟩
        ⟨.binding (state.currentScope self) name.name kind :: pending, self, state⟩
  /-- Bind the value that a declaration waited for. -/
  | closeBinding {pending self state scope name kind} (value : Int64) :
      Move allowed ⟨.binding scope name kind :: pending, self, state⟩
        ⟨pending, self, state.modifyScope scope (fun scope => scope.push name value kind)⟩
  /-- Give a declaration of a binding up. -/
  | dropBinding {pending self state scope name kind} :
      Move allowed ⟨.binding scope name kind :: pending, self, state⟩ ⟨pending, self, state⟩
  /-- Begin to declare a block with a body of its own in the current scope. -/
  | openBlock {pending self} {state : State} {name verbs arguments init program position}
      [framed : Framed pending]
      (statement : allowed self (@Statement.block name verbs arguments init program position))
      (missing : (state.graph.get (state.currentScope self)).declares name.name = false) :
      Move allowed ⟨pending, self, state⟩
        ⟨.block ⟨state.currentScope self,
            (state.graph.get (state.currentScope self)).blocks.length⟩ name.name none :: pending,
          self,
          state.modifyScope (state.currentScope self) (fun scope =>
            scope.addBlock (.declared self name.name (verbs.map (·.name)) (arguments.map (·.name))
              init program))⟩
  /-- Begin to declare a block that implements another in the current scope. -/
  | openImplementing {pending self} {state : State} {name parent populate position}
      {found : FoundBlock} [framed : Framed pending]
      (statement : allowed self (@Statement.implementing name parent populate position))
      (implemented : state.graph.findBlock? (state.currentScope self) parent.name = some found)
      (missing : (state.graph.get (state.currentScope self)).declares name.name = false) :
      Move allowed ⟨pending, self, state⟩
        ⟨.block ⟨state.currentScope self,
            (state.graph.get (state.currentScope self)).blocks.length⟩ name.name none :: pending,
          self,
          state.modifyScope (state.currentScope self) (fun scope =>
            scope.addBlock (.implementing self name.name (state.graph.block found.block)))⟩
  /-- Make the store that the `init` section of a block runs in. -/
  | attachStore {pending self state ref name} :
      Move allowed ⟨.block ref name none :: pending, self, state⟩
        ⟨.block ref name (some state.graph.scopes.size) :: pending, self,
          state.attachStore self ref⟩
  /-- Enter the store of a block for its `init` section. -/
  | enterStore {pending self ref name store} {state : State} :
      Move allowed ⟨.block ref name (some store) :: pending, self, state⟩
        ⟨.scope :: .block ref name (some store) :: pending, self, state.pushScope self store⟩
  /-- Make a store for slots of a block that has none. -/
  | makeStore {pending self state ref name} :
      Move allowed ⟨.block ref name none :: pending, self, state⟩
        ⟨.block ref name (some state.graph.scopes.size) :: pending, self,
          (state.addScope { parents := [ref.scope] }).1⟩
  /-- Mark a block as initialized, with its store. -/
  | closeBlock {pending self state ref name store} :
      Move allowed ⟨.block ref name store :: pending, self, state⟩
        ⟨pending, self,
          state.modifyGraph (fun graph => graph.markInitialized ref.scope name store)⟩
  /-- Seed the slots of a block and mark it as initialized, with its store. -/
  | closeSeeded {pending self ref name store} {state : State} (values : List Int64) :
      Move allowed ⟨.block ref name (some store) :: pending, self, state⟩
        ⟨pending, self,
          (state.modifyScope store (Declaration.seed values)).modifyGraph
            (fun graph => graph.markInitialized ref.scope name (some store))⟩
  /-- Give a declaration of a block up. -/
  | dropBlock {pending self state ref name store} :
      Move allowed ⟨.block ref name store :: pending, self, state⟩ ⟨pending, self, state⟩
  /-- Begin to call a block that the current scope sees, with no less than it asks for. -/
  | openCall {pending self} {state : State} {name : String} {found : FoundBlock}
      {verbs arguments : Nat}
      (seen : state.graph.findBlock? (state.currentScope self) name = some found)
      (enough : Call.mismatches (state.graph.block found.block) verbs arguments = []) :
      Move allowed ⟨pending, self, state⟩
        ⟨.call found.block verbs arguments :: pending, self, state⟩
  /-- Be done with a call. -/
  | closeCall {pending self state ref verbs arguments} :
      Move allowed ⟨.call ref verbs arguments :: pending, self, state⟩ ⟨pending, self, state⟩
  /-- Enter the scope of a call. -/
  | enterCall {pending self} {state : State} {ref : BlockRef}
      (awaited : awaited? pending = some ref)
      (interpreted : (state.graph.block ref).isNative = false) (verbs arguments : List Int64)
      (brought : brought? pending = some (verbs.length, arguments.length)) :
      Move allowed ⟨pending, self, state⟩
        ⟨.scope :: pending, self,
          ((state.addScope (Call.scope (state.graph.block ref) (state.currentScope self) verbs
            arguments)).1).pushScope self state.graph.scopes.size⟩
  /-- Enter the scope of a turn of a counted loop. -/
  | enterTurn {pending self} {state : State} (placeholder : String) (index : Int64) :
      Move allowed ⟨pending, self, state⟩
        ⟨.scope :: pending, self,
          ((state.addScope (Evaluation.turnScope placeholder (state.currentScope self)
            index)).1).pushScope self state.graph.scopes.size⟩
  /-- Leave a scope. -/
  | leaveScope {pending self state} :
      Move allowed ⟨.scope :: pending, self, state⟩ ⟨pending, self, state.popScope self⟩
  /-- Enter a frame that is no block's. -/
  | enterFlow {pending self state} (frame : FlowFrame) :
      Move allowed ⟨pending, self, state⟩
        ⟨.frame :: pending, self, state.modifyCallStack self (fun stack => stack.push frame.name)⟩
  /-- Enter the frame of a call or an `init` section, if there is room. -/
  | enterFrame {pending self} {state : State} (name : String)
      (room : (state.callStack self).exceeded? = none) :
      Move allowed ⟨pending, self, state⟩
        ⟨.frame :: pending, self, state.modifyCallStack self (fun stack => stack.push name)⟩
  /-- Leave a frame. -/
  | leaveFrame {pending self state} :
      Move allowed ⟨.frame :: pending, self, state⟩
        ⟨pending, self, state.modifyCallStack self CallStack.pop⟩
  /-- Lend the stacks to the engine that owns a block. -/
  | lend {pending self} {state : State} {found : FoundBlock} {owner : EngineId}
      (owned : owner = (state.graph.block found.block).owner)
      (lent : Call.isLent state self found = true) :
      Move allowed ⟨pending, self, state⟩
        ⟨.loan (Action.Loan.take self owner state).1 self :: pending, owner,
          (Action.Loan.take self owner state).2⟩
  /-- Give the stacks back. -/
  | giveBack {pending owner state terms caller} :
      Move allowed ⟨.loan terms caller :: pending, owner, state⟩
        ⟨pending, caller, terms.giveBack caller owner state⟩

/-- Fewer statements are allowed to make fewer moves. -/
theorem Move.mono {allowed allowed' : EngineId → Statement → Prop} {moment moment' : Moment}
    (h : Move allowed moment moment') (weaker : ∀ self statement, allowed self statement →
      allowed' self statement) : Move allowed' moment moment' := by
  cases h with
  | openBinding statement missing => exact .openBinding (weaker _ _ statement) missing
  | openBlock statement missing => exact .openBlock (weaker _ _ statement) missing
  | openImplementing statement implemented missing =>
      exact .openImplementing (weaker _ _ statement) implemented missing
  | slotPush index value target missing => exact .slotPush index value target missing
  | slotWrite index value target found => exact .slotWrite index value target found
  | slotErase index target found => exact .slotErase index target found
  | enterFrame name room => exact .enterFrame name room
  | lend owned lent => exact .lend owned lent
  | write name value => exact .write name value
  | console verbs arguments => exact .console verbs arguments
  | closeBinding value => exact .closeBinding value
  | dropBinding => exact .dropBinding
  | attachStore => exact .attachStore
  | enterStore => exact .enterStore
  | makeStore => exact .makeStore
  | closeBlock => exact .closeBlock
  | closeSeeded values => exact .closeSeeded values
  | dropBlock => exact .dropBlock
  | openCall seen enough => exact .openCall seen enough
  | closeCall => exact .closeCall
  | enterCall awaited interpreted verbs arguments brought =>
      exact .enterCall awaited interpreted verbs arguments brought
  | enterTurn placeholder index => exact .enterTurn placeholder index
  | leaveScope => exact .leaveScope
  | enterFlow frame => exact .enterFlow frame
  | leaveFrame => exact .leaveFrame
  | giveBack => exact .giveBack

/-! ## Frames -/

/-- What a frame of a call stack is for. -/
inductive Frame where
  /-- The main program, a branch, a turn of a loop or an arm of a `switch`. -/
  | flow (frame : FlowFrame)
  /-- A call of a block, by the name that the call names it by. -/
  | call (called : String)
  /-- The `init` section of a block. -/
  | init (block : String)
  deriving DecidableEq, Repr

/-- The name of a frame on a call stack. -/
def Frame.name : Frame → String
  | .flow frame => frame.name
  | .call called => called
  | .init block => Declaration.initFrame block

/-- The moment after a frame is entered. -/
def Moment.enter (moment : Moment) (frame : Frame) : Moment :=
  ⟨.frame :: moment.pending, moment.self,
    moment.state.modifyCallStack moment.self fun stack => stack.push frame.name⟩

/-- A frame is open in the second moment that was not open in the first. -/
def Moment.Enters (moment moment' : Moment) : Prop :=
  moment'.pending.head? = some .frame ∧ moment.pending.length < moment'.pending.length

/-- Where a frame may be entered: that of a call where the block is awaited, that of an `init`
section in the store of the block, each only if there is room. -/
inductive Frame.Opens (callable : String → Prop) : Frame → Moment → Prop where
  | flow {pending self state} [framed : Framed pending] (frame : FlowFrame) :
      Opens callable (.flow frame) ⟨pending, self, state⟩
  /-- A native block has no scope of its own. -/
  | native {pending self} {state : State} {ref : BlockRef} {called : String}
      (awaited : awaited? pending = some ref) (named : callable called)
      (room : (state.callStack self).exceeded? = none) :
      Opens callable (.call called) ⟨pending, self, state⟩
  | call {pending self} {state : State} {ref : BlockRef} {called : String}
      (awaited : awaited? pending = some ref) (named : callable called)
      (room : (state.callStack self).exceeded? = none) :
      Opens callable (.call called) ⟨.scope :: pending, self, state⟩
  | init {pending self ref name store} {state : State}
      (room : (state.callStack self).exceeded? = none) :
      Opens callable (.init name) ⟨.scope :: .block ref name (some store) :: pending, self, state⟩

/-- To enter a frame is a move. -/
theorem Frame.Opens.move {allowed : EngineId → Statement → Prop} {callable : String → Prop}
    {frame : Frame} {moment : Moment} (h : frame.Opens callable moment) :
    Move allowed moment (moment.enter frame) := by
  cases h with
  | flow frame => exact .enterFlow frame
  | native awaited named room => exact .enterFrame _ room
  | call awaited named room => exact .enterFrame _ room
  | init room => exact .enterFrame _ room

/-! ## Loading -/

/-- One change of a moment between evaluations, while sources are loaded. -/
inductive LoadMove : Moment → Moment → Prop where
  /-- Read the text of an engine. -/
  | read {pending self} {state : State} {program}
      (parsed : Program.ofSource (state.engine self).content = .ok program) :
      LoadMove ⟨pending, self, state⟩
        ⟨pending, self, state.modifyEngine self (fun engine => { engine with program })⟩
  /-- Declare the native block. -/
  | native {pending self} {state : State} :
      LoadMove ⟨pending, self, state⟩
        ⟨pending, self, state.modifyScope (state.engine self).root
          (fun root => root.addBlock (.native self Console.blockName))⟩
  /-- Begin to load imports. -/
  | beginImports {pending self} {state : State} (file : FileIdentity) :
      LoadMove ⟨pending, self, state⟩
        ⟨.imports self (state.engine self).program.imports :: pending, self,
          { state with loading := state.loading ++ [file] }⟩
  /-- Be done with imports. -/
  | endImports {pending self requests} {state : State} :
      LoadMove ⟨.imports self requests :: pending, self, state⟩
        ⟨pending, self, { state with loading := state.loading.dropLast }⟩
  /-- Add an engine for a module and turn to it. -/
  | openModule {pending self} {state : State} (path : Path) (content : String) :
      LoadMove ⟨pending, self, state⟩
        ⟨.module self :: pending, state.engines.size, (state.addEngine path content).1⟩
  /-- Give a module up. -/
  | dropModule {pending importer module state} :
      LoadMove ⟨.module importer :: pending, module, state⟩ ⟨pending, importer, state⟩
  /-- Let the importer see a module that is loaded and has run. -/
  | expose {pending importer module} {state : State} :
      LoadMove ⟨.module importer :: pending, module, state⟩
        ⟨pending, importer, state.expose importer module⟩

/-! ## Open brackets -/

/-- A move opens one bracket at most: all others were open before. -/
theorem Move.tail_suffix {allowed : EngineId → Statement → Prop} {moment moment' : Moment}
    (move : Move allowed moment moment') : moment'.pending.tail <:+ moment.pending := by
  cases move <;> simp [List.suffix_cons_iff, List.tail_suffix]

theorem LoadMove.tail_suffix {moment moment' : Moment} (move : LoadMove moment moment') :
    moment'.pending.tail <:+ moment.pending := by
  cases move <;> simp [List.suffix_cons_iff, List.tail_suffix]

namespace Bracket

variable {holds : Bracket → Prop} {pending pending' : List Bracket}

/-- What is to hold of all open brackets has to be shown of those that stay open and of the one that
is opened.  If any bracket is ended or replaced, it is the innermost one. -/
theorem forall_mem_of_kept (tail : pending'.tail <:+ pending)
    (kept : ∀ bracket ∈ pending, pending <:+ pending' ∨ bracket ∈ pending.tail → holds bracket)
    (opened : ¬ pending' <:+ pending → ∀ bracket ∈ pending'.head?, holds bracket) :
    ∀ bracket ∈ pending', holds bracket := by
  have hsuffix : ∀ {open' : List Bracket}, open' <:+ pending → open' <:+ pending' →
      ∀ bracket ∈ open', holds bracket := by
    intro open' hopen hkept bracket hmem
    cases pending with
    | nil => simp_all
    | cons first rest =>
        rcases List.suffix_cons_iff.1 hopen with rfl | hrest
        · exact kept bracket hmem (Or.inl hkept)
        · exact kept bracket (hopen.subset hmem) (Or.inr (hrest.subset hmem))
  by_cases hended : pending' <:+ pending
  · exact hsuffix hended List.suffix_rfl
  · cases pending' with
    | nil => exact absurd List.nil_suffix hended
    | cons first rest =>
        exact List.forall_mem_cons.2
          ⟨opened hended first rfl, hsuffix tail (List.suffix_cons first rest)⟩

/-- What holds of all open brackets has to be shown of the one that is opened. -/
theorem forall_mem_of_tail (tail : pending'.tail <:+ pending)
    (kept : ∀ bracket ∈ pending, holds bracket)
    (opened : ¬ pending' <:+ pending → ∀ bracket ∈ pending'.head?, holds bracket) :
    ∀ bracket ∈ pending', holds bracket :=
  forall_mem_of_kept tail (fun bracket hmem _ => kept bracket hmem) opened

end Bracket

end Bir
