import Bir.Proofs.Move
import Bir.Proofs.State

/-!
# Activations — what the frames of a call stack are entered for

On a call stack a frame is a name.  This file tells whose code is run in a frame, and in which scopes
lookups of that code begin.  It defines:

* `Running` — the brackets between which code is run;
* `State.callee?` — the block that a name stands for where an engine goes on;
* `Activation` — a frame with the block whose code is run in it;
* `Activation.Begins` — where each kind of frame is entered, and for which block.

A scope is entered before its frame and left after it, and no code is run in between.
-/

namespace Bir

/-! ## Where code is run -/

/-- Code is run between brackets unless the innermost scope or frame among them is a scope, whose
frame is still to come or is left, or the frame of a native block. -/
def Running : List Bracket → Prop
  | [] => True
  | .scope :: _ => False
  | .frame :: pending => awaited? pending = none
  | _ :: pending => Running pending

/-- The number of scopes and frames that are open. -/
def entries : List Bracket → Nat
  | [] => 0
  | .scope :: pending => entries pending + 1
  | .frame :: pending => entries pending + 1
  | _ :: pending => entries pending

/-- Where statements are run, no block is called that has not been entered. -/
theorem Framed.awaited?_eq {pending : List Bracket} (h : Framed pending) :
    awaited? pending = none := by
  cases h <;> rfl

/-- Nothing is begun, and no scope changes. -/
structure Moment.Withdraws (moment moment' : Moment) : Prop where
  pending : moment'.pending <:+ moment.pending
  graph : moment'.state.graph = moment.state.graph

/-- A move that enters and leaves nothing goes from where code is run to where code is run. -/
theorem Move.running {allowed : EngineId → Statement → Prop} {moment moment' : Moment}
    (move : Move allowed moment moment')
    (same : entries moment'.pending = entries moment.pending) :
    ¬ moment.Enters moment' ∧ (Running moment.pending → Running moment'.pending) := by
  cases move <;> simp_all [entries, Running, Moment.Enters]

/-! ## Names -/

/-- The block that a name stands for where an engine goes on. -/
def State.callee? (state : State) (self : EngineId) (name : String) : Option BlockRef :=
  (state.graph.findBlock? (state.currentScope self) name).map (·.block)

/-! ## Activations -/

/-- A frame that is entered and not left. -/
structure Activation where
  frame : Frame
  /-- The block that is called, or whose `init` section is run. -/
  block : Option BlockRef
  /-- The scope that was entered for the frame, and the store that its lookups go on to. -/
  scopes : List ScopeId

/-- Where a frame is entered, and for which block.  If the reasons are `known`, the frame of a branch
or a turn is entered where code is run, and that of a call where its name stands for the block. -/
inductive Activation.Begins (known : Prop) : Activation → Moment → Prop where
  /-- A branch, an arm and a turn of `while` have no scope of their own, nor has the main program. -/
  | branch {pending self state} [framed : Framed pending] (frame : FlowFrame)
      (running : known → Running pending) :
      Begins known ⟨.flow frame, none, []⟩ ⟨pending, self, state⟩
  | turn {pending self} {state : State} [framed : Framed pending]
      (running : known → Running pending) (placeholder : String) (index : Int64) :
      Begins known ⟨.flow .loopFor, none, [state.graph.scopes.size]⟩
        ⟨.scope :: pending, self,
          ((state.addScope (Evaluation.turnScope placeholder (state.currentScope self)
            index)).1).pushScope self state.graph.scopes.size⟩
  | native {pending self} {state : State} {ref : BlockRef} {called : String}
      (awaited : awaited? pending = some ref) :
      Begins known ⟨.call called, some ref, []⟩ ⟨pending, self, state⟩
  | call {pending self} {state : State} {ref : BlockRef} {called : String}
      (awaited : awaited? pending = some ref)
      (seen : known → state.callee? self called = some ref) (verbs arguments : List Int64) :
      Begins known
        ⟨.call called, some ref, state.graph.scopes.size :: (state.graph.block ref).store.toList⟩
        ⟨.scope :: pending, self,
          ((state.addScope (Call.scope (state.graph.block ref) (state.currentScope self) verbs
            arguments)).1).pushScope self state.graph.scopes.size⟩
  | init {pending self ref name store} {state : State} :
      Begins known ⟨.init name, some ref, [store]⟩
        ⟨.scope :: .block ref name (some store) :: pending, self, state.pushScope self store⟩

end Bir
