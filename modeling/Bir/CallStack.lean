import Bir.Failure

/-!
# Call stacks — the frames of a run

Every sequence of statements that runs has a frame with a name: the main program, each call of a
block, each branch taken and each turn of a loop. This file defines:

* `CallStack.push` and `CallStack.pushCall` — only calls are refused when the stack is full;
* `CallStack.pop`;
* `CallStack.outsideBlocks` — whether no frame is that of a block;
* `CallStack.innermostFirst` and `CallStack.outermostFirst` — the names in order.

A frame that is no block's has a name in angle brackets, which no block can have.
-/

namespace Bir

/-- The names of the frames that are not those of blocks. -/
inductive FlowFrame where
  | main
  | branch
  | elif
  | otherwise
  | loopWhile
  | loopFor
  | case
  | default
  deriving DecidableEq, Repr, Inhabited

/-- The name of a frame that is not a block's. -/
def FlowFrame.name : FlowFrame → String
  | .main => "<main>"
  | .branch => "<if>"
  | .elif => "<elif>"
  | .otherwise => "<else>"
  | .loopWhile => "<while>"
  | .loopFor => "<for>"
  | .case => "<case>"
  | .default => "<default>"

/-- The names of the frames, the outermost first, and how many frames leave room for a call. -/
structure CallStack where
  frames : Array String := #[]
  limit : Option Nat := none
  deriving DecidableEq, Repr, Inhabited

namespace CallStack

/-- The number of frames. -/
def depth (stack : CallStack) : Nat := stack.frames.size

/-- Add a frame. -/
def push (stack : CallStack) (name : String) : CallStack :=
  { stack with frames := stack.frames.push name }

/-- The limit that leaves no room for another call, if there is one. -/
def exceeded? (stack : CallStack) : Option Nat :=
  match stack.limit with
  | some limit => if limit ≤ stack.depth then some limit else none
  | none => none

/-- Add the frame of a call, if there is room. -/
def pushCall (stack : CallStack) (name : String) : Except Failure CallStack :=
  match stack.exceeded? with
  | some limit => .error (.ofCause (.callStackOverflow limit))
  | none => .ok (stack.push name)

/-- Remove the innermost frame. -/
def pop (stack : CallStack) : CallStack :=
  { stack with frames := stack.frames.pop }

/-- The name of the innermost frame. -/
def top? (stack : CallStack) : Option String := stack.frames.back?

/-- Whether a frame is not that of a block. -/
def isFlowName (name : String) : Bool := name.toList.head? == some '<'

/-- Whether no call and no `init` section is running. -/
def outsideBlocks (stack : CallStack) : Bool := stack.frames.all isFlowName

/-- The names of the frames, the innermost first. -/
def innermostFirst (stack : CallStack) : List String := stack.frames.toList.reverse

/-- The names of the frames, the outermost first. -/
def outermostFirst (stack : CallStack) : List String := stack.frames.toList

end CallStack

end Bir
