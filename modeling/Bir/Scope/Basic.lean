import Bir.Program

/-!
# Scopes — bindings and blocks of one level

A `Scope` holds the bindings and blocks of one level and names the scopes that a lookup goes on to.
This file defines:

* `Binding`, `Block` and `Scope`;
* `Block.declared`, `Block.implementing` and `Block.native` — the ways a block comes about;
* the operations on one scope, each of which acts on the first binding or block of a name.

Names are unique within a scope because those who add to it ask first; nothing here checks it.
-/

namespace Bir

/-- The number of a scope in its graph. -/
abbrev ScopeId := Nat

/-- The number of an engine in its run, in the order of creation. -/
abbrev EngineId := Nat

/-! ## Bindings and blocks -/

/-- What a name stands for. -/
structure Binding where
  name : String
  value : Int64
  kind : BindingKind
  deriving DecidableEq, Repr, Inhabited

/-- What a call of a block runs: statements of the language, or the console. -/
inductive BlockBody where
  | interpreted (init : Option (List Statement)) (program : List Statement)
  | native
  deriving Repr, Inhabited

/-- What calls run, with the state that they share. -/
structure Block where
  /-- The engine whose source declared the block. -/
  owner : EngineId
  name : String
  verbs : List String := []
  arguments : List String := []
  body : BlockBody
  /-- The name of the block that this one implements. -/
  parent : Option String := none
  initialized : Bool := false
  /-- The scope that every call shares, made when the block is declared. -/
  store : Option ScopeId := none
  deriving Repr, Inhabited

namespace Block

/-- A block with a body of its own, not yet initialized. -/
def declared (owner : EngineId) (name : String) (verbs arguments : List String)
    (init : Option (List Statement)) (program : List Statement) : Block :=
  { owner, name, verbs, arguments, body := .interpreted init program }

/-- A block of the shape and body of another, with no state yet. -/
def implementing (owner : EngineId) (name : String) (parent : Block) : Block :=
  { owner, name, verbs := parent.verbs, arguments := parent.arguments, body := parent.body,
    parent := some parent.name }

/-- A block that the console runs. -/
def native (owner : EngineId) (name : String) : Block :=
  { owner, name, body := .native, initialized := true }

/-- Whether the console runs a block. -/
def isNative (block : Block) : Bool :=
  match block.body with
  | .native => true
  | .interpreted _ _ => false

/-- The statements that build the state of a block. -/
def init? (block : Block) : Option (List Statement) :=
  match block.body with
  | .interpreted init _ => init
  | .native => none

end Block

/-! ## Scopes -/

/-- The bindings and blocks of one level. -/
structure Scope where
  /-- The scopes that a lookup goes on to, in order. -/
  parents : List ScopeId := []
  bindings : List Binding := []
  blocks : List Block := []
  /-- Whether assignments to the bindings are refused. -/
  immutable : Bool := false
  /-- Whether the blocks belong to another engine. -/
  foreign : Bool := false
  deriving Repr, Inhabited

namespace Scope

/-- The first binding of a name. -/
def binding? (scope : Scope) (name : String) : Option Binding :=
  scope.bindings.find? (fun binding => binding.name == name)

/-- Whether a name is bound. -/
def binds (scope : Scope) (name : String) : Bool :=
  scope.bindings.any (fun binding => binding.name == name)

/-- Add a binding behind the others. -/
def push (scope : Scope) (name : String) (value : Int64) (kind : BindingKind) : Scope :=
  { scope with bindings := scope.bindings ++ [{ name, value, kind }] }

/-- Set the value of the first binding of a name, whatever its kind. -/
def overwrite (scope : Scope) (name : String) (value : Int64) : Scope :=
  { scope with
    bindings := scope.bindings.modify
      (scope.bindings.findIdx (fun binding => binding.name == name))
      (fun binding => { binding with value }) }

/-- Remove the first binding of a name. -/
def erase (scope : Scope) (name : String) : Scope :=
  { scope with bindings := scope.bindings.eraseP (fun binding => binding.name == name) }

/-- The place of the first block of a name. -/
def blockIndex? (scope : Scope) (name : String) : Option Nat :=
  scope.blocks.findIdx? (fun block => block.name == name)

/-- Whether a block of a name is declared. -/
def declares (scope : Scope) (name : String) : Bool :=
  scope.blocks.any (fun block => block.name == name)

/-- Add a block behind the others. -/
def addBlock (scope : Scope) (block : Block) : Scope :=
  { scope with blocks := scope.blocks ++ [block] }

/-- Change the block at a place. -/
def modifyBlock (scope : Scope) (index : Nat) (change : Block → Block) : Scope :=
  { scope with blocks := scope.blocks.modify index change }

/-- Add a scope that a lookup goes on to after the others. -/
def addParent (scope : Scope) (parent : ScopeId) : Scope :=
  { scope with parents := scope.parents ++ [parent] }

/-- Whether and why a write to a bound name is refused. -/
inductive Permission where
  | granted
  | deniedConst
  | deniedImmutable
  deriving DecidableEq, Repr, Inhabited

/-- Whether the first binding of a name may be written: a `const` is asked about before the
scope is. -/
def permission (scope : Scope) (binding : Binding) : Permission :=
  if binding.kind = .const then .deniedConst
  else if scope.immutable then .deniedImmutable
  else .granted

end Scope

end Bir
