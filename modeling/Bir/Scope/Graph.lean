import Bir.Scope.Basic

/-!
# Scope graphs — lookups across levels

A `ScopeGraph` holds all scopes of a run. A lookup asks a scope first and then each of its parents
in order, depth first. This file defines:

* `ScopeGraph.resolve?` — the first scope of a lookup that has what is asked for;
* `find?` and `findBlock?`, in terms of it;
* `update` and `delete`, walks of their own, which change the graph as they go;
* `markInitialized`, which attaches its state to a block.

None of them goes on past a scope that has what is asked for; `delete` ends at the first one, and
`update` asks all parents. A walk is never deeper than there are scopes, because no scope is its own
ancestor.
-/

namespace Bir

/-- The scopes of a run. -/
structure ScopeGraph where
  scopes : Array Scope := #[]
  deriving Inhabited

/-- Where a block is declared. -/
structure BlockRef where
  scope : ScopeId
  index : Nat
  deriving DecidableEq, Repr, Inhabited

/-- A block as a lookup found it. -/
structure FoundBlock where
  block : BlockRef
  /-- Whether the scope that declares the block belongs to another engine. -/
  foreign : Bool
  deriving DecidableEq, Repr, Inhabited

/-- What became of a write. -/
inductive UpdateOutcome where
  | granted
  | deniedConst
  | deniedImmutable
  | unbound
  deriving DecidableEq, Repr, Inhabited

namespace UpdateOutcome

/-- Whether a write was refused. -/
def isDenied : UpdateOutcome → Bool
  | .deniedConst => true
  | .deniedImmutable => true
  | _ => false

/-- What became of a write to one scope that binds the name. -/
def ofPermission : Scope.Permission → UpdateOutcome
  | .granted => .granted
  | .deniedConst => .deniedConst
  | .deniedImmutable => .deniedImmutable

/-- Two outcomes in order: the first denial counts, then any grant. -/
def combine (outcome report : UpdateOutcome) : UpdateOutcome :=
  if outcome.isDenied then outcome
  else if report = .unbound then outcome
  else report

@[simp]
theorem combine_unbound (outcome : UpdateOutcome) : outcome.combine .unbound = outcome := by
  cases outcome <;> rfl

@[simp]
theorem unbound_combine (report : UpdateOutcome) : combine .unbound report = report := by
  cases report <;> rfl

theorem combine_assoc (first second third : UpdateOutcome) :
    (first.combine second).combine third = first.combine (second.combine third) := by
  cases first <;> cases second <;> cases third <;> rfl

end UpdateOutcome

namespace ScopeGraph

/-! ## Access -/

/-- The scope with a number. -/
def get (graph : ScopeGraph) (id : ScopeId) : Scope := graph.scopes.getD id {}

/-- Change the scope with a number. -/
def modify (graph : ScopeGraph) (id : ScopeId) (change : Scope → Scope) : ScopeGraph :=
  { graph with scopes := graph.scopes.modify id change }

/-- Add a scope; its number is the number of scopes before it. -/
def add (graph : ScopeGraph) (scope : Scope) : ScopeGraph × ScopeId :=
  let id := graph.scopes.size
  ({ graph with scopes := graph.scopes.push scope }, id)

/-- Add a scope with no bindings below a parent. -/
def addChild (graph : ScopeGraph) (parent : ScopeId) : ScopeGraph × ScopeId :=
  graph.add { parents := [parent] }

/-- The block at a place. -/
def block (graph : ScopeGraph) (ref : BlockRef) : Block :=
  ((graph.get ref.scope).blocks[ref.index]?).getD default

/-- Change the block at a place. -/
def modifyBlock (graph : ScopeGraph) (ref : BlockRef) (change : Block → Block) : ScopeGraph :=
  graph.modify ref.scope (fun scope => scope.modifyBlock ref.index change)

/-! ## Walks -/

/-- The first scope with a property, from `id` on, depth first and no deeper than `depth`. -/
def resolveWithin (graph : ScopeGraph) (holds : Scope → Bool) : Nat → ScopeId → Option ScopeId
  | 0, _ => none
  | depth + 1, id =>
    let scope := graph.get id
    if holds scope then some id
    else scope.parents.findSome? (fun parent => resolveWithin graph holds depth parent)

/-- The first scope with a property that a lookup from `id` meets. -/
def resolve? (graph : ScopeGraph) (holds : Scope → Bool) (id : ScopeId) : Option ScopeId :=
  graph.resolveWithin holds graph.scopes.size id

/-! ## Bindings -/

/-- The value of a name, seen from a scope. -/
def find? (graph : ScopeGraph) (id : ScopeId) (name : String) : Option Int64 :=
  match graph.resolve? (fun scope => scope.binds name) id with
  | some holder => ((graph.get holder).binding? name).map (fun binding => binding.value)
  | none => none

/-- Write a value to one scope that binds the name, if it may be written. -/
def write (graph : ScopeGraph) (holder : ScopeId) (name : String) (value : Int64) :
    ScopeGraph × UpdateOutcome :=
  let scope := graph.get holder
  match scope.binding? name with
  | none => (graph, .unbound)
  | some binding =>
    match scope.permission binding with
    | .granted => (graph.modify holder (fun scope => scope.overwrite name value), .granted)
    | denied => (graph, .ofPermission denied)

/-- Write a value to the scope `id` if it binds the name, and otherwise to what each of its parents
finds, depth first and no deeper than `depth`. A parent is asked in the graph that the parents before
it have left. -/
def updateWithin (name : String) (value : Int64) :
    Nat → ScopeGraph → ScopeId → ScopeGraph × UpdateOutcome
  | 0, graph, _ => (graph, .unbound)
  | depth + 1, graph, id =>
    let scope := graph.get id
    if scope.binds name then graph.write id name value
    else
      scope.parents.foldl
        (fun (graph, outcome) parent =>
          let (graph, report) := updateWithin name value depth graph parent
          (graph, outcome.combine report))
        (graph, .unbound)

/-- Write a value to every scope that a lookup of the name meets. -/
def update (graph : ScopeGraph) (id : ScopeId) (name : String) (value : Int64) :
    ScopeGraph × UpdateOutcome :=
  updateWithin name value graph.scopes.size graph id

/-- Remove the first binding of a name in the first scope that binds it, from `id` on, depth first
and no deeper than `depth`, and say whether there is one. No scope is asked any more then. -/
def removeWithin (name : String) : Nat → ScopeGraph → ScopeId → ScopeGraph × Bool
  | 0, graph, _ => (graph, false)
  | depth + 1, graph, id =>
    let scope := graph.get id
    if scope.binds name then (graph.modify id (fun scope => scope.erase name), true)
    else
      scope.parents.foldl
        (fun (graph, removed) parent =>
          if removed then (graph, removed) else removeWithin name depth graph parent)
        (graph, false)

/-- Remove the first binding of a name that a walk from `id` comes to. -/
def delete (graph : ScopeGraph) (id : ScopeId) (name : String) : ScopeGraph :=
  (removeWithin name graph.scopes.size graph id).1

/-! ## Blocks -/

/-- A name without the `$` that marks the frame of an `init` section. -/
def unmarked (name : String) : String :=
  match name.toList with
  | '$' :: rest => String.ofList rest
  | _ => name

/-- The block of a name, seen from a scope. -/
def findBlock? (graph : ScopeGraph) (id : ScopeId) (name : String) : Option FoundBlock :=
  let name := unmarked name
  match graph.resolve? (fun scope => scope.declares name) id with
  | none => none
  | some holder =>
    let scope := graph.get holder
    match scope.blockIndex? name with
    | some index => some ⟨⟨holder, index⟩, scope.foreign⟩
    | none => none

/-- Mark the block of a name as initialized and attach its state. -/
def markInitialized (graph : ScopeGraph) (id : ScopeId) (name : String) (store : Option ScopeId) :
    ScopeGraph :=
  match graph.findBlock? id name with
  | some found => graph.modifyBlock found.block (fun block => { block with initialized := true, store })
  | none => graph

end ScopeGraph

end Bir
