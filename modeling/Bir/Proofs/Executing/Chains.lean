import Bir.Proofs.Executing.Lookups
import Bir.Proofs.Exits.Stages
import Bir.Proofs.Instances

/-!
# Chains — from the scope that code runs in to the block that it is part of

A call begins a chain of scopes: its own, then the store of the block and the scope that the block is
declared in, or the scope of the caller if the block has no store.  The turns of a loop put scopes of
their own before it.  This file defines:

* `executing?` — the block whose code is run, past branches and loops;
* `reach` — the scopes that were entered for it and since;
* `ScopeGraph.actsOn?` — the first block of the name of the executing block that is declared in
  these scopes, or else that block itself;
* `ScopeGraph.Carries` — the scopes of activations are chained in this way.

`ScopeGraph.Carries.findSome?_names` shows that this is what slot operations look for, with the names
on the call stack, and `ScopeGraph.Carries.mono` for how long scopes stay chained.
-/

namespace Bir

open Relation

/-! ## Executing blocks -/

/-- The block whose code is run, past branches and loops. -/
def executing? (active : List Activation) : Option BlockRef :=
  active.findSome? fun activation => activation.block

/-- The scopes that were entered for the executing block and since, the innermost first. -/
def reach : List Activation → List ScopeId
  | [] => []
  | activation :: active =>
    if activation.block.isSome then activation.scopes else activation.scopes ++ reach active

/-- The scopes that activations began with, the innermost first. -/
def bases (active : List Activation) : List ScopeId :=
  active.filterMap fun activation => activation.scopes.head?

namespace ScopeGraph

/-- The block that slot operations act on: the first block of the name of the executing block that is
declared in the scopes entered for it and since, or else that block itself. -/
def actsOn? (graph : ScopeGraph) (active : List Activation) : Option BlockRef :=
  (executing? active).map fun ref =>
    ((reach active).findSome? fun id => graph.own? id (graph.block ref).name).getD ref

/-- A scope is that of code run in some activations.  Their scopes lie one before the other, down to
those of a call or an `init` section, and a lookup that goes past these finds the block. -/
inductive Carries (graph : ScopeGraph) : ScopeId → List Activation → Prop where
  | rest {scope : ScopeId} : Carries graph scope []
  | branch {scope : ScopeId} {active : List Activation} (frame : FlowFrame)
      (outer : Carries graph scope active) : Carries graph scope (⟨.flow frame, none, []⟩ :: active)
  | turn {scope outer : ScopeId} {active : List Activation}
      (parents : (graph.get scope).parents = [outer]) (carried : Carries graph outer active) :
      Carries graph scope (⟨.flow .loopFor, none, [scope]⟩ :: active)
  | stored {scope store caller : ScopeId} {ref : BlockRef} {called : String}
      {active : List Activation} (parents : (graph.get scope).parents = [store, caller])
      (stands : (graph.get store).parents = [ref.scope]) (declares : graph.Declares ref called) :
      Carries graph scope (⟨.call called, some ref, [scope, store]⟩ :: active)
  /-- The scopes that the caller sees are older than that of the call. -/
  | storeless {scope caller : ScopeId} {ref : BlockRef} {called : String}
      {active : List Activation} (parents : (graph.get scope).parents = [caller])
      (before : caller < scope)
      (older : graph.ClosedUp (· < scope))
      (declares : graph.Declares ref called) (seen : graph.lookup? caller called = some ref) :
      Carries graph scope (⟨.call called, some ref, [scope]⟩ :: active)
  | init {store : ScopeId} {ref : BlockRef} {name : String} {active : List Activation}
      (stands : (graph.get store).parents = [ref.scope]) (declares : graph.Declares ref name) :
      Carries graph store (⟨.init name, some ref, [store]⟩ :: active)

variable {graph graph' : ScopeGraph} {scope : ScopeId} {active : List Activation}

/-! ## Names of frames -/

theorem unmarked_flowName (frame : FlowFrame) : unmarked frame.name = frame.name := by
  cases frame <;> decide

/-- Where all names of blocks are spelled, none is that of a frame of control flow. -/
theorem lookup?_flowName (spelled : graph.EveryBlock fun block => Spelled block.name)
    (id : ScopeId) (frame : FlowFrame) : graph.lookup? id frame.name = none := by
  refine lookup?_eq_none (spelled.mono fun block hspelled hname => ?_) id
  have hflow := hspelled.isFlowName
  rw [hname, unmarked_flowName, CallStack.isFlowName_name] at hflow
  cases hflow

theorem unmarked_initFrame (name : String) : unmarked (Declaration.initFrame name) = name := by
  simp [unmarked, Declaration.initFrame]

/-! ## Chains of lookups -/

/-- The block that a name stands for past some scopes, if these do not declare the name. -/
def past? (graph : ScopeGraph) (past : List ScopeId) (scope : ScopeId) (name : String) :
    Option BlockRef :=
  (past.findSome? fun id => graph.own? id (unmarked name)).or (graph.lookup? scope name)

/-- A scope is gone past to its first parent if that is the only one or sees the name. -/
theorem LookupsEnd.past?_of_parents (ends : graph.LookupsEnd) {outer : ScopeId}
    {others : List ScopeId} (parents : (graph.get scope).parents = outer :: others) {name : String}
    (first : others = [] ∨ (graph.lookup? outer name).isSome) (past : List ScopeId) :
    graph.past? past scope name = graph.past? (past ++ [scope]) outer name := by
  have hfirst : ((outer :: others).findSome? fun id => graph.lookup? id name) =
      graph.lookup? outer name := by
    rw [List.findSome?_cons]
    cases hseen : graph.lookup? outer name with
    | some ref => rfl
    | none =>
        rcases first with rfl | hsome
        · rfl
        · rw [hseen] at hsome
          cases hsome
  have hscope : (([scope] : List ScopeId).findSome? fun id => graph.own? id (unmarked name)) =
      graph.own? scope (unmarked name) := by
    rw [List.findSome?_cons]
    cases graph.own? scope (unmarked name) <;> rfl
  rw [past?, past?, ends.lookup? scope, parents, hfirst, List.findSome?_append, hscope,
    Option.or_assoc]

/-- The name of a block stands for the block itself if no scope on the way declares the name. -/
theorem past?_of_lookup? {ref : BlockRef} {name : String} (declares : graph.Declares ref name)
    (seen : graph.lookup? scope name = some ref) (past : List ScopeId) :
    graph.past? past scope name =
      some ((past.findSome? fun id => graph.own? id (graph.block ref).name).getD ref) := by
  rw [past?, seen, declares.name_block, declares.unmarked]
  cases past.findSome? fun id => graph.own? id name <;> rfl

namespace Carries

/-- The names of frames are looked for from a scope that is reached past others. -/
theorem findSome?_past (ends : graph.LookupsEnd)
    (spelled : graph.EveryBlock fun block => Spelled block.name) (h : graph.Carries scope active)
    (past : List ScopeId) :
    (active.map fun activation => activation.frame.name).findSome? (graph.past? past scope) =
      (executing? active).map fun ref => ((past ++ reach active).findSome? fun id =>
        graph.own? id (graph.block ref).name).getD ref := by
  have hflow : ∀ (frame : FlowFrame) (past : List ScopeId) (scope : ScopeId),
      graph.past? past scope frame.name = none := by
    intro frame past scope
    refine Option.or_eq_none_iff.2 ⟨List.findSome?_eq_none_iff.2 fun id _ => ?_, ?_⟩
    · have hnone := lookup?_flowName spelled id frame
      rw [ends.lookup?] at hnone
      exact (Option.or_eq_none_iff.1 hnone).1
    · exact lookup?_flowName spelled scope frame
  induction h generalizing past with
  | rest => rfl
  | @branch scope active frame outer ih =>
      rw [List.map_cons, List.findSome?_cons, Frame.name, hflow]
      exact ih past
  | @turn scope outer active parents carried ih =>
      have hparents : graph.past? past scope = graph.past? (past ++ [scope]) outer :=
        funext fun name => ends.past?_of_parents parents (Or.inl rfl) past
      rw [List.map_cons, List.findSome?_cons, Frame.name, hflow, hparents]
      simpa [executing?, reach] using ih (past ++ [scope])
  | @stored scope store caller ref called active parents stands declares =>
      -- The store sees the block, so the caller is not asked.
      have hstore : (graph.lookup? store called).isSome := by
        rw [ends.lookup?, stands]
        simp [ends.lookup?_of_declares declares]
      rw [List.map_cons, List.findSome?_cons, Frame.name,
        ends.past?_of_parents parents (Or.inr hstore), ends.past?_of_parents stands (Or.inl rfl),
        past?_of_lookup? declares (ends.lookup?_of_declares declares)]
      simp [executing?, reach]
  | @storeless scope caller ref called active parents before older declares seen =>
      rw [List.map_cons, List.findSome?_cons, Frame.name,
        ends.past?_of_parents parents (Or.inl rfl), past?_of_lookup? declares seen]
      rfl
  | @init store ref name active stands declares =>
      have hmarked : ∀ scope, graph.past? past scope (Declaration.initFrame name) =
          graph.past? past scope name := by
        intro scope
        simp only [past?, lookup?_eq_bind, unmarked_initFrame, declares.unmarked]
      rw [List.map_cons, List.findSome?_cons, Frame.name, hmarked,
        ends.past?_of_parents stands (Or.inl rfl),
        past?_of_lookup? declares (ends.lookup?_of_declares declares)]
      rfl

/-- In a scope that carries activations, the names of their frames lead to the block that slot
operations act on. -/
theorem findSome?_names (ends : graph.LookupsEnd)
    (spelled : graph.EveryBlock fun block => Spelled block.name) (h : graph.Carries scope active) :
    (active.map fun activation => activation.frame.name).findSome? (graph.lookup? scope) =
      graph.actsOn? active :=
  h.findSome?_past ends spelled []

/-! ## Namesakes -/

/-- The scopes of activations all lie inside of the one that the executing block is declared in. -/
theorem inside (h : graph.Carries scope active) {ref : BlockRef}
    (executing : executing? active = some ref) :
    TransGen graph.Parent scope ref.scope ∧
      ∀ id ∈ reach active, TransGen graph.Parent id ref.scope := by
  have hparent : ∀ {id parent : ScopeId} {others : List ScopeId},
      (graph.get id).parents = parent :: others → graph.Parent id parent := by
    intro id parent others parents
    rw [Parent, parents]
    exact List.mem_cons_self
  induction h with
  | rest => cases executing
  | branch frame outer ih => exact ih executing
  | turn parents carried ih =>
      obtain ⟨houter, hreach⟩ := ih executing
      have hscope := TransGen.head (hparent parents) houter
      exact ⟨hscope, List.forall_mem_cons.2 ⟨hscope, hreach⟩⟩
  | stored parents stands declares =>
      cases executing
      have hstore := TransGen.single (hparent stands)
      have hscope := hstore.head (hparent parents)
      exact ⟨hscope, by simp [reach, hscope, hstore]⟩
  | @storeless scope caller ref called active parents before older declares seen =>
      cases executing
      obtain ⟨found, hfound, rfl⟩ := Option.map_eq_some_iff.1 seen
      have hpath : ReflTransGen graph.Parent caller found.block.scope :=
        inside_of_resolveWithin (fun _ hid _ hparent => hid.tail hparent) .refl
          (graph.findBlock?_eq_some hfound).1
      have hscope := TransGen.head' (hparent parents) hpath
      exact ⟨hscope, by simp [reach, hscope]⟩
  | init stands declares =>
      cases executing
      have hstore := TransGen.single (hparent stands)
      exact ⟨hstore, by simp [reach, hstore]⟩

/-- Slot operations act on the executing block itself just if no scope that was entered for it or since
declares its name. -/
theorem actsOn?_eq_executing_iff (h : graph.Carries scope active) (acyclic : graph.Acyclic)
    {ref : BlockRef} (executing : executing? active = some ref) :
    graph.actsOn? active = some ref ↔
      ∀ id ∈ reach active, (graph.get id).declares (graph.block ref).name = false := by
  rw [actsOn?, executing, Option.map_some, Option.some.injEq]
  cases hnamesake : (reach active).findSome? fun id => graph.own? id (graph.block ref).name with
  | none =>
      rw [List.findSome?_eq_none_iff] at hnamesake
      exact iff_of_true rfl fun id hid => own?_eq_none.1 (hnamesake id hid)
  | some namesake =>
      obtain ⟨id, hid, hown⟩ := List.exists_of_findSome?_eq_some hnamesake
      refine iff_of_false (fun heq => ?_) fun hnone => ?_
      -- The block itself is declared outside of these scopes.
      · obtain rfl : namesake = ref := heq
        obtain rfl : namesake.scope = id := (own?_eq_some.1 hown).1
        exact acyclic _ ((h.inside executing).2 _ hid)
      · rw [own?_eq_none.2 (hnone id hid)] at hown
        cases hown

/-- A block that slot operations act on, and that is declared in a scope without parents, is the
executing one. -/
theorem executing?_of_actsOn? (h : graph.Carries scope active) {ref : BlockRef}
    (acts : graph.actsOn? active = some ref) (outermost : (graph.get ref.scope).parents = []) :
    executing? active = some ref := by
  obtain ⟨executing, hexecuting, hacts⟩ := Option.map_eq_some_iff.1 acts
  cases hnamesake : (reach active).findSome? fun id =>
      graph.own? id (graph.block executing).name with
  | none =>
      rw [hnamesake] at hacts
      exact hexecuting.trans (congrArg some hacts)
  | some namesake =>
      rw [hnamesake] at hacts
      obtain rfl : namesake = ref := hacts
      obtain ⟨id, hid, hown⟩ := List.exists_of_findSome?_eq_some hnamesake
      obtain rfl : namesake.scope = id := (own?_eq_some.1 hown).1
      -- A scope on the way has a parent.
      obtain ⟨parent, hparent, -⟩ := TransGen.head'_iff.1 ((h.inside hexecuting).2 _ hid)
      rw [Parent, outermost] at hparent
      cases hparent

/-- Where a block that has a store is called, and nothing is entered since, the name of the innermost
frame tells the block. -/
theorem executing?_of_call (h : graph.Carries scope active) {called : String} {others : List String}
    (names : active.map (fun activation => activation.frame.name) = called :: others)
    (spelled : Spelled called) {store caller outer : ScopeId}
    (parents : (graph.get scope).parents = [store, caller])
    (stands : (graph.get store).parents = [outer]) {ref : BlockRef}
    (own : graph.own? outer called = some ref) : executing? active = some ref := by
  have hframe : ∀ frame : FlowFrame, frame.name ≠ called := fun frame hname => by
    have hflow := spelled.isFlowName
    rw [← hname, CallStack.isFlowName_name] at hflow
    cases hflow
  cases h with
  | rest => cases names
  | branch frame outer => exact absurd (List.cons.inj names).1 (hframe frame)
  | turn parents carried => exact absurd (List.cons.inj names).1 (hframe .loopFor)
  | @stored _ _ _ called' name _ parents' stands' declares =>
      obtain rfl : name = called := (List.cons.inj names).1
      rw [parents] at parents'
      cases parents'
      rw [stands] at stands'
      cases stands'
      have hown : graph.own? called'.scope name = some called' :=
        own?_eq_some.2 ⟨rfl, declares.first⟩
      exact hown.symm.trans own
  | storeless parents' =>
      rw [parents] at parents'
      cases parents'
  | @init _ _ name =>
      obtain rfl : Declaration.initFrame name = called := (List.cons.inj names).1
      have hmarked := spelled.unmarked
      rw [unmarked_initFrame] at hmarked
      have hlength := congrArg String.length hmarked
      simp [Declaration.initFrame] at hlength

end Carries

/-! ## How long scopes stay chained -/

/-- Scopes and blocks are added, and what was there keeps its parents and its blocks. -/
structure GrowsTo (graph graph' : ScopeGraph) : Prop where
  size : graph.scopes.size ≤ graph'.scopes.size
  parents : ∀ id < graph.scopes.size, (graph'.get id).parents = (graph.get id).parents
  signatures : ∀ id, graph.signatures id <+: graph'.signatures id

/-- A scope that has parents is there. -/
theorem lt_of_parents {id parent : ScopeId} {others : List ScopeId}
    (parents : (graph.get id).parents = parent :: others) : id < graph.scopes.size := by
  have hparent : graph.Parent id parent := by
    rw [Parent, parents]
    exact List.mem_cons_self
  exact hparent.lt

theorem Carries.mono (h : graph.Carries scope active) (acyclic : graph.Acyclic)
    (exist : graph.ClosedUp (· < graph.scopes.size)) (grows : graph.GrowsTo graph')
    (kept : ∀ base ∈ bases active, ∀ id < base, graph'.signatures id = graph.signatures id) :
    graph'.Carries scope active := by
  have hparents : ∀ {id parent : ScopeId} {others : List ScopeId},
      (graph.get id).parents = parent :: others → (graph'.get id).parents = parent :: others :=
    fun parents => (grows.parents _ (lt_of_parents parents)).trans parents
  induction h with
  | rest => exact .rest
  | branch frame outer ih => exact .branch frame (ih kept)
  | turn parents carried ih =>
      exact .turn (hparents parents) (ih fun base hbase => kept base (List.mem_cons_of_mem _ hbase))
  | stored parents stands declares =>
      exact .stored (hparents parents) (hparents stands) (declares.of_signatures grows.signatures)
  | @storeless scope caller ref called active parents before older declares seen =>
      have hscope := lt_of_parents parents
      refine .storeless (hparents parents) before ?_ (declares.of_signatures grows.signatures) ?_
      · intro id hid parent hparent
        rw [Parent, grows.parents id (hid.trans hscope)] at hparent
        exact older id hid parent hparent
      -- What the caller sees is older than the call, and declares nothing while it goes on.
      · rw [← seen]
        exact lookup?_congr acyclic exist grows.size older (fun id hid => hid.trans hscope)
          (fun id hid => grows.parents id (hid.trans hscope))
          (fun id hid => kept scope List.mem_cons_self id hid) before called
  | init stands declares =>
      exact .init (hparents stands) (declares.of_signatures grows.signatures)

end ScopeGraph

end Bir
