import Bir.Proofs.Instances
import Bir.Proofs.Reports.Frames
import Bir.Proofs.Source.Literals
import Bir.Proofs.Walks

/-!
# Slots — a store as a map from numbers

Slots stand among the other bindings of a store, under names that are made of their numbers, and are
written by operations that go on to the parents of a scope where it does not bind a name.  This file
shows that neither of these is ever felt.  It defines:

* `ScopeGraph.DiffersAt` — two graphs differ in the bindings of one name in one scope, if at all;
* `Slot.Changes` — what a slot operation leaves as it is;
* `Slot.Laws` — what slot operations come to that act on a store.

`slots_are_a_map` is the result.
-/

namespace Bir

/-! ## Names of slots -/

namespace Slot

/-- Numbers with the same spelling are the same. -/
theorem name_injective {index other : Int64} (h : name index = name other) : index = other := by
  have hspelled : Token.writtenSign (decide (index.toInt < 0)) ++ Literal.magnitude index =
      Token.writtenSign (decide (other.toInt < 0)) ++ Literal.magnitude other := by
    have hlist := congrArg String.toList h
    simp only [name, String.toList_append, List.append_cancel_left_eq] at hlist
    rwa [Literal.toList_toString, Literal.toList_toString] at hlist
  have hsign : ∀ value : Int64, '-' ∉ Literal.magnitude value := fun value hmem => by
    simpa using Literal.isDigit_of_mem_magnitude hmem
  -- Only a sign tells a negative number, and the digits behind it tell the number.
  have hparts : decide (index.toInt < 0) = decide (other.toInt < 0) ∧
      Literal.magnitude index = Literal.magnitude other := by
    cases hindex : decide (index.toInt < 0) <;> cases hother : decide (other.toInt < 0) <;>
      simp only [hindex, hother, Token.writtenSign, Bool.false_eq_true, if_true, if_false,
        List.nil_append, List.cons_append, List.cons.injEq, true_and] at hspelled
    · exact ⟨rfl, hspelled⟩
    · exact absurd (hspelled ▸ List.mem_cons_self) (hsign index)
    · exact absurd (hspelled ▸ List.mem_cons_self) (hsign other)
    · exact ⟨rfl, hspelled⟩
  have hread := Literal.decimal?_magnitude index
  rw [hparts.1, hparts.2, Literal.decimal?_magnitude] at hread
  exact (Option.some.inj hread).symm

theorem name_ne {index other : Int64} (h : other ≠ index) : name other ≠ name index :=
  fun hname => h (name_injective hname)

end Slot

/-! ## One scope -/

namespace Scope

variable {scope scope' : Scope} {name other : String} {value : Int64} {kind : BindingKind}

/-- The bindings of all names but one. -/
def others (scope : Scope) (name : String) : List Binding :=
  scope.bindings.filter fun binding => binding.name ≠ name

theorem binding?_of_others (same : scope'.others name = scope.others name) (h : other ≠ name) :
    scope'.binding? other = scope.binding? other := by
  have hfind : ∀ scope : Scope, scope.binding? other =
      (scope.others name).find? fun binding => binding.name == other := by
    intro scope
    rw [others, List.find?_filter, binding?]
    congr 1
    funext binding
    by_cases hname : binding.name = other
    · simp [hname, h]
    · simp [hname]
  rw [hfind, hfind, same]

theorem others_push : (scope.push name value kind).others name = scope.others name := by
  simp [others, push]

theorem others_overwrite : (scope.overwrite name value).others name = scope.others name := by
  simp only [others, overwrite]
  induction scope.bindings with
  | nil => rfl
  | cons first rest ih =>
      by_cases hfirst : first.name = name
      · simp [List.findIdx_cons, hfirst]
      · simpa [List.findIdx_cons, beq_eq_false_iff_ne.2 hfirst, hfirst] using ih

theorem others_erase : (scope.erase name).others name = scope.others name := by
  simp only [others, erase]
  induction scope.bindings with
  | nil => rfl
  | cons first rest ih =>
      by_cases hfirst : first.name = name
      · simp [hfirst]
      · simpa [hfirst] using ih

theorem binding?_push (missing : scope.binds name = false) :
    (scope.push name value kind).binding? name = some ⟨name, value, kind⟩ := by
  have hmissing : scope.binding? name = none := by
    simpa [binds, binding?] using missing
  rw [binding?] at hmissing
  simp [binding?, push, List.find?_append, hmissing]

/-- What is erased is the first binding of the name. -/
theorem exists_erase (bound : scope.binds name = true) :
    ∃ front binding behind, scope.bindings = front ++ binding :: behind ∧
      (∀ other ∈ front, other.name ≠ name) ∧ binding.name = name ∧
      scope.binding? name = some binding ∧ (scope.erase name).bindings = front ++ behind := by
  obtain ⟨bound', hmem, hname⟩ := List.any_eq_true.1 bound
  obtain ⟨binding, front, behind, hfront, hbinding, hbindings, herased⟩ :=
    List.exists_of_eraseP (p := fun binding => binding.name == name) hmem hname
  have hnone : front.find? (fun binding => binding.name == name) = none :=
    List.find?_eq_none.2 hfront
  refine ⟨front, binding, behind, hbindings, fun other hother => by simpa using hfront other hother,
    by simpa using hbinding, ?_, herased⟩
  rw [binding?, hbindings, List.find?_append, hnone, Option.none_or, List.find?_cons_of_pos]
  exact hbinding

end Scope

/-! ## One name in one scope -/

namespace ScopeGraph

/-- Two graphs differ in the bindings of one name in one scope, if at all. -/
structure DiffersAt (store : ScopeId) (name : String) (before after : ScopeGraph) : Prop where
  size : after.scopes.size = before.scopes.size
  elsewhere : ∀ id ≠ store, after.get id = before.get id
  /-- All of the scope but its bindings. -/
  rest : { after.get store with bindings := [] } = { before.get store with bindings := [] }
  others : (after.get store).others name = (before.get store).others name

namespace DiffersAt

variable {before after : ScopeGraph} {store : ScopeId} {name : String}

theorem of_modify {change : Scope → Scope}
    (rest : ∀ scope, { change scope with bindings := [] } = { scope with bindings := [] })
    (others : ∀ scope, (change scope).others name = scope.others name) :
    before.DiffersAt store name (before.modify store change) where
  size := before.size_modify store change
  elsewhere _ hid := before.get_modify_ne change (Ne.symm hid)
  rest := before.get_modify_congr (fun scope => { scope with bindings := [] }) store store rest
  others := before.get_modify_congr (fun scope => scope.others name) store store others

section

variable (h : before.DiffersAt store name after)
include h

/-- What is read of a scope without its bindings is the same in both graphs. -/
theorem part {β : Type} (part : Scope → β)
    (unbound : ∀ scope, part { scope with bindings := [] } = part scope) (id : ScopeId) :
    part (after.get id) = part (before.get id) := by
  by_cases hid : id = store
  · subst hid
    rw [← unbound, h.rest, unbound]
  · rw [h.elsewhere id hid]

theorem findBlock? (id : ScopeId) (name : String) :
    after.findBlock? id name = before.findBlock? id name := by
  have hresolve : ∀ name, after.resolve? (fun scope => scope.declares name) id =
      before.resolve? (fun scope => scope.declares name) id := by
    intro name
    rw [resolve?_eq_head?, resolve?_eq_head?, holders_congr h.size]
    · exact h.part (fun scope => scope.declares name) fun _ => rfl
    · exact h.part Scope.parents fun _ => rfl
  have hindex := h.part (fun scope => scope.blockIndex? (unmarked name)) fun _ => rfl
  have hforeign := h.part Scope.foreign fun _ => rfl
  simp only [ScopeGraph.findBlock?, hresolve, hindex, hforeign]

theorem block (ref : BlockRef) : after.block ref = before.block ref :=
  ScopeGraph.block_congr _ (h.part Scope.blocks (fun _ => rfl) ref.scope)

theorem binding? {other : String} (hother : other ≠ name) :
    (after.get store).binding? other = (before.get store).binding? other :=
  Scope.binding?_of_others h.others hother

end

end DiffersAt

end ScopeGraph

/-! ## Writes to a scope that binds the name -/

namespace ScopeGraph

variable {graph : ScopeGraph} {store : ScopeId}

/-- A write to a scope that binds the name reaches no other one. -/
theorem update_eq_of_binds {name : String} (bound : (graph.get store).binds name = true)
    (value : Int64) :
    graph.update store name value =
      match (graph.get store).denial? name with
      | none => (graph.modify store fun scope => scope.overwrite name value, .granted)
      | some denial => (graph, denial) := by
  obtain ⟨depth, hdepth⟩ := Nat.exists_eq_succ_of_ne_zero
    (Nat.ne_of_gt (Nat.zero_lt_of_lt (graph.binds_lt bound)))
  have hwrite : graph.update store name value = graph.write store name value := by
    rw [update, hdepth, updateWithin, if_pos bound]
  exact hwrite.trans (write_eq value bound)

end ScopeGraph

/-! ## Slot operations -/

namespace Slot

variable {state after : State} {self : EngineId} {store : ScopeId} {index value result : Int64}

/-- What an operation on a slot leaves as it is: the other bindings of the store, all other scopes
and all that is no scope.  Slot operations act on the same store as before, and to read another slot
comes to the same. -/
structure Changes (engine : EngineId) (store : ScopeId) (index : Int64) (before after : State) :
    Prop where
  graph : before.graph.DiffersAt store (name index) after.graph
  rest : { after with graph := before.graph } = before
  target : after.slotStore? engine = some store
  reads : ∀ other ≠ index, ∀ unused,
    (access engine .read other unused after).result? = (access engine .read other unused before).result?

/-- What slot operations come to that act on a store. -/
structure Laws (engine : EngineId) (store : ScopeId) (state : State) : Prop where
  /-- Reading changes nothing. -/
  read : ∀ {index unused result after}, access engine .read index unused state = .done result after →
    after = state
  /-- A write yields the value that it writes, and so does reading the slot from then on. -/
  write : ∀ {index value result after}, access engine .write index value state = .done result after →
    result = value ∧ Changes engine store index state after ∧
      ∀ unused, access engine .read index unused after = .done value after
  /-- A removal yields zero and takes away just the binding that reading the slot has found. -/
  delete : ∀ {index unused result after}, access engine .delete index unused state = .done result after →
    result = 0 ∧ Changes engine store index state after ∧
      ∃ front binding behind,
        (state.graph.get store).bindings = front ++ binding :: behind ∧
        (∀ other ∈ front, other.name ≠ name index) ∧ binding.name = name index ∧
        (∀ unused, access engine .read index unused state = .done binding.value state) ∧
        (after.graph.get store).bindings = front ++ behind

/-- Where slot operations act on a store, what they do is told by the store. -/
theorem exists_access (target : state.slotStore? self = some store) :
    ∃ ref, target? state self = some ref ∧ ∀ op index value, access self op index value state =
      match op with
      | .read => Slot.read (state.graph.block ref).name store (name index) state
      | .write => Slot.write store (name index) value state
      | .delete => Slot.delete (state.graph.block ref).name store (name index) state := by
  obtain ⟨ref, htarget, hstore⟩ := Option.bind_eq_some_iff.1 target
  refine ⟨ref, htarget, fun op index value => ?_⟩
  cases op <;> simp only [access, htarget, hstore]

/-- Bindings do not tell where slot operations act. -/
theorem target?_congr (graph : state.graph.DiffersAt store (name index) after.graph)
    (rest : { after with graph := state.graph } = state) : target? after self = target? state self := by
  have hengines : after.engines = state.engines := by rw [← rest]
  simp only [target?, State.callStack_congr hengines, State.currentScope_congr hengines,
    graph.findBlock?]

theorem Changes.of_differsAt (target : state.slotStore? self = some store)
    (graph : state.graph.DiffersAt store (name index) after.graph)
    (rest : { after with graph := state.graph } = state) : Changes self store index state after := by
  have htarget : target? after self = target? state self := target?_congr graph rest
  have hafter : after.slotStore? self = some store := by
    rw [← target, State.slotStore?, State.slotStore?, htarget]
    simp only [graph.block]
  refine ⟨graph, rest, hafter, fun other hother unused => ?_⟩
  obtain ⟨ref, href, haccess⟩ := exists_access target
  obtain ⟨ref', href', haccess'⟩ := exists_access hafter
  obtain rfl : ref' = ref := Option.some.inj (href'.symm.trans (htarget.trans href))
  rw [haccess, haccess']
  simp only [Slot.read, graph.block, graph.binding? (name_ne hother)]
  cases (state.graph.get store).binding? (name other) <;> rfl

/-! ## One operation -/

/-- A write fails and changes nothing, or it changes the bindings of the slot, and the first of them
gets the value. -/
theorem write_cases (store : ScopeId) (slot : String) (value : Int64) (state : State) :
    (∃ failure, Slot.write store slot value state = .failed failure state) ∨
      ∃ change : Scope → Scope,
        Slot.write store slot value state = .done value (state.modifyScope store change) ∧
        (∀ scope, { change scope with bindings := [] } = { scope with bindings := [] }) ∧
        (∀ scope, (change scope).others slot = scope.others slot) ∧
        ((change (state.graph.get store)).binding? slot).map Binding.value = some value := by
  cases hbound : (state.graph.get store).binds slot with
  | false =>
      refine Or.inr ⟨fun scope => scope.push slot value .let, by simp [Slot.write, hbound],
        fun _ => rfl, fun _ => Scope.others_push, ?_⟩
      rw [Scope.binding?_push hbound]
      rfl
  | true =>
      have hupdate := ScopeGraph.update_eq_of_binds hbound value
      cases hdenial : (state.graph.get store).denial? slot with
      | none =>
          rw [hdenial] at hupdate
          refine Or.inr ⟨fun scope => scope.overwrite slot value, ?_, fun _ => rfl,
            fun _ => Scope.others_overwrite, ?_⟩
          · simp [Slot.write, hbound, State.updateBinding, State.updateGraph_eq, hupdate,
              State.modifyScope, State.modifyGraph]
          · obtain ⟨binding, hbinding⟩ := Scope.binds_eq_true.1 hbound
            rw [Scope.binding?_overwrite, hbinding]
            rfl
      | some denial =>
          rw [hdenial] at hupdate
          have hdenied := Scope.isDenied_of_denial? hdenial
          left
          cases denial with
          | granted => cases hdenied
          | unbound => cases hdenied
          | deniedConst =>
              simp [Slot.write, hbound, State.updateBinding, State.updateGraph_eq, hupdate]
          | deniedImmutable =>
              simp [Slot.write, hbound, State.updateBinding, State.updateGraph_eq, hupdate]

theorem delete_cases (block : String) (store : ScopeId) (slot : String) (state : State) :
    (∃ failure, Slot.delete block store slot state = .failed failure state) ∨
      (state.graph.get store).binds slot = true ∧ Slot.delete block store slot state =
        .done 0 (state.modifyScope store fun scope => scope.erase slot) := by
  cases hbound : (state.graph.get store).binds slot with
  | false => exact Or.inl ⟨_, by simp [Slot.delete, hbound]; rfl⟩
  | true =>
      refine Or.inr ⟨rfl, ?_⟩
      simp [Slot.delete, hbound, State.modifyScope, State.modifyGraph,
        ScopeGraph.delete_eq_of_binds _ hbound]

/-- A slot operation that fails changes nothing. -/
theorem eq_of_failed {op : SlotOp} {failure : Failure}
    (failed : access self op index value state = .failed failure after) : after = state := by
  cases hstore : state.slotStore? self with
  | none =>
      cases htarget : target? state self with
      | none =>
          simp only [access, htarget] at failed
          cases failed
          rfl
      | some ref =>
          have hnone : (state.graph.block ref).store = none := by
            rw [State.slotStore?, htarget] at hstore
            exact hstore
          simp only [access, htarget, hnone] at failed
          cases failed
          rfl
  | some store =>
      obtain ⟨ref, -, haccess⟩ := exists_access hstore
      rw [haccess] at failed
      cases op with
      | read =>
          simp only [Slot.read] at failed
          split at failed
          · cases failed
          · cases failed
            rfl
      | write =>
          rcases write_cases store (name index) value state with ⟨_, h⟩ | ⟨_, h, -⟩ <;>
            simp only [h] at failed <;> cases failed
          rfl
      | delete =>
          rcases delete_cases (state.graph.block ref).name store (name index) state with
            ⟨_, h⟩ | ⟨-, h⟩ <;> simp only [h] at failed <;> cases failed
          rfl

/-- Slot operations that act on a store which is there keep the laws. -/
theorem laws (there : store < state.graph.scopes.size)
    (target : state.slotStore? self = some store) : Laws self store state := by
  obtain ⟨ref, -, haccess⟩ := exists_access target
  refine ⟨?_, ?_, ?_⟩
  · intro index unused result after hread
    simp only [haccess, Slot.read] at hread
    split at hread
    · cases hread
      rfl
    · cases hread
  · intro index value result after hwrite
    rw [haccess] at hwrite
    rcases write_cases store (name index) value state with ⟨_, h⟩ | ⟨change, h, hrest, hothers, hvalue⟩
    · simp only [h] at hwrite
      cases hwrite
    · simp only [h] at hwrite
      cases hwrite
      have hchanges : Changes self store index state (state.modifyScope store change) :=
        .of_differsAt target (.of_modify hrest hothers) rfl
      refine ⟨rfl, hchanges, fun unused => ?_⟩
      obtain ⟨ref', -, haccess'⟩ := exists_access hchanges.target
      obtain ⟨binding, hbinding, hbound⟩ := Option.map_eq_some_iff.1 hvalue
      have hget : (state.modifyScope store change).graph.get store =
          change (state.graph.get store) := by
        rw [State.graph_modifyScope, ScopeGraph.get_modify, if_pos ⟨rfl, there⟩]
      simp only [haccess', Slot.read, hget, hbinding, hbound]
  · intro index unused result after hdelete
    rw [haccess] at hdelete
    rcases delete_cases (state.graph.block ref).name store (name index) state with
      ⟨_, h⟩ | ⟨hbound, h⟩
    · simp only [h] at hdelete
      cases hdelete
    · simp only [h] at hdelete
      cases hdelete
      obtain ⟨front, binding, behind, hbindings, hfront, hname, hfirst, herased⟩ :=
        Scope.exists_erase hbound
      refine ⟨rfl, .of_differsAt target (.of_modify (fun _ => rfl) fun _ => Scope.others_erase) rfl,
        front, binding, behind, hbindings, hfront, hname, fun unused => ?_, ?_⟩
      · simp only [haccess, Slot.read, hfirst]
      · rw [State.graph_modifyScope, ScopeGraph.get_modify, if_pos ⟨rfl, there⟩, herased]

end Slot

/-! ## Whole operations -/

/-- A slot operation that fails before or after its arguments are evaluated changes nothing. -/
theorem Call.slot_failed {evaluate : Evaluator} {self : EngineId} {op : SlotOp}
    {arguments : List Expression} {state after : State} {failure : Failure}
    (failed : Call.slot evaluate self op arguments state = .failed failure after) :
    after = state ∨ (evaluate.all self arguments state).state? = some after := by
  unfold Call.slot at failed
  split at failed
  · cases failed
    exact Or.inl rfl
  · right
    rcases Action.bind_eq_failed.1 failed with hfailed | ⟨values, between, hdone, hfailed⟩
    · rw [hfailed]
      rfl
    · rw [hdone, Slot.eq_of_failed hfailed]
      rfl

/-- **Slots behave like a map from numbers.**  At every moment of a run slot operations that act on
a store keep its laws, and one that is refused changes nothing.  The arguments of an operation lead
to the moment at which it acts, so one that fails has changed no more than they have. -/
theorem slots_are_a_map {state : State} (reachable : state.Reachable) :
    (∀ bound step self code point, Script.Meets bound step state self code point → ∃ pending,
      code.Fits FrameSound pending ∧
        Moment.Leads ⟨[], Script.main, state⟩ ⟨pending, self, point⟩) ∧
    ∀ moment, Moment.Leads ⟨[], Script.main, state⟩ moment →
      (∀ self store, moment.state.slotStore? self = some store →
        Slot.Laws self store moment.state) ∧
      (∀ self op index value failure after,
        Slot.access self op index value moment.state = .failed failure after →
          after = moment.state) ∧
      ∀ bound op arguments, (∀ argument ∈ arguments, argument.Throughout Law.sound) →
        let evaluated := Evaluator.all (evaluate bound) moment.self arguments moment.state
        evaluated.Leaves (fun after => moment.Leads ⟨moment.pending, moment.self, after⟩) ∧
        ∀ failure after,
          Call.slot (evaluate bound) moment.self op arguments moment.state = .failed failure after →
            after = moment.state ∨ evaluated.state? = some after := by
  refine ⟨fun _ _ _ _ _ meets => Moment.leads_of_meets reachable.sound meets,
    fun moment hleads => ?_⟩
  have hmoment := hleads.instanced reachable.instanced reachable.sound
  refine ⟨fun self store target => ?_, fun _ _ _ _ _ _ => Slot.eq_of_failed, ?_⟩
  · obtain ⟨ref, -, hstore⟩ := Option.bind_eq_some_iff.1 target
    exact Slot.laws (hmoment.1.lt (Or.inl hstore)) target
  · intro bound op arguments _
    exact ⟨Moment.leads_of_arguments hmoment.2 bound arguments, fun _ _ => Call.slot_failed⟩

/-- A slot with a negative number in a block that is running, as an instance: it can be written, and
is read from then on. -/
theorem slots_are_a_map_of_call :
    ∃ state point after : State, state.Reachable ∧
      (∃ code, Script.Meets 20 .run state Script.main code point) ∧
      point.slotStore? Script.main = some 1 ∧ Slot.Laws Script.main 1 point ∧
      Slot.access Script.main .write (-1) 7 point = .done 7 after ∧
      Slot.access Script.main .read (-1) 0 after = .done 7 after := by
  let start := State.initial {} {} (.prepared []) "main.bir"
    "cell [] { init { let count = 0 } return count } cell()"
  let writes : State → EngineId → Bool := fun state self =>
    match Slot.access self .write (-1) 7 state with
    | .done _ _ => true
    | _ => false
  let watch : Watch := fun self _ state =>
    decide (self = Script.main ∧ state.slotStore? self = some 1 ∧ writes state self = true)
  have hstops : ((Script.perform 20 .load start).state?.map fun state =>
      (Script.performUnder watch 20 .run state).isStopped) = some true := by decide +kernel
  obtain ⟨state, hstate, hstopped⟩ := Option.map_eq_some_iff.1 hstops
  have hreachable : state.Reachable := .performed (.initial ..) hstate
  obtain ⟨self, code, point, hwatch, hmeets⟩ := Script.exists_meets hreachable.sound hstopped
  obtain ⟨rfl, htarget, hwrites⟩ := of_decide_eq_true hwatch
  obtain ⟨hcomes, hall⟩ := slots_are_a_map hreachable
  obtain ⟨pending, -, hleads⟩ := hcomes _ _ _ _ _ hmeets
  have hlaws := (hall _ hleads).1 Script.main 1 htarget
  cases hwrite : Slot.access Script.main .write (-1) 7 point with
  | done result after =>
      obtain ⟨rfl, -, hread⟩ := hlaws.write hwrite
      exact ⟨state, point, after, hreachable, ⟨code, hmeets⟩, htarget, hlaws, hwrite, hread 0⟩
  | failed failure after => simp [writes, hwrite] at hwrites
  | exhausted => simp [writes, hwrite] at hwrites

end Bir
