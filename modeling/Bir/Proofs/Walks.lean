import Bir.Proofs.Acyclic.Graph
import Mathlib.Data.List.Induction

/-!
# Walks — which scopes a lookup meets, and what an update does to them

A walk asks scopes in order.  Where one has not what is asked for, it goes on with the parents of that
scope before the scopes behind it.  This file defines:

* `ScopeGraph.Walk graph holds ids met` — a walk over the scopes `ids` stops at the scopes `met`;
* `Scope.denial?` — why a scope that binds a name refuses a write to it;
* `ScopeGraph.Written` — what a graph has become when a value was written to some scopes.

In an acyclic graph just one walk starts from a scope, and `ScopeGraph.holders` lists what it meets.
An update writes to all of these that do not refuse it, however often it comes to them:
`updates_reach_every_holder`.
-/

namespace Bir

open Relation

/-! ## Writes to one scope -/

namespace Scope

variable {scope : Scope} {name : String} {value : Int64}

/-- Why a write to a name that a scope binds is refused, if it is: a constant is asked about before
the scope is. -/
def denial? (scope : Scope) (name : String) : Option UpdateOutcome :=
  if (scope.binding? name).map Binding.kind = some .const then some .deniedConst
  else if scope.immutable then some .deniedImmutable
  else none

theorem binds_eq_true : scope.binds name = true ↔ ∃ binding, scope.binding? name = some binding := by
  rw [← Option.isSome_iff_exists]
  simp [binds, binding?]

theorem isDenied_of_denial? {denial : UpdateOutcome} (h : scope.denial? name = some denial) :
    denial.isDenied = true := by
  unfold denial? at h
  split at h
  · cases h
    rfl
  · split at h
    · cases h
      rfl
    · cases h

section

variable {α : Type} {p : α → Bool} {f : α → α}

/-- A change of the first of some elements that leaves it one of them leaves it the first. -/
theorem findIdx_modify_findIdx (keeps : ∀ a, p (f a) = p a) (list : List α) :
    (list.modify (list.findIdx p) f).findIdx p = list.findIdx p := by
  induction list with
  | nil => rfl
  | cons first rest ih =>
      cases hfirst : p first with
      | true => simp [List.findIdx_cons, hfirst, keeps]
      | false => simpa [List.findIdx_cons, hfirst] using ih

theorem find?_modify_findIdx (keeps : ∀ a, p (f a) = p a) (list : List α) :
    (list.modify (list.findIdx p) f).find? p = (list.find? p).map f := by
  induction list with
  | nil => rfl
  | cons first rest ih =>
      cases hfirst : p first with
      | true => simp [List.findIdx_cons, hfirst, keeps]
      | false => simpa [List.findIdx_cons, hfirst] using ih

end

@[simp]
theorem binding?_overwrite :
    (scope.overwrite name value).binding? name =
      (scope.binding? name).map fun binding => { binding with value } :=
  find?_modify_findIdx (p := fun binding : Binding => binding.name == name)
    (f := fun binding : Binding => { binding with value }) (fun _ => rfl) scope.bindings

@[simp]
theorem denial?_overwrite : (scope.overwrite name value).denial? name = scope.denial? name := by
  simp only [denial?, binding?_overwrite, Option.map_map]
  rfl

/-- A value that is written twice is there once. -/
theorem overwrite_overwrite :
    (scope.overwrite name value).overwrite name value = scope.overwrite name value := by
  have hplace := findIdx_modify_findIdx (p := fun binding : Binding => binding.name == name)
    (f := fun binding : Binding => { binding with value }) (fun _ => rfl) scope.bindings
  simp only [overwrite, hplace, List.modify_modify_eq]
  rfl

end Scope

namespace ScopeGraph

variable {graph : ScopeGraph} {holds : Scope → Bool}

/-! ## Walks -/

/-- A walk over some scopes stops at others.  A scope that has what is asked for is met; where one
has not, the walk comes to its parents before it comes to the scopes behind it. -/
inductive Walk (graph : ScopeGraph) (holds : Scope → Bool) : List ScopeId → List ScopeId → Prop where
  | done : Walk graph holds [] []
  | stop {id : ScopeId} {rest met : List ScopeId} (here : holds (graph.get id) = true)
      (behind : Walk graph holds rest met) : Walk graph holds (id :: rest) (id :: met)
  | pass {id : ScopeId} {rest above met : List ScopeId} (missing : holds (graph.get id) = false)
      (parents : Walk graph holds (graph.get id).parents above)
      (behind : Walk graph holds rest met) : Walk graph holds (id :: rest) (above ++ met)

namespace Walk

variable {id : ScopeId} {ids met met' : List ScopeId}

/-- A walk meets only what has what is asked for. -/
theorem holds_of_mem (h : graph.Walk holds ids met) : ∀ id ∈ met, holds (graph.get id) = true := by
  induction h with
  | done => simp
  | stop here _ ih => exact List.forall_mem_cons.2 ⟨here, ih⟩
  | pass _ _ _ ihParents ihBehind => exact List.forall_mem_append.2 ⟨ihParents, ihBehind⟩

/-- Just one walk goes over some scopes. -/
theorem unique (h : graph.Walk holds ids met) (h' : graph.Walk holds ids met') : met' = met := by
  induction h generalizing met' with
  | done =>
      cases h'
      rfl
  | stop here _ ih =>
      cases h' with
      | stop _ behind => rw [ih behind]
      | pass missing => rw [here] at missing; cases missing
  | pass missing _ _ ihParents ihBehind =>
      cases h' with
      | stop here => rw [missing] at here; cases here
      | pass _ parents behind => rw [ihParents parents, ihBehind behind]

/-- A walk over scopes meets what the walks from each of them meet. -/
theorem flatMap {above : ScopeId → List ScopeId}
    (each : ∀ id ∈ ids, graph.Walk holds [id] (above id)) :
    graph.Walk holds ids (ids.flatMap above) := by
  induction ids with
  | nil => exact .done
  | cons id rest ih =>
      have hrest : graph.Walk holds rest (rest.flatMap above) :=
        ih fun other hmem => each other (List.mem_cons_of_mem id hmem)
      have hid : graph.Walk holds [id] (above id) := each id List.mem_cons_self
      rw [List.flatMap_cons]
      generalize above id = met at hid
      cases hid with
      | stop here behind =>
          cases behind
          exact .stop here hrest
      | pass missing parents behind =>
          cases behind
          rw [List.append_nil]
          exact .pass missing parents hrest

end Walk

/-- All scopes that a lookup is inside of, but the innermost, are there: they have parents. -/
theorem Inside.outside_lt {start id : ScopeId} {outside : List ScopeId}
    (h : graph.Inside holds start (id :: outside)) : ∀ outer ∈ outside, outer < graph.scopes.size := by
  generalize htrail : id :: outside = trail at h
  induction h generalizing id outside with
  | start =>
      cases htrail
      simp
  | enter _ _ next ih =>
      cases htrail
      exact List.forall_mem_cons.2 ⟨next.lt, ih rfl⟩

/-- A walk that may go on for as many scopes as there are is not cut short. -/
theorem Acyclic.walk_holdersWithin (h : graph.Acyclic) (nowhere : holds {} = false)
    {start id : ScopeId} {outside : List ScopeId}
    (hinside : graph.Inside holds start (id :: outside)) {depth : Nat}
    (ample : graph.scopes.size ≤ outside.length + depth) :
    graph.Walk holds [id] (graph.holdersWithin holds depth id) := by
  induction depth generalizing id outside with
  | zero =>
      -- The lookup is inside of all scopes that there are, so here is none.
      have hdistinct := h.nodup_of_inside hinside
      have hid : graph.scopes.size ≤ id := by
        by_contra hlt
        have hall : ∀ other ∈ id :: outside, other < graph.scopes.size :=
          List.forall_mem_cons.2 ⟨Nat.lt_of_not_le hlt, hinside.outside_lt⟩
        have hlength := length_le_of_nodup hdistinct hall
        simp only [List.length_cons] at hlength
        omega
      have hempty : graph.get id = {} := graph.get_of_size_le hid
      have hmissing : holds (graph.get id) = false := by rw [hempty, nowhere]
      have hparents : graph.Walk holds (graph.get id).parents [] := by
        rw [hempty]
        exact .done
      exact .pass hmissing hparents .done
  | succ depth ih =>
      cases hholds : holds (graph.get id) with
      | true =>
          simp only [holdersWithin, hholds, if_true]
          exact .stop hholds .done
      | false =>
          have hparents : graph.Walk holds (graph.get id).parents
              ((graph.get id).parents.flatMap fun parent => graph.holdersWithin holds depth parent) :=
            .flatMap fun parent hparent => ih (.enter hinside hholds hparent) (by
              simp only [List.length_cons]
              omega)
          simp only [holdersWithin, hholds, Bool.false_eq_true, if_false]
          rw [← List.append_nil (List.flatMap _ _)]
          exact .pass hholds hparents .done

theorem Acyclic.walk_holders (h : graph.Acyclic) (nowhere : holds {} = false) (id : ScopeId) :
    graph.Walk holds [id] (graph.holders holds id) :=
  h.walk_holdersWithin nowhere .start (by simp)

/-! ## Updates -/

/-- A value was written to the first binding of a name in those of some scopes that do not refuse
it, and nothing else happened. -/
structure Written (graph : ScopeGraph) (name : String) (value : Int64) (ids : List ScopeId)
    (after : ScopeGraph) : Prop where
  size : after.scopes.size = graph.scopes.size
  scopes : ∀ id, after.get id =
    if id ∈ ids ∧ (graph.get id).denial? name = none then (graph.get id).overwrite name value
    else graph.get id

/-- The outcome of writes to some scopes that bind a name: the first denial, and else a grant if
there is any scope. -/
def outcomeOf (graph : ScopeGraph) (name : String) (ids : List ScopeId) : UpdateOutcome :=
  match ids.findSome? fun id => (graph.get id).denial? name with
  | some denial => denial
  | none => if ids = [] then .unbound else .granted

/-- Where the name is bound, a write changes the scope if it is not refused, and it says so. -/
theorem write_eq {holder : ScopeId} {name : String} (value : Int64)
    (bound : (graph.get holder).binds name = true) :
    graph.write holder name value =
      match (graph.get holder).denial? name with
      | none => (graph.modify holder fun scope => scope.overwrite name value, .granted)
      | some denial => (graph, denial) := by
  obtain ⟨binding, hbinding⟩ := Scope.binds_eq_true.1 bound
  by_cases hconst : binding.kind = .const
  · simp [write, hbinding, Scope.permission, Scope.denial?, hconst, UpdateOutcome.ofPermission]
  · cases himmutable : (graph.get holder).immutable with
    | true => simp [write, hbinding, Scope.permission, Scope.denial?, hconst, himmutable,
        UpdateOutcome.ofPermission]
    | false => simp [write, hbinding, Scope.permission, Scope.denial?, hconst, himmutable]

theorem outcomeOf_eq_unbound {name : String} {ids : List ScopeId} :
    graph.outcomeOf name ids = .unbound ↔ ids = [] := by
  cases hids : ids.findSome? fun id => (graph.get id).denial? name with
  | none => simp [outcomeOf, hids]
  | some denial =>
      obtain ⟨denier, hmem, hdenier⟩ := List.exists_of_findSome?_eq_some hids
      have hdenied := Scope.isDenied_of_denial? hdenier
      simp only [outcomeOf, hids]
      constructor
      · rintro rfl
        cases hdenied
      · rintro rfl
        cases hmem

/-- Where writes are granted, there is a first scope, and it does not refuse. -/
theorem exists_head_of_granted {name : String} {ids : List ScopeId}
    (h : graph.outcomeOf name ids = .granted) :
    ∃ id, ids.head? = some id ∧ (graph.get id).denial? name = none := by
  cases ids with
  | nil => cases h
  | cons id rest =>
      refine ⟨id, rfl, ?_⟩
      cases hid : (graph.get id).denial? name with
      | none => rfl
      | some denial =>
          have hdenied := Scope.isDenied_of_denial? hid
          simp only [outcomeOf, List.findSome?_cons, hid] at h
          rw [h] at hdenied
          cases hdenied

/-- The first denial counts, and else any grant, also where one write is added to others. -/
theorem combine_outcomeOf (name : String) (ids : List ScopeId) (id : ScopeId) :
    (graph.outcomeOf name ids).combine (graph.outcomeOf name [id]) =
      graph.outcomeOf name (ids ++ [id]) := by
  cases hids : ids.findSome? fun id => (graph.get id).denial? name with
  | some denial =>
      obtain ⟨denier, -, hdenier⟩ := List.exists_of_findSome?_eq_some hids
      simp [outcomeOf, hids, UpdateOutcome.combine, Scope.isDenied_of_denial? hdenier]
  | none =>
      have hundenied : (graph.outcomeOf name ids).isDenied = false := by
        simp only [outcomeOf, hids]
        split <;> rfl
      have hmade : graph.outcomeOf name [id] ≠ .unbound := by simp [outcomeOf_eq_unbound]
      rw [UpdateOutcome.combine, if_neg (by simp [hundenied]), if_neg hmade]
      simp [outcomeOf, List.findSome?_append, hids]

namespace Written

variable {name : String} {value : Int64} {ids : List ScopeId} {after : ScopeGraph} {id : ScopeId}

theorem start : graph.Written name value [] graph where
  size := rfl
  scopes id := by simp

theorem binds_get (h : graph.Written name value ids after) (id : ScopeId) (other : String) :
    (after.get id).binds other = (graph.get id).binds other := by
  rw [h.scopes]
  split
  · exact Scope.binds_overwrite other
  · rfl

theorem denial?_get (h : graph.Written name value ids after) (id : ScopeId) :
    (after.get id).denial? name = (graph.get id).denial? name := by
  rw [h.scopes]
  split
  · exact Scope.denial?_overwrite
  · rfl

theorem parents_get (h : graph.Written name value ids after) (id : ScopeId) :
    (after.get id).parents = (graph.get id).parents := by
  rw [h.scopes]
  split <;> rfl

/-- What has been written to some scopes is written to one more, which may be one of them. -/
theorem write (h : graph.Written name value ids after) (bound : (graph.get id).binds name = true) :
    graph.Written name value (ids ++ [id]) (after.write id name value).1 ∧
      (after.write id name value).2 = graph.outcomeOf name [id] := by
  rw [write_eq value (by rw [h.binds_get, bound]), h.denial?_get]
  cases hdenial : (graph.get id).denial? name with
  | some denial =>
      refine ⟨⟨h.size, fun other => ?_⟩, by simp [outcomeOf, hdenial]⟩
      -- A scope that refuses the write is among those that do.
      rw [h.scopes]
      refine if_congr ?_ rfl rfl
      simp only [List.mem_append, List.mem_singleton]
      constructor
      · exact fun hother => ⟨Or.inl hother.1, hother.2⟩
      · rintro ⟨hmem | rfl, htaken⟩
        · exact ⟨hmem, htaken⟩
        · rw [hdenial] at htaken
          cases htaken
  | none =>
      refine ⟨⟨by rw [size_modify, h.size], fun other => ?_⟩, by simp [outcomeOf, hdenial]⟩
      have hlt : id < after.scopes.size := h.size ▸ graph.binds_lt bound
      rw [get_modify, h.scopes]
      by_cases hother : id = other
      · subst hother
        simp only [hlt, hdenial, List.mem_append, List.mem_singleton, and_true, or_true, if_true]
        split
        · exact Scope.overwrite_overwrite
        · rfl
      · simp [hother, Ne.symm hother]

end Written

/-- Writes to some scopes that bind a name, one after the other. -/
theorem write_each {name : String} (value : Int64) {ids : List ScopeId}
    (bound : ∀ id ∈ ids, (graph.get id).binds name = true) :
    let result := graph.writeEach name value ids .unbound
    graph.Written name value ids result.1 ∧ result.2 = graph.outcomeOf name ids := by
  induction ids using List.reverseRecOn with
  | nil => exact ⟨.start, rfl⟩
  | append_singleton ids id ih =>
      obtain ⟨hwritten, houtcome⟩ := ih fun other hmem => bound other (List.mem_append_left _ hmem)
      obtain ⟨hwrite, hreport⟩ := hwritten.write (bound id (by simp))
      rw [writeEach_append, writeEach_cons]
      exact ⟨hwrite, by rw [houtcome, hreport, combine_outcomeOf]; rfl⟩

/-! ## Lookups after an update -/

/-- A lookup meets the same scopes in graphs that do not differ in what it asks. -/
theorem holders_congr {after : ScopeGraph} (size : after.scopes.size = graph.scopes.size)
    (same : ∀ id, holds (after.get id) = holds (graph.get id))
    (parents : ∀ id, (after.get id).parents = (graph.get id).parents) (id : ScopeId) :
    after.holders holds id = graph.holders holds id := by
  rw [holders, holders, size]
  exact holdersWithin_congr (fun _ => True) (fun _ _ _ _ => trivial)
    (fun id _ => parents id) (fun id _ => same id) _ trivial

/-- A lookup of a name finds the first binding in the first scope that it meets. -/
theorem find?_eq (id : ScopeId) (name : String) :
    graph.find? id name =
      (graph.holders (fun scope => scope.binds name) id).head?.bind fun holder =>
        ((graph.get holder).binding? name).map Binding.value := by
  unfold find?
  rw [resolve?_eq_head?]
  cases (graph.holders (fun scope => scope.binds name) id).head? <;> rfl

/-- **Exact effect of an update.**  In an acyclic graph, a walk from a scope that stops at the scopes
which bind a name meets some scopes `met` for certain.  An update of the name writes to those of
`met` that do not refuse it and changes nothing else; the first refusal is its outcome, and else a
grant if `met` is not empty.  So a name is unbound where a lookup of it finds nothing, and the
lookup finds the value that a granted update has written. -/
theorem updates_reach_every_holder (acyclic : graph.Acyclic) (id : ScopeId) (name : String)
    (value : Int64) :
    ∃ met, (∀ other, graph.Walk (fun scope => scope.binds name) [id] other ↔ other = met) ∧
      graph.Written name value met (graph.update id name value).1 ∧
      (graph.update id name value).2 = graph.outcomeOf name met ∧
      ((graph.update id name value).2 = .unbound ↔ graph.find? id name = none) ∧
      ((graph.update id name value).2 = .granted →
        (graph.update id name value).1.find? id name = some value) := by
  have hwalk : graph.Walk (fun scope => scope.binds name) [id]
      (graph.holders (fun scope => scope.binds name) id) :=
    acyclic.walk_holders rfl id
  have hbound := hwalk.holds_of_mem
  obtain ⟨hwritten, houtcome⟩ : graph.Written name value _ (graph.update id name value).1 ∧
      (graph.update id name value).2 = graph.outcomeOf name _ := by
    rw [update_eq]
    exact write_each value hbound
  have hfind := graph.find?_eq id name
  have hafter := (graph.update id name value).1.find?_eq id name
  rw [holders_congr hwritten.size (fun id => hwritten.binds_get id name) hwritten.parents_get]
    at hafter
  refine ⟨_, fun other => ⟨fun h => hwalk.unique h, fun h => h ▸ hwalk⟩, hwritten, houtcome, ?_, ?_⟩
  · rw [houtcome, outcomeOf_eq_unbound, hfind, Option.bind_eq_none_iff]
    constructor
    · intro hnone holder hholder
      rw [hnone] at hholder
      cases hholder
    · intro hnone
      cases hmet : graph.holders (fun scope => scope.binds name) id with
      | nil => rfl
      | cons holder rest =>
          rw [hmet] at hbound hnone
          obtain ⟨binding, hbinding⟩ := Scope.binds_eq_true.1 (hbound holder List.mem_cons_self)
          have hvalue := hnone holder rfl
          rw [hbinding] at hvalue
          cases hvalue
  · intro hgranted
    rw [houtcome] at hgranted
    obtain ⟨holder, hhead, htaken⟩ := exists_head_of_granted hgranted
    have hmem := List.mem_of_mem_head? hhead
    obtain ⟨binding, hbinding⟩ := Scope.binds_eq_true.1 (hbound holder hmem)
    rw [hafter, hhead, Option.bind_some, hwritten.scopes, if_pos ⟨hmem, htaken⟩,
      Scope.binding?_overwrite, hbinding]
    rfl

/-! ## A shared ancestor -/

/-- A graph whose parents all have larger numbers is acyclic. -/
theorem Acyclic.of_lt (h : ∀ id parent, graph.Parent id parent → id < parent) : graph.Acyclic := by
  intro id hcycle
  have hlt : ∀ {ancestor}, TransGen graph.Parent id ancestor → id < ancestor := by
    intro ancestor path
    induction path with
    | single next => exact h _ _ next
    | tail _ next ih => exact Nat.lt_trans ih (h _ _ next)
  exact Nat.lt_irrefl id (hlt hcycle)

/-- A scope with two parents that share one of theirs; a variable is bound there, and a constant of
its name beside it. -/
def diamond : ScopeGraph :=
  { scopes := #[
      { parents := [1, 2] },
      { parents := [3] },
      { parents := [3, 4] },
      { bindings := [⟨"x", 1, .let⟩] },
      { bindings := [⟨"x", 2, .const⟩] }] }

theorem diamond_acyclic : diamond.Acyclic := by
  have hparents : ∀ id < 5, ∀ parent ∈ (diamond.get id).parents, id < parent := by decide
  exact .of_lt fun id parent hparent => hparents id hparent.lt parent hparent

/-- The variable is written, although it is met twice and the constant behind it refuses. -/
theorem updates_reach_every_holder_of_diamond :
    diamond.Written "x" 7 [3, 3, 4] (diamond.update 0 "x" 7).1 ∧
      (diamond.update 0 "x" 7).2 = .deniedConst := by
  obtain ⟨met, hmet, hwritten, houtcome, -⟩ := updates_reach_every_holder diamond_acyclic 0 "x" 7
  have hparents : diamond.Walk (fun scope => scope.binds "x") [1, 2] ([3] ++ ([3, 4] ++ [])) :=
    .pass rfl (.stop rfl .done) (.pass rfl (.stop rfl (.stop rfl .done)) .done)
  have hwalk : diamond.Walk (fun scope => scope.binds "x") [0] ([3, 3, 4] ++ []) :=
    .pass rfl hparents .done
  rw [← (hmet _).1 hwalk] at hwritten houtcome
  exact ⟨hwritten, houtcome⟩

end ScopeGraph

end Bir
