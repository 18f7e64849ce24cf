import Bir.Proofs.Walks

/-!
# Removals — what a deletion takes out of a graph

A deletion is a walk of its own: it goes through scopes as a lookup does, takes out the first
binding of the name that it comes to, and ends there.  This file defines:

* `Scope.Parts` — the bindings of a scope before and behind the first one of a name;
* `ScopeGraph.Removed` — what a graph has become when one binding was taken out of one scope.

`deletions_remove_what_lookups_find` puts a deletion and a lookup beside the walk that both of them
make: where the walk meets scopes, the first one loses the binding that the lookup has read, and
otherwise nothing happens.
-/

namespace Bir

namespace Scope

variable {scope : Scope} {name : String} {before behind : List Binding} {binding : Binding}

/-- A binding is the first one of its name in a scope, and others stand before and behind it. -/
structure Parts (scope : Scope) (before : List Binding) (binding : Binding)
    (behind : List Binding) : Prop where
  bindings : scope.bindings = before ++ binding :: behind
  first : ∀ other ∈ before, other.name ≠ binding.name

/-- The binding that a name stands for has bindings of other names before it. -/
theorem exists_parts (h : scope.binding? name = some binding) :
    binding.name = name ∧ ∃ before behind, scope.Parts before binding behind := by
  obtain ⟨hname, before, behind, hbindings, hbefore⟩ := List.find?_eq_some_iff_append.1 h
  have hname : binding.name = name := by simpa using hname
  refine ⟨hname, before, behind, hbindings, fun other hmem => ?_⟩
  simpa [hname] using hbefore other hmem

/-- What stands before and behind the first binding of a name is left where that is removed. -/
theorem Parts.erase (h : scope.Parts before binding behind) :
    scope.erase binding.name = { scope with bindings := before ++ behind } := by
  have hbefore : ∀ other ∈ before, ¬(other.name == binding.name) = true :=
    fun other hmem => by simpa using h.first other hmem
  simp [Scope.erase, h.bindings, List.eraseP_append_right _ hbefore]

end Scope

namespace ScopeGraph

variable {graph : ScopeGraph}

/-- The first binding of its name was taken out of a scope, and nothing else happened: all other
bindings of that scope stand as they did, and so do all other scopes. -/
structure Removed (graph : ScopeGraph) (holder : ScopeId) (binding : Binding)
    (after : ScopeGraph) : Prop where
  size : after.scopes.size = graph.scopes.size
  taken : ∃ before behind, (graph.get holder).Parts before binding behind ∧
    after.get holder = { graph.get holder with bindings := before ++ behind }
  others : ∀ id ≠ holder, after.get id = graph.get id

/-- To remove the binding that a name stands for in a scope is to take it out. -/
theorem removed_modify {holder : ScopeId} {name : String} {binding : Binding}
    (h : (graph.get holder).binding? name = some binding) :
    graph.Removed holder binding (graph.modify holder fun scope => scope.erase name) := by
  obtain ⟨rfl, before, behind, hparts⟩ := Scope.exists_parts h
  have hlt : holder < graph.scopes.size := graph.binds_lt (Scope.binds_eq_true.2 ⟨binding, h⟩)
  refine ⟨graph.size_modify holder _, ⟨before, behind, hparts, ?_⟩, fun id hid => ?_⟩
  · rw [get_modify, if_pos ⟨rfl, hlt⟩, hparts.erase]
  · exact graph.get_modify_ne _ hid.symm

/-- **Exact effect of a deletion.**  In an acyclic graph, a walk from a scope that stops at the
scopes which bind a name meets some scopes `met` for certain.  Where a lookup of the name finds a
value, it is the value of the first binding of the name in the first of `met`, and a deletion takes
out just this binding of just this scope; where the lookup finds nothing, there is no scope in
`met`, and a deletion changes nothing. -/
theorem deletions_remove_what_lookups_find (acyclic : graph.Acyclic) (id : ScopeId)
    (name : String) :
    ∃ met, (∀ other, graph.Walk (fun scope => scope.binds name) [id] other ↔ other = met) ∧
      (∀ value, graph.find? id name = some value →
        ∃ holder later binding, met = holder :: later ∧ binding.name = name ∧
          binding.value = value ∧ graph.Removed holder binding (graph.delete id name)) ∧
      (graph.find? id name = none → met = [] ∧ graph.delete id name = graph) := by
  have hwalk : graph.Walk (fun scope => scope.binds name) [id]
      (graph.holders (fun scope => scope.binds name) id) :=
    acyclic.walk_holders rfl id
  have hfind := graph.find?_eq id name
  have hdelete := graph.delete_eq id name
  rw [resolve?_eq_head?] at hdelete
  refine ⟨_, fun other => ⟨fun h => hwalk.unique h, fun h => h ▸ hwalk⟩, ?_⟩
  cases hmet : graph.holders (fun scope => scope.binds name) id with
  | nil =>
      rw [hmet] at hfind hdelete
      refine ⟨fun value hvalue => ?_, fun _ => ⟨rfl, hdelete⟩⟩
      cases hfind.symm.trans hvalue
  | cons holder later =>
      rw [hmet] at hfind hdelete hwalk
      obtain ⟨binding, hbinding⟩ :=
        Scope.binds_eq_true.1 (hwalk.holds_of_mem holder List.mem_cons_self)
      have hfound : graph.find? id name = some binding.value := by
        rw [hfind, List.head?_cons, Option.bind_some, hbinding, Option.map_some]
      refine ⟨fun value hvalue => ?_, fun hnone => ?_⟩
      · refine ⟨holder, later, binding, rfl, (Scope.exists_parts hbinding).1, ?_, ?_⟩
        · exact Option.some.inj (hfound.symm.trans hvalue)
        · exact hdelete ▸ removed_modify hbinding
      · cases hfound.symm.trans hnone

/-- A scope below two others that share a parent: the variable is bound twice there, and once more
beside it. -/
def twofold : ScopeGraph :=
  { scopes := #[
      { parents := [1, 2] },
      { parents := [3], bindings := [⟨"y", 5, .let⟩] },
      { parents := [3, 4] },
      { bindings := [⟨"y", 6, .let⟩, ⟨"x", 1, .const⟩, ⟨"x", 2, .let⟩], immutable := true },
      { bindings := [⟨"x", 3, .let⟩] }] }

theorem twofold_acyclic : twofold.Acyclic := by
  have hparents : ∀ id < 5, ∀ parent ∈ (twofold.get id).parents, id < parent := by decide
  exact .of_lt fun id parent hparent => hparents id hparent.lt parent hparent

/-- The constant is removed, although it is met twice and its scope is immutable; the variable of
its name behind it stays, and so does the one beside it. -/
theorem deletions_remove_what_lookups_find_of_twofold :
    twofold.find? 0 "x" = some 1 ∧ ∃ binding : Binding, binding.name = "x" ∧ binding.value = 1 ∧
      twofold.Removed 3 binding (twofold.delete 0 "x") := by
  obtain ⟨met, hmet, hfound, -⟩ := deletions_remove_what_lookups_find twofold_acyclic 0 "x"
  have hparents : twofold.Walk (fun scope => scope.binds "x") [1, 2] ([3] ++ ([3, 4] ++ [])) :=
    .pass rfl (.stop rfl .done) (.pass rfl (.stop rfl (.stop rfl .done)) .done)
  have hwalk : twofold.Walk (fun scope => scope.binds "x") [0] ([3, 3, 4] ++ []) :=
    .pass rfl hparents .done
  have hfind : twofold.find? 0 "x" = some 1 := by decide
  obtain ⟨holder, later, binding, hsplit, hname, hvalue, hremoved⟩ := hfound 1 hfind
  obtain ⟨rfl, -⟩ := List.cons.inj (((hmet _).1 hwalk).trans hsplit)
  exact ⟨hfind, binding, hname, hvalue, hremoved⟩

end ScopeGraph

end Bir
