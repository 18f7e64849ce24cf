import Bir.Proofs.Bindings.Evolution
import Bir.Proofs.Slots

/-!
# Seeding — what a populate leaves in a store

A populate puts its values behind all that the store holds already, and asks about no name.  So a
slot that was there before stays the one that is found.  This file defines:

* `Slot.Constant` — a slot that is read as a value and refuses writes;
* `Moment.Seeds` — what a declaration with a populate comes to.

`populate_seeds_missing_slots` is the result, and `populate_is_hidden_by_init` has a slot that was
there before.
-/

namespace Bir

/-! ## Seeded scopes -/

namespace Declaration

variable {values : List Int64} {scope : Scope}

theorem name_ne_indexName (index : Int64) : Slot.name index ≠ indexName := by
  intro h
  have hlist := congrArg String.toList h
  simp [Slot.name, indexName, String.toList_append] at hlist

/-- Among the slots that are seeded, the first of a number is the one in its place. -/
theorem find?_seededSlots {index : Int64} {place : Nat} (number : index.toInt = place)
    {value : Int64} (hvalue : values[place]? = some value) :
    (seededSlots values).find? (fun binding => binding.name == Slot.name index) =
      some ⟨Slot.name index, value, .const⟩ := by
  have hindex : Int64.ofNat place = index := by
    rw [← Int64.ofInt_eq_ofNat, ← number, Int64.ofInt_toInt]
  have hplace : place < 2 ^ 63 := by
    have hlt := index.toInt_lt
    omega
  -- From any place on, what stands before the number has a smaller number.
  have hfrom : ∀ (rest : List Int64) (start : Nat), start ≤ place → rest[place - start]? = some value →
      (rest.zipIdx start).find? (fun pair => Slot.name (Int64.ofNat pair.2) == Slot.name index) =
        some (value, place) := by
    intro rest
    induction rest with
    | nil => simp
    | cons first rest ih =>
        intro start hstart hrest
        rcases Nat.eq_or_lt_of_le hstart with rfl | hlt
        · rw [Nat.sub_self, List.getElem?_cons_zero, Option.some.injEq] at hrest
          rw [List.zipIdx_cons, List.find?_cons_of_pos (by simp [hindex]), hrest]
        · have hother : Slot.name (Int64.ofNat start) ≠ Slot.name index := by
            refine Slot.name_ne fun heq => ?_
            have hnumber := congrArg Int64.toInt heq
            rw [Int64.toInt_ofNat_of_lt (Nat.lt_trans hlt hplace), number] at hnumber
            omega
          rw [List.zipIdx_cons, List.find?_cons_of_neg (by simpa using hother)]
          have hnext : place - start = place - (start + 1) + 1 := by omega
          rw [hnext, List.getElem?_cons_succ] at hrest
          exact ih (start + 1) hlt hrest
  rw [seededSlots, List.find?_map, Option.map_eq_some_iff]
  exact ⟨(value, place), hfrom values 0 (Nat.zero_le place) hvalue, by simp [hindex]⟩

theorem binding?_seed (index : Int64) :
    (seed values scope).binding? (Slot.name index) =
      (scope.binding? (Slot.name index)).or
        ((seededSlots values).find? fun binding => binding.name == Slot.name index) := by
  have hother : (seed values scope).others indexName =
      { scope with bindings := scope.bindings ++ seededSlots values : Scope }.others indexName :=
    Scope.others_overwrite
  exact (Scope.binding?_of_others hother (name_ne_indexName index)).trans List.find?_append

theorem value_of_binding?_seed {binding : Binding}
    (found : (seed values scope).binding? indexName = some binding) :
    binding.value = Int64.ofNat values.length := by
  rw [seed, Scope.binding?_overwrite, Option.map_eq_some_iff] at found
  obtain ⟨before, -, rfl⟩ := found
  rfl

end Declaration

/-! ## Constant slots -/

namespace Slot

variable {state : State} {store : ScopeId} {index value : Int64}

/-- A slot of a store is a constant: it is read as a value, and writes to it are refused for that. -/
structure Constant (store : ScopeId) (index value : Int64) (state : State) : Prop where
  binding : (state.graph.get store).binding? (name index) = some ⟨name index, value, .const⟩
  read : ∀ block, Slot.read block store (name index) state = .done value state
  write : ∀ other, Slot.write store (name index) other state =
    .failed (.ofCause (.constReassignment (name index))) state

theorem constant_of_binding?
    (h : (state.graph.get store).binding? (name index) = some ⟨name index, value, .const⟩) :
    Constant store index value state := by
  refine ⟨h, fun block => by simp [Slot.read, h], fun other => ?_⟩
  have hbound : (state.graph.get store).binds (name index) = true := Scope.binds_eq_true.2 ⟨_, h⟩
  have hdenial : (state.graph.get store).denial? (name index) = some .deniedConst := by
    simp [Scope.denial?, h]
  have hupdate := ScopeGraph.update_eq_of_binds hbound other
  rw [hdenial] at hupdate
  simp [Slot.write, hbound, State.updateBinding, State.updateGraph_eq, hupdate]

/-- What the values of a populate have done to the store of a block. -/
structure Seeded (store : ScopeId) (values : List Int64) (before after : State) : Prop where
  /-- A slot that was not there is a constant. -/
  missing : ∀ {index : Int64} {place : Nat} {value : Int64}, index.toInt = place →
    values[place]? = some value → (before.graph.get store).binding? (name index) = none →
      Constant store index value after
  /-- A slot that was there is found as it was. -/
  found : ∀ {index : Int64} {binding : Binding},
    (before.graph.get store).binding? (name index) = some binding →
      (after.graph.get store).binding? (name index) = some binding
  /-- An `index` of the store tells how many values there are. -/
  count : ∀ {binding : Binding},
    (after.graph.get store).binding? Declaration.indexName = some binding →
      binding.value = Int64.ofNat values.length
  elsewhere : ∀ id ≠ store, (after.graph.get id).bindings = (before.graph.get id).bindings

/-- A graph whose store has the bindings of a seeded one is seeded. -/
theorem Seeded.of_bindings {values : List Int64} {before after : State}
    (bindings : (after.graph.get store).bindings =
      (Declaration.seed values (before.graph.get store)).bindings)
    (elsewhere : ∀ id ≠ store, (after.graph.get id).bindings = (before.graph.get id).bindings) :
    Seeded store values before after := by
  have hbinding : ∀ name, (after.graph.get store).binding? name =
      (Declaration.seed values (before.graph.get store)).binding? name := fun name => by
    rw [Scope.binding?, bindings, Scope.binding?]
  refine ⟨fun number hvalue hmissing => ?_, fun hfound => ?_, fun hcount => ?_, elsewhere⟩
  · refine constant_of_binding? ?_
    rw [hbinding, Declaration.binding?_seed, hmissing, Option.none_or,
      Declaration.find?_seededSlots number hvalue]
  · rw [hbinding, Declaration.binding?_seed, hfound, Option.some_or]
  · exact Declaration.value_of_binding?_seed ((hbinding _).symm.trans hcount)

end Slot

/-! ## Declarations -/

namespace Declaration

/-- The store of a block with its slots seeded, which is made if there is none. -/
def seedStore (scope : ScopeId) (made : Option ScopeId) (values : List Int64) (state : State) :
    State × ScopeId :=
  match made with
  | some store => (state.modifyScope store (seed values), store)
  | none =>
    let (state, store) := state.addScope { parents := [scope] }
    (state.modifyScope store (seed values), store)

/-- A declaration with a populate that ends well has run the `init` section of the parent, then
evaluated the values, then seeded the store and last marked the block. -/
theorem implementing_eq_done {evaluate : Evaluator} {run : Runner} {self : EngineId}
    {name parent : Identifier} {source : Populate} {state after : State}
    (h : implementing evaluate run self name parent (some source) state = .done () after) :
    ∃ found made begun values before,
      state.graph.findBlock? (state.currentScope self) parent.name = some found ∧
      (state.graph.get (state.currentScope self)).declares name.name = false ∧
      runInit run self (state.nextBlock self) name.name (state.graph.block found.block).init?
        (state.modifyScope (state.currentScope self) fun scope =>
          scope.addBlock (.implementing self name.name (state.graph.block found.block))) =
            .done made begun ∧
      populateValues evaluate self source begun = .done values before ∧
      let seeded := seedStore (state.currentScope self) made values before
      after = seeded.1.modifyGraph fun graph =>
        graph.markInitialized (state.currentScope self) name.name (some seeded.2) := by
  unfold implementing at h
  simp only at h
  split at h
  · cases h
  · rename_i found hfound
    split at h
    · cases h
    · rename_i hmissing
      obtain ⟨ref, _, hadd, h⟩ := Action.bind_eq_done.1 h
      cases hadd
      obtain ⟨made, begun, hinit, h⟩ := Action.bind_eq_done.1 h
      obtain ⟨store, last, hpopulate, hfinish⟩ := Action.bind_eq_done.1 h
      cases hfinish
      obtain ⟨values, before, hvalues, hseed⟩ := Action.bind_eq_done.1 hpopulate
      refine ⟨found, made, begun, values, before, hfound, by simpa using hmissing, hinit, hvalues, ?_⟩
      cases made with
      | some store =>
          cases hseed
          rfl
      | none =>
          cases hseed
          rfl

end Declaration

/-- What a declaration with a populate comes to that is made at a moment and ends well.  The new
block has a store of its own.  The values are evaluated when the `init` section has run, and go to
the store after that. -/
structure Moment.Populates (moment : Moment) (bound : Nat) (name parent : String) (source : Populate)
    (store : ScopeId) (values : List Int64) (after : State) : Prop where
  own : (after.graph.block (moment.state.nextBlock moment.self)).store = some store
  /-- No other block has the store. -/
  alone : ∀ ref, (after.graph.block ref).store = some store →
    ref = moment.state.nextBlock moment.self
  seeded : ∃ made begun before,
    moment.Leads ⟨.block (moment.state.nextBlock moment.self) name made :: moment.pending,
      moment.self, begun⟩ ∧
    Declaration.populateValues (evaluate bound) moment.self source begun = .done values before ∧
    Slot.Seeded store values before after ∧
    ∀ found, moment.state.graph.findBlock? (moment.state.currentScope moment.self) parent = some found →
      -- The store of the parent is as it was, and without an `init` section nothing is in the new one.
      (∀ other, (after.graph.block found.block).store = some other →
        (after.graph.get other).bindings = (before.graph.get other).bindings) ∧
      ((moment.state.graph.block found.block).init? = none → (before.graph.get store).bindings = [])

/-- What is seeded for a block that is being declared, and the last mark of the declaration. -/
theorem Slot.Seeded.of_seedStore {made : Option ScopeId} (values : List Int64) {before : State}
    {ref : BlockRef} {name : String} (there : ∀ store ∈ made, store < before.graph.scopes.size)
    (declares : before.graph.Declares ref name) :
    let seeded := Declaration.seedStore ref.scope made values before
    let after := seeded.1.modifyGraph fun graph =>
      graph.markInitialized ref.scope name (some seeded.2)
    Slot.Seeded seeded.2 values before after ∧ (after.graph.block ref).store = some seeded.2 := by
  intro seeded after
  -- The bindings before the mark are those of the scopes there were, and the store is seeded.
  have hbindings : ∀ id, (seeded.1.graph.get id).bindings =
      if id = seeded.2 then (Declaration.seed values (before.graph.get id)).bindings
      else (before.graph.get id).bindings := by
    intro id
    cases made with
    | some store =>
        simp only [seeded, Declaration.seedStore, State.graph_modifyScope, ScopeGraph.get_modify]
        by_cases hid : id = store
        · simp [hid, there store rfl]
        · simp [hid, Ne.symm hid]
    | none =>
        simp only [seeded, Declaration.seedStore, State.graph_modifyScope, State.addScope_snd,
          State.graph_addScope, ScopeGraph.get_modify, ScopeGraph.get_add, ScopeGraph.size_add]
        by_cases hid : id = before.graph.scopes.size
        · subst hid
          rw [before.graph.get_of_size_le (Nat.le_refl _)]
          simp
          rfl
        · simp [hid, Ne.symm hid]
  have hmarked : ∀ id, (after.graph.get id).bindings = (seeded.1.graph.get id).bindings :=
    fun id => ScopeGraph.bindings_markInitialized _ ref.scope id name _
  refine ⟨.of_bindings ?_ fun id hid => ?_, ?_⟩
  · rw [hmarked, hbindings, if_pos rfl]
  · rw [hmarked, hbindings, if_neg hid]
  · have hdeclares : seeded.1.graph.Declares ref name := by
      cases made with
      | some store => exact declares.modify store fun _ => rfl
      | none => exact (declares.add rfl).modify _ fun _ => rfl
    rw [State.graph_modifyGraph, hdeclares.markInitialized, hdeclares.block_modifyBlock]

/-- A block that is found is not the next one that is declared. -/
theorem nextBlock_ne_of_findBlock? {state : State} {self : EngineId} {scope : ScopeId} {name : String}
    {found : FoundBlock} (h : state.graph.findBlock? scope name = some found) :
    found.block ≠ state.nextBlock self := by
  intro hnext
  have hindex := (state.graph.findBlock?_eq_some h).2.1
  obtain ⟨hlt, -⟩ := List.findIdx?_eq_some_iff_getElem.1 hindex
  rw [hnext] at hlt
  exact Nat.lt_irrefl _ hlt

/-- A declaration with a populate that ends well, made by sound code. -/
theorem Declaration.populates {pending : List Bracket} [Framed pending] {self : EngineId}
    {state after : State} (instanced : Moment.Instanced ⟨pending, self, state⟩) (sound : state.Sound)
    {bound : Nat} {name parent : Identifier} {source : Populate} {position : Position}
    (allowed : (@Statement.implementing name parent (some source) position).Sound)
    (done : implementing (evaluate bound) (execute bound) self name parent (some source) state =
      .done () after) :
    ∃ store values, Moment.Populates ⟨pending, self, state⟩ bound name.name parent.name source store
      values after := by
  let D := Moment.leading ⟨pending, self, state⟩
  have knot := D.regimen.knot_silent bound
  have hstart : D.holds ⟨pending, self, state⟩ := ⟨.refl, sound⟩
  have hinstanced : ∀ {moment}, D.holds moment → moment.Instanced := fun h =>
    (h.1.instanced instanced sound).1
  obtain ⟨found, made, begun, values, before, hfound, hmissing, hinit, hvalues, hdone⟩ :=
    implementing_eq_done done
  have hallowed : D.regimen.statement bound (frames pending) self
      (@Statement.implementing name parent (some source) position) := allowed
  have hopen := D.move hstart (.openImplementing allowed hfound hmissing)
  -- The section leaves a moment at which the declaration goes on, and so do the values.
  have hbegun : D.holds ⟨.block (state.nextBlock self) name.name made :: pending, self, begun⟩ := by
    have hruns := knot.runInit hopen fun room =>
      Regimen.implementing_inits hallowed hstart found.block room
    rw [State.nextBlock] at hinit
    rw [hinit] at hruns
    exact hruns
  have hbefore : D.holds ⟨.block (state.nextBlock self) name.name made :: pending, self, before⟩ := by
    have hkeeps : D.regimen.Keeps (.block (state.nextBlock self) name.name made :: pending) self
        (populateValues (evaluate bound) self source) :=
      knot.populateValues fun expression hmem => D.regimen.part hallowed hmem
    have hvalued := hkeeps begun hbegun
    rw [hvalues] at hvalued
    exact hvalued
  have hdeclares : before.graph.Declares (state.nextBlock self) name.name :=
    (hinstanced hbefore).nested.declares _ List.mem_cons_self
  have hthere : ∀ store ∈ made, store < before.graph.scopes.size := by
    rintro store rfl
    exact (hinstanced hbefore).lt (Or.inr ⟨name.name, List.mem_cons_self⟩)
  let store := (seedStore (state.currentScope self) made values before).2
  obtain ⟨hseeded, hown⟩ : Slot.Seeded store values before after ∧
      (after.graph.block (state.nextBlock self)).store = some store := by
    rw [hdone]
    exact Slot.Seeded.of_seedStore values hthere hdeclares
  -- The last move marks the block, and its store has no other owner then.
  have hafter : D.holds ⟨pending, self, after⟩ := by
    rw [hdone]
    cases made with
    | some store => exact D.move hbefore (.closeSeeded values)
    | none => exact D.move (D.move hbefore .makeStore) (.closeSeeded values)
  have halone : ∀ ref, (after.graph.block ref).store = some store → ref = state.nextBlock self :=
    fun ref hstore => (hinstanced hafter).isPrivate.distinct hstore hown
  refine ⟨store, values, hown, halone, made, begun, before, hbegun.1, hvalues, hseeded, ?_⟩
  intro found' hfound'
  obtain rfl : found = found' := Option.some.inj (hfound.symm.trans hfound')
  refine ⟨fun other hother => hseeded.elsewhere other ?_, fun hnone => ?_⟩
  · rintro rfl
    exact nextBlock_ne_of_findBlock? hfound (halone _ hother)
  · rw [hnone] at hinit
    cases hinit
    exact congrArg Scope.bindings (before.graph.get_of_size_le (Nat.le_refl _))

/-- **A populate seeds what is not there yet.**  The frames that a step comes to are met where
statements are run, and from there statements lead on.  Wherever a run declares a block with a
populate and the declaration ends well, the new block has a store of its own.  Of the slots with the
numbers of the values, each that is not in the store by then is a constant with its value, and each
that is stays the one that is found.  An `index` of the store tells the number of values, and no
other scope gets other bindings. -/
theorem populate_seeds_missing_slots {state : State} (reachable : state.Reachable) :
    (∀ bound step self code point, Script.Meets bound step state self code point → ∃ pending,
      code.Fits FrameSound pending ∧
        Moment.Leads ⟨[], Script.main, state⟩ ⟨pending, self, point⟩) ∧
    ∀ moment, Moment.Leads ⟨[], Script.main, state⟩ moment → Framed moment.pending →
      moment.GoesOn ∧ ∀ bound turns name parent source position,
        (@Statement.implementing name parent (some source) position).Sound →
        ∀ flow after, Evaluation.statement (evaluate bound) (execute bound) turns moment.self
            (@Statement.implementing name parent (some source) position) moment.state =
              .done flow after →
          ∃ store values, moment.Populates bound name.name parent.name source store values after := by
  refine ⟨fun _ _ _ _ _ meets => Moment.leads_of_meets reachable.sound meets, ?_⟩
  intro moment hleads framed
  have hmoment := hleads.instanced reachable.instanced reachable.sound
  refine ⟨.of_sound hmoment.2, ?_⟩
  intro bound turns name parent source position hsound flow after hdeclared
  obtain ⟨_, last, himplementing, hlast⟩ := Action.bind_eq_done.1 hdeclared
  cases hlast
  exact Declaration.populates hmoment.1 hmoment.2 hsound himplementing

/-- A text that implements a block without an `init` section, as an instance: its characters are
constants. -/
theorem populate_seeds_missing_slots_of_text :
    ∃ (state after : State) (store : ScopeId), state.Reachable ∧
      (after.graph.block ⟨0, 2⟩).store = some store ∧ Slot.Constant store 0 65 after ∧
        Slot.Constant store 1 66 after := by
  let start := State.initial {} {} (.prepared []) "main.bir" "text [i] { return $read(i) }"
  let greeting : Statement := @Statement.implementing ⟨"greeting", false, ⟨2, 1⟩⟩
    ⟨"text", false, ⟨2, 21⟩⟩ (some (.string "AB")) ⟨2, 1⟩
  have hsound : greeting.Sound := by
    refine .intro ?_ (List.forall_mem_singleton.2 rfl)
      (by simp [greeting, Statement.expressions, Populate.expressions])
      (by simp [greeting, Statement.bodies])
    have hnames : ∀ name ∈ greeting.names,
        ScopeGraph.unmarked name.name = name.name ∧ name.position.isSynthetic = false := by
      decide +kernel
    exact hnames
  let declares : State → Bool := fun state =>
    ((Evaluation.statement (evaluate 20) (execute 20) 20 Script.main greeting state).result?.bind
      Except.toOption).isSome
  have hloads : ((Script.perform 20 .load start).state?).isSome = true := by decide +kernel
  obtain ⟨loaded, hloaded⟩ := Option.isSome_iff_exists.1 hloads
  have hfacts : ((Script.perform 20 .load start).state?.bind fun loaded =>
      (Script.perform 20 .run loaded).state?.map fun state =>
        (declares state, state.nextBlock Script.main,
          (state.graph.findBlock? (state.currentScope Script.main) "text").map fun found =>
            (state.graph.block found.block).init?.isNone)) =
        some (true, ⟨0, 2⟩, some true) := by decide +kernel
  rw [hloaded, Option.bind_some, Option.map_eq_some_iff] at hfacts
  obtain ⟨state, hstate, hfacts⟩ := hfacts
  simp only [Prod.mk.injEq, Option.map_eq_some_iff] at hfacts
  obtain ⟨hdeclares, hnext, found, hfound, hinit⟩ := hfacts
  have hreachable : state.Reachable := .performed (.performed (.initial ..) hloaded) hstate
  cases hdeclared : Evaluation.statement (evaluate 20) (execute 20) 20 Script.main greeting state with
  | failed failure after => simp [declares, hdeclared, Outcome.result?, Except.toOption] at hdeclares
  | exhausted => simp [declares, hdeclared, Outcome.result?] at hdeclares
  | done flow after =>
      obtain ⟨-, hresult⟩ := (populate_seeds_missing_slots hreachable).2 _ .refl .rest
      obtain ⟨store, values, hpopulates⟩ := hresult 20 20 _ _ _ _ hsound flow after hdeclared
      obtain ⟨made, begun, before, -, hvalues, hseeded, hparent⟩ := hpopulates.seeded
      have hempty := (hparent found hfound).2 (by simpa using hinit)
      have hmissing : ∀ index, (before.graph.get store).binding? (Slot.name index) = none := by
        simp [Scope.binding?, hempty]
      obtain rfl : values = [65, 66] := by
        cases hvalues
        rfl
      have hown := hpopulates.own
      rw [hnext] at hown
      have hfirst : (0 : Int64).toInt = (0 : Nat) := rfl
      have hsecond : (1 : Int64).toInt = (1 : Nat) := rfl
      exact ⟨state, after, store, hreachable, hown, hseeded.missing hfirst rfl (hmissing 0),
        hseeded.missing hsecond rfl (hmissing 1)⟩

/-- The slot that `init` has made hides the one that is seeded behind it: reading it does not find
the value of the populate, and it is no constant. -/
theorem populate_is_hidden_by_init :
    ∃ (state after : State) (store : ScopeId), state.Reachable ∧
      Evaluation.statement (evaluate 20) (execute 20) 20 Script.main
        (@Statement.implementing ⟨"c", false, ⟨2, 1⟩⟩ ⟨"b", false, ⟨2, 14⟩⟩
          (some (.array [.integer 5 ⟨2, 19⟩])) ⟨2, 1⟩) state = .done .next after ∧
      (after.graph.block ⟨0, 2⟩).store = some store ∧
      (∀ block, Slot.read block store (Slot.name 0) after = .done 7 after) ∧
      ¬ Slot.Constant store 0 5 after := by
  let start := State.initial {} {} (.prepared []) "main.bir"
    "b[] { init { $write(0, 7) } return $read(0) }"
  let declared : State → Outcome Evaluation.Flow := Evaluation.statement (evaluate 20) (execute 20) 20
    Script.main (@Statement.implementing ⟨"c", false, ⟨2, 1⟩⟩ ⟨"b", false, ⟨2, 14⟩⟩
      (some (.array [.integer 5 ⟨2, 19⟩])) ⟨2, 1⟩)
  have hloads : ((Script.perform 20 .load start).state?).isSome = true := by decide +kernel
  obtain ⟨loaded, hloaded⟩ := Option.isSome_iff_exists.1 hloads
  have hfacts : ((Script.perform 20 .load start).state?.bind fun loaded =>
      (Script.perform 20 .run loaded).state?.bind fun state =>
        match declared state with
        | .done .next after => some ((after.graph.block ⟨0, 2⟩).store,
            (after.graph.get 2).binding? (Slot.name 0))
        | _ => none) =
        some (some 2, some ⟨Slot.name 0, 7, .let⟩) := by decide +kernel
  rw [hloaded, Option.bind_some, Option.bind_eq_some_iff] at hfacts
  obtain ⟨state, hstate, hfacts⟩ := hfacts
  have hreachable : state.Reachable := .performed (.performed (.initial ..) hloaded) hstate
  split at hfacts
  · rename_i after hdeclared
    simp only [Option.some.injEq, Prod.mk.injEq] at hfacts
    obtain ⟨hstore, hbinding⟩ := hfacts
    refine ⟨state, after, 2, hreachable, hdeclared, hstore, fun block => ?_, fun hconstant => ?_⟩
    · simp [Slot.read, hbinding]
    · have hother := hbinding.symm.trans hconstant.binding
      simp at hother
  · cases hfacts

end Bir
