import Bir.Proofs.Halting.Evaluation

/-!
# Halting loads — imports come to an end

A module is loaded while the files of its importers count as being loaded, and none of these is
loaded again.  As there are finitely many files, imports nest no deeper than that, and where no
source has a `while`, all main programs on the way finish.  This file defines:

* `Program.Whileless` — a text that is a program without `while`;
* `FileTree.unloaded` — how many files there are to load yet;
* `Moment.Whileless` — what is known of a run that loads such texts.
-/

namespace Bir

/-- If a text is a program, no `while` stands in it. -/
def Program.Whileless (text : String) : Prop :=
  ∀ program, Program.ofSource text = .ok program → ∀ first ∈ program.statements,
    ∀ statement ∈ first.within, statement.isWhile = false

instance (text : String) : Decidable (Program.Whileless text) :=
  match h : Program.ofSource text with
  | .error error => .isTrue fun program hprogram => by
      rw [h] at hprogram
      cases hprogram
  | .ok program =>
    decidable_of_iff (∀ first ∈ program.statements, ∀ statement ∈ first.within,
        statement.isWhile = false) <| by
      constructor
      · intro hwhile program' hprogram
        rw [h] at hprogram
        cases hprogram
        exact hwhile
      · intro hwhile
        exact hwhile program h

/-! ## Files -/

namespace FileTree

/-- How many files there are that are not being loaded. -/
def unloaded (files : FileTree) (loading : List FileIdentity) : Nat :=
  ((files.entries.map (·.1)).filter fun location => .located location ∉ loading).length

/-- A file that can be read is one of those that there are. -/
theorem mem_entries_of_read {files : FileTree} {path : Path} {text : String}
    (h : files.read path = .ok text) :
    ∃ location content, files.identity path = .located location ∧
      (location, .file content) ∈ files.entries ∧ String.fromUTF8? content = some text := by
  unfold read at h
  unfold identity
  cases hlocate : files.locate path with
  | error error => simp [hlocate] at h
  | ok location =>
      simp only [hlocate] at h
      split at h
      · cases h
      · cases h
      · cases h
      · rename_i content hcontent
        refine ⟨location, content, rfl, ?_, ?_⟩
        · unfold node? at hcontent
          split at hcontent
          · cases hcontent
          · obtain ⟨before, behind, hentries, -⟩ := List.lookup_eq_some_iff.1 hcontent
            simp [hentries]
        · split at h
          · cases h
            assumption
          · cases h

theorem unloaded_lt {files : FileTree} {path : Path} {text : String}
    (h : files.read path = .ok text) {loading : List FileIdentity}
    (fresh : files.identity path ∉ loading) :
    files.unloaded (loading ++ [files.identity path]) < files.unloaded loading := by
  obtain ⟨location, content, hidentity, hentry, -⟩ := mem_entries_of_read h
  have hmem : location ∈ files.entries.map (·.1) := List.mem_map_of_mem hentry
  rw [hidentity] at fresh ⊢
  have hfewer : ((files.entries.map (·.1)).filter fun other =>
        .located other ∉ loading ++ [.located location]).Sublist
      ((files.entries.map (·.1)).filter fun other => .located other ∉ loading) := by
    apply List.monotone_filter_right
    intro other hother
    simp only [List.mem_append, not_or, decide_eq_true_eq] at hother ⊢
    exact hother.1
  refine Nat.lt_of_le_of_ne hfewer.length_le fun hsame => ?_
  -- The file itself is one that has been unloaded and is not any more.
  have hloaded : location ∈ (files.entries.map (·.1)).filter fun other =>
      .located other ∉ loading ++ [.located location] := by
    rw [hfewer.eq_of_length hsame]
    exact List.mem_filter.2 ⟨hmem, by simpa using fresh⟩
  simpa using (List.mem_filter.1 hloaded).2

end FileTree

/-- A module that is read is the text of a file. -/
theorem Module.read_of_ok {files : FileTree} {path : Path} {name text : String}
    (h : read files path name = .ok text) : files.read path = .ok text := by
  unfold read at h
  split at h
  · rename_i text' htext
    cases h
    exact htext
  · cases h

/-! ## Rules -/

namespace Outcome.Finishes

variable {α β : Type} {good good' : α → State → Prop} {bad bad' : Failure → State → Prop}
variable {outcomes : Nat → Outcome α}

/-- What does not depend on a bound finishes unless it is cut short. -/
theorem of_within {outcome : Outcome α} (h : outcome.Within False good bad) :
    Finishes good bad fun _ => outcome :=
  ⟨0, outcome, h, fun _ _ => rfl⟩

theorem mono (h : Finishes good bad outcomes)
    (values : ∀ value state, good value state → good' value state)
    (failures : ∀ failure state, bad failure state → bad' failure state) :
    Finishes good' bad' outcomes := by
  obtain ⟨ample, result, hwithin, hsame⟩ := h
  exact ⟨ample, result, hwithin.mono values failures, hsame⟩

theorem bind {between : α → State → Prop} {good : β → State → Prop} {first : Nat → Action α}
    {next : Nat → α → Action β} {state : State}
    (hfirst : Finishes between bad fun bound => first bound state)
    (hnext : ∀ value after, between value after →
      Finishes good bad fun bound => next bound value after) :
    Finishes good bad fun bound => (first bound >>= next bound) state := by
  obtain ⟨ample, result, hwithin, hsame⟩ := hfirst
  cases result with
  | done value after =>
      -- What comes next may ask for a greater bound.
      obtain ⟨ample', result', hwithin', hsame'⟩ := hnext value after hwithin
      refine ⟨max ample ample', result', hwithin', fun bound hbound => ?_⟩
      simp only [Action.bind_apply, hsame bound (le_of_max_le_left hbound)]
      exact hsame' bound (le_of_max_le_right hbound)
  | failed failure after =>
      refine ⟨ample, .failed failure after, hwithin, fun bound hbound => ?_⟩
      simp only [Action.bind_apply, hsame bound hbound]
  | exhausted => exact hwithin.elim

/-- A first action that does not depend on a bound is done at once. -/
theorem step {good : β → State → Prop} {first : Action α} {next : Nat → α → Action β}
    {state after : State} {value : α} (hfirst : first state = .done value after)
    (hnext : Finishes good bad fun bound => next bound value after) :
    Finishes good bad fun bound => (first >>= next bound) state := by
  simpa only [Action.bind_apply, hfirst] using hnext

/-- A first action that does not depend on a bound fails. -/
theorem fails {good : β → State → Prop} {first : Action α} {next : Nat → α → Action β}
    {state after : State} {failure : Failure} (hfirst : first state = .failed failure after)
    (hbad : bad failure after) :
    Finishes good bad fun bound => (first >>= next bound) state := by
  refine ⟨0, .failed failure after, hbad, fun bound _ => ?_⟩
  simp only [Action.bind_apply, hfirst]

/-- What is made of an outcome that finishes does not depend on the bound either. -/
theorem wrap (h : Finishes good bad outcomes) {good' : β → State → Prop}
    (wraps : Outcome α → Outcome β)
    (within : ∀ outcome : Outcome α, outcome.Within False good bad →
      (wraps outcome).Within False good' bad') :
    Finishes good' bad' fun bound => wraps (outcomes bound) := by
  obtain ⟨ample, result, hwithin, hsame⟩ := h
  exact ⟨ample, wraps result, within result hwithin,
    fun bound hbound => by simp only [hsame bound hbound]⟩

/-- One level more asks for a bound that is greater by one. -/
theorem succ {deeper : Nat → Outcome α} (h : Finishes good bad outcomes)
    (same : ∀ bound, deeper (bound + 1) = outcomes bound) : Finishes good bad deeper := by
  obtain ⟨ample, result, hwithin, hsame⟩ := h
  refine ⟨ample + 1, result, hwithin, fun bound hbound => ?_⟩
  obtain ⟨less, rfl⟩ : ∃ less, bound = less + 1 := ⟨bound - 1, by omega⟩
  rw [same, hsame less (by omega)]

end Outcome.Finishes

/-! ## Sources without `while` -/

/-- The modules that a program can import have no `while`. -/
def State.LibraryWhileless (state : State) : Prop :=
  ∀ name path text, Module.resolve state.files state.config.library name = .ok path →
    state.files.read path = .ok text → Program.Whileless text

/-- If an entry is a file, no `while` stands in it. -/
def Node.Whileless : Node → Prop
  | .file content => ∀ text ∈ String.fromUTF8? content, Program.Whileless text
  | .directory => True
  | .forbidden => True

instance : (node : Node) → Decidable node.Whileless
  | .file content =>
    inferInstanceAs (Decidable (∀ text ∈ String.fromUTF8? content, Program.Whileless text))
  | .directory => .isTrue trivial
  | .forbidden => .isTrue trivial

theorem State.LibraryWhileless.of_entries {state : State}
    (h : ∀ entry ∈ state.files.entries, entry.2.Whileless) : state.LibraryWhileless := by
  intro name path text _ hread
  obtain ⟨location, content, -, hentry, htext⟩ := FileTree.mem_entries_of_read hread
  exact h _ hentry text htext

/-- What is known of a run, between main programs, whose sources have no `while`. -/
structure Moment.Whileless (moment : Moment) : Prop where
  idle : moment.state.Idle
  manned : moment.Manned
  texts : ∀ id, Program.Whileless (moment.state.engine id).content
  library : moment.state.LibraryWhileless

namespace Moment.Whileless

variable {moment moment' : Moment}

/-- What is known of the texts of all engines is known of all statements. -/
theorem statements (h : moment.Whileless) : moment.state.Whileless := by
  intro statement hmem
  obtain ⟨id, first, hfirst, hwithin⟩ := State.mem_statements.1 hmem
  rcases h.idle.read id with hempty | hread
  · rw [hempty] at hfirst
    cases hfirst
  · exact h.texts id _ hread first hfirst statement hwithin

/-- A move of loading may bring a text in that has no `while`. -/
theorem loadMove (h : moment.Whileless) (move : LoadMove moment moment')
    (opened : ∀ id, Program.Whileless (moment'.state.engine id).content) : moment'.Whileless where
  idle := h.idle.loadMove move
  manned := h.manned.loadMove move
  texts := opened
  library := by
    unfold State.LibraryWhileless
    rw [move.config, move.files]
    exact h.library

/-- A main program leaves texts and files as they are. -/
theorem of_undisturbed {pending : List Bracket} {self : EngineId} {state after : State}
    (h : Whileless ⟨pending, self, state⟩) (idle : after.Idle)
    (same : State.Undisturbed state after) : Whileless ⟨pending, self, after⟩ where
  idle := idle
  manned := h.manned.of_sameUses (.of_engines same.engines) fun _ => .inl
  texts id := by
    rw [State.engine_congr same.engines]
    exact h.texts id
  library := by
    unfold State.LibraryWhileless
    rw [same.config, same.files]
    exact h.library

end Moment.Whileless

/-! ## Loading -/

open Outcome

/-- What is left once a source is loaded or a main program has run. -/
structure State.Settled (start : State) (pending : List Bracket) (id : EngineId)
    (after : State) : Prop where
  whileless : Moment.Whileless ⟨pending, id, after⟩
  files : after.files = start.files
  loading : after.loading = start.loading

theorem State.Settled.trans {start between after : State} {pending pending' : List Bracket}
    {self self' : EngineId} (h : start.Settled pending' self' between)
    (h' : between.Settled pending self after) : start.Settled pending self after where
  whileless := h'.whileless
  files := h'.files.trans h.files
  loading := h'.loading.trans h.loading

/-- A run finishes, and leaves a settled state whether it ends well or not. -/
abbrev Outcome.Settles {α : Type} (start : State) (pending : List Bracket) (id : EngineId)
    (outcomes : Nat → Outcome α) : Prop :=
  Finishes (fun _ => start.Settled pending id) (fun _ => start.Settled pending id) outcomes

theorem Outcome.Settles.trans {α : Type} {start between : State} {pending pending' : List Bracket}
    {self self' : EngineId} {outcomes : Nat → Outcome α} (h : Settles between pending self outcomes)
    (first : start.Settled pending' self' between) : Settles start pending self outcomes :=
  h.mono (fun _ _ => first.trans) fun _ _ => first.trans

theorem runMain_settles {pending : List Bracket} {self : EngineId} {state : State}
    (h : Moment.Whileless ⟨pending, self, state⟩) :
    Settles state pending self fun bound => runMain (execute bound) self state := by
  refine (h.idle.runMain_finishes h.statements h.manned.alone).mono ?_ ?_
  · rintro _ after ⟨hidle, hsame⟩
    exact ⟨h.of_undisturbed hidle hsame, hsame.files, hsame.loading⟩
  · rintro _ after ⟨hidle, hsame⟩
    exact ⟨h.of_undisturbed hidle hsame, hsame.files, hsame.loading⟩

/-- Loads of modules finish while fewer files are left to be loaded than there are now. -/
def LoadsSettle (left : Nat) : Prop :=
  ∀ {pending self} {state : State}, Moment.Whileless ⟨pending, self, state⟩ →
    state.files.unloaded (state.loading ++ [state.files.identity (state.engine self).path]) < left →
    Settles state pending self fun bound => load bound self state

/-- A module that was opened is loaded, run and exposed. -/
theorem openedModule_settles {left : Nat} (loads : LoadsSettle left) {pending : List Bracket}
    {self module : EngineId} {state : State}
    (h : Moment.Whileless ⟨.module self :: pending, module, state⟩)
    (fewer : state.files.unloaded
      (state.loading ++ [state.files.identity (state.engine module).path]) < left)
    (name : String) :
    Settles state pending self fun bound => (do
      Loading.loadModule (load bound) name module
      runMain (execute bound) module
      Loading.expose self module : Action Unit) state := by
  have hdrop : ∀ {after : State}, state.Settled (.module self :: pending) module after →
      state.Settled pending self after := by
    intro after hafter
    have hdropped := hafter.whileless.loadMove .dropModule hafter.whileless.texts
    exact ⟨hdropped, hafter.files, hafter.loading⟩
  have hload : Finishes (fun _ => state.Settled (.module self :: pending) module)
      (fun _ => state.Settled pending self)
      fun bound => Loading.loadModule (load bound) name module state := by
    refine (loads h fewer).wrap (fun outcome => Loading.loadModule (fun _ _ => outcome) name module
      state) fun outcome hwithin => ?_
    cases outcome with
    | done value after => exact hwithin
    | failed failure after => exact hdrop hwithin
    | exhausted => exact hwithin
  refine .bind hload fun _ loaded hloaded => ?_
  have hrun := (runMain_settles hloaded.whileless).trans hloaded
  refine .bind (hrun.mono (fun _ _ h' => h') fun _ _ => hdrop) fun _ ran hran => .of_within ?_
  have hmove : LoadMove ⟨.module self :: pending, module, ran⟩
      ⟨pending, self, ran.expose self module⟩ := .expose
  have htexts : ∀ id, Program.Whileless ((ran.expose self module).engine id).content := by
    intro id
    rw [State.engine_expose_congr Engine.content (by intro _ _; rfl)]
    exact hran.whileless.texts id
  exact ⟨hran.whileless.loadMove hmove htexts, hran.files, hran.loading⟩

theorem importModule_settles {left : Nat} (loads : LoadsSettle left) {pending : List Bracket}
    {self : EngineId} {state : State} (h : Moment.Whileless ⟨pending, self, state⟩)
    (fewer : state.files.unloaded state.loading ≤ left) (name : String) :
    Settles state pending self
      fun bound => Loading.importModule (load bound) (execute bound) self name state := by
  have hsame : state.Settled pending self state := ⟨h, rfl, rfl⟩
  refine .step rfl ?_
  cases hpath : Module.resolve state.files state.config.library name with
  | error failure =>
      have hresolve : Action.ofExcept (Module.resolve state.files state.config.library name) state =
          .failed failure state := by rw [hpath]; rfl
      exact .fails hresolve hsame
  | ok path =>
      have hresolve : Action.ofExcept (Module.resolve state.files state.config.library name) state =
          .done path state := by rw [hpath]; rfl
      refine .step hresolve ?_
      by_cases hcycle : state.loading.contains (state.files.identity path) = true
      · have hrefused : Loading.refuseCycle name path state =
            Action.fail (.cyclicImport name
              (state.loading.map FileIdentity.moduleName ++ [name])) state := if_pos hcycle
        exact .fails hrefused hsame
      · have hpassed : Loading.refuseCycle name path state = .done () state := if_neg hcycle
        refine .step hpassed ?_
        cases hcontent : Module.read state.files path name with
        | error failure => exact .fails rfl hsame
        | ok content =>
            refine .step rfl (.step rfl ?_)
            have hread := Module.read_of_ok hcontent
            have hmove : LoadMove ⟨pending, self, state⟩ ⟨.module self :: pending,
                state.engines.size, (state.addEngine path content).1⟩ := .openModule path content
            have htexts : ∀ id,
                Program.Whileless ((state.addEngine path content).1.engine id).content := by
              intro id
              rw [State.engine_addEngine]
              split
              · exact h.library name path content hpath hread
              · exact h.texts id
            -- The file of the module is not being loaded, so fewer are left while it is.
            have hunloaded := FileTree.unloaded_lt hread (by simpa using hcycle)
            have hfewer : state.files.unloaded (state.loading ++ [state.files.identity
                ((state.addEngine path content).1.engine state.engines.size).path]) < left := by
              rw [State.engine_addEngine, if_pos rfl]
              exact Nat.lt_of_lt_of_le hunloaded fewer
            have hopened := openedModule_settles loads (h.loadMove hmove htexts) hfewer name
            exact hopened.mono (fun _ _ hafter => ⟨hafter.whileless, hafter.files, hafter.loading⟩)
              fun _ _ hafter => ⟨hafter.whileless, hafter.files, hafter.loading⟩

theorem importAll_settles {left : Nat} (loads : LoadsSettle left) {pending : List Bracket}
    {self : EngineId} {state : State} (h : Moment.Whileless ⟨pending, self, state⟩)
    (fewer : state.files.unloaded state.loading ≤ left) (requests : List Import) :
    Settles state pending self
      fun bound => Loading.importAll (load bound) (execute bound) self requests state := by
  induction requests generalizing state with
  | nil => exact .of_within ⟨h, rfl, rfl⟩
  | cons request rest ih =>
      have hfirst : Settles state pending self fun bound => Action.reporting self
          (Action.locate (fun _ => request.position)
            (Loading.importModule (load bound) (execute bound) self request.module)) state :=
        (importModule_settles loads h fewer request.module).wrap
          (fun outcome => Action.reporting self
            (Action.locate (fun _ => request.position) fun _ => outcome) state)
          fun outcome hwithin => Action.within_reporting (Action.within_locate hwithin)
      refine .bind hfirst fun _ after hafter => ?_
      have hfewer : after.files.unloaded after.loading ≤ left := by
        rw [hafter.files, hafter.loading]
        exact fewer
      exact (ih hafter.whileless hfewer).trans hafter

/-- Imports are loaded while the file of their importer counts as being loaded, and not after. -/
theorem imports_settles {left : Nat} (loads : LoadsSettle left) {pending : List Bracket}
    {self : EngineId} {state : State} (h : Moment.Whileless ⟨pending, self, state⟩)
    (fewer : state.files.unloaded
      (state.loading ++ [state.files.identity (state.engine self).path]) ≤ left) :
    Settles state pending self
      fun bound => Loading.imports (load bound) (execute bound) self state := by
  unfold Loading.imports
  cases hrequests : (state.engine self).program.imports with
  | nil => exact .of_within ⟨h, rfl, rfl⟩
  | cons first rest =>
      let file := state.files.identity (state.engine self).path
      have hbegin := h.loadMove (.beginImports file) h.texts
      have hend : ∀ {after : State}, State.Settled { state with loading := state.loading ++ [file] }
            (.imports self (state.engine self).program.imports :: pending) self after →
          state.Settled pending self { after with loading := after.loading.dropLast } := by
        intro after hafter
        have hended := hafter.whileless.loadMove .endImports hafter.whileless.texts
        exact ⟨hended, hafter.files, by simp [hafter.loading]⟩
      refine (importAll_settles loads hbegin fewer (first :: rest)).wrap
        (fun outcome => Loading.whileLoading self (fun _ => outcome) state) fun outcome hwithin => ?_
      cases outcome with
      | done value after => exact hend hwithin
      | failed failure after => exact hend hwithin
      | exhausted => exact hwithin

theorem load_settles (left : Nat) : LoadsSettle left := by
  induction left with
  | zero => exact fun _ hfewer => absurd hfewer (Nat.not_lt_zero _)
  | succ left ih =>
      intro pending self state h hfewer
      refine .succ ?_ fun bound => rfl
      cases hprogram : Program.ofSource (state.engine self).content with
      | error error =>
          have hunread : Loading.readProgram self state = Action.reporting self
              (.ofExcept (.error (.ofSyntaxError error))) state := by
            unfold Loading.readProgram
            rw [hprogram]
          exact .fails hunread ⟨h, rfl, rfl⟩
      | ok program =>
          have hread : Loading.readProgram self state = .done () (state.modifyEngine self
              fun engine => { engine with program }) := by
            unfold Loading.readProgram
            rw [hprogram]
          have htexts : ∀ id, Program.Whileless
              ((state.modifyEngine self fun engine => { engine with program }).engine id).content := by
            intro id
            rw [State.engine_modifyEngine_congr _ _ Engine.content (by intro _; rfl)]
            exact h.texts id
          have hloaded := (h.loadMove (.read hprogram) htexts).loadMove .native htexts
          refine .step hread (.step rfl ?_)
          refine Settles.trans (imports_settles ih hloaded ?_) ⟨hloaded, rfl, rfl⟩
          let parsed := state.modifyEngine self fun engine => { engine with program }
          have hpath : (parsed.engine self).path = (state.engine self).path :=
            state.engine_modifyEngine_congr self Engine.path (by intro _; rfl) self
          have hfewer' : state.files.unloaded
              (state.loading ++ [state.files.identity (parsed.engine self).path]) ≤ left := by
            rw [hpath]
            exact Nat.le_of_lt_succ hfewer
          exact hfewer'

/-! ## Steps of a script -/

/-- The states that steps of a script lead to from a state, each step to its end. -/
inductive State.Follows (start : State) : State → Prop where
  | refl : Follows start start
  | performed {state state' : State} {bound : Nat} {step : Script.Step}
      (follows : Follows start state)
      (ends : (Script.perform bound step state).state? = some state') : Follows start state'

theorem perform_settles {state : State} (h : Moment.Whileless ⟨[], Script.main, state⟩)
    (step : Script.Step) :
    Settles state [] Script.main fun bound => Script.perform bound step state := by
  cases step with
  | load => exact load_settles _ h (Nat.lt_succ_self _)
  | run => exact runMain_settles h

/-- A step that is not cut short ends as it does with an ample bound. -/
theorem Outcome.Settles.of_state? {start : State} {step : Script.Step} {bound : Nat}
    {pending : List Bracket} {id : EngineId} {after : State}
    (h : Settles start pending id fun bound => Script.perform bound step start)
    (ends : (Script.perform bound step start).state? = some after) :
    start.Settled pending id after := by
  obtain ⟨ample, result, hwithin, hsame⟩ := h
  have hupto := (Loss.short_refines (Nat.le_max_left bound ample)).performUnder_upTo step start
  have hample : Script.performUnder Watch.silent (max bound ample) step start = result := by
    rw [Script.performUnder_silent]
    exact hsame _ (Nat.le_max_right bound ample)
  rw [Script.performUnder_silent] at hupto
  have hended : (Script.perform bound step start).Within False (fun _ _ => True)
      fun _ _ => True := by
    cases houtcome : Script.perform bound step start with
    | done value state => exact trivial
    | failed failure state => exact trivial
    | exhausted =>
        rw [houtcome] at ends
        cases ends
  have hsettled : Script.perform bound step start = result :=
    (hupto.eq_of_within hended ()).symm.trans hample
  rw [hsettled] at ends
  exact Outcome.leaves_of_state? hwithin.ends ends

/-- Between its steps, the sources of a script are as they were at its start. -/
theorem State.Follows.whileless {start state : State} (follows : start.Follows state)
    (h : Moment.Whileless ⟨[], Script.main, start⟩) :
    Moment.Whileless ⟨[], Script.main, state⟩ := by
  induction follows with
  | refl => exact h
  | performed _ ends ih => exact ((perform_settles ih _).of_state? ends).whileless

theorem State.initial_whileless {config : Config} {files : FileTree} {source : Source}
    {path : Path} {content : String} (own : Program.Whileless content)
    (library : (State.initial config files source path content).LibraryWhileless) :
    Moment.Whileless ⟨[], Script.main, State.initial config files source path content⟩ where
  idle := .initial config files source path content
  manned := initial_manned config files source path content
  texts id := by
    simp only [State.initial, engine_addEngine]
    split
    · exact own
    · have hempty : Program.Whileless "" := by decide +kernel
      exact hempty
  library := library

/-- If no `while` stands in a source or in any module that it can import, then what is asked of its
engine comes to an end, whatever was asked of it before: with an ample bound it is not cut short,
and a greater bound changes nothing. -/
theorem sources_without_while_finish {config : Config} {files : FileTree} {source : Source}
    {path : Path} {content : String} (own : Program.Whileless content)
    (library : (State.initial config files source path content).LibraryWhileless) {state : State}
    (follows : (State.initial config files source path content).Follows state)
    (step : Script.Step) :
    ∃ ample, Script.perform ample step state ≠ .exhausted ∧
      ∀ bound ≥ ample, Script.perform bound step state = Script.perform ample step state := by
  have hstart := State.initial_whileless own library
  obtain ⟨ample, result, hwithin, hsame⟩ := perform_settles (follows.whileless hstart) step
  have hample : Script.perform ample step state = result := hsame ample le_rfl
  refine ⟨ample, fun hexhausted => ?_, fun bound hbound => (hsame bound hbound).trans hample.symm⟩
  rw [← hample, hexhausted] at hwithin
  exact hwithin

/-- Blocks of an importer and of a module that call themselves, as an instance: at a limit of two
frames the run finishes, as a call is refused. -/
theorem sources_without_while_finish_of_recursion :
    ∃ start state : State, start.Follows state ∧ start.config.callLimit = 2 ∧
      (Script.perform 20 .run state).failure?.map (·.cause) = some (.callStackOverflow 2) ∧
      ∃ ample, Script.perform ample .run state ≠ .exhausted ∧
        ∀ bound ≥ ample, Script.perform bound .run state = Script.perform ample .run state := by
  let files := FileTree.putFile {} ["bir", "m.bir"] (.file "deep[] { deep() }".toUTF8)
  let content := "use \"m\"\nagain[] { deep() again() }\nagain()"
  let start := State.initial { callLimit := 2 } files (.prepared []) "main.bir" content
  have hown : Program.Whileless content := by decide +kernel
  have hfiles : ∀ entry ∈ start.files.entries, entry.2.Whileless := by decide +kernel
  have hlibrary : start.LibraryWhileless := .of_entries hfiles
  have hloads : ((Script.perform 20 .load start).state?).isSome = true := by decide +kernel
  obtain ⟨state, hstate⟩ := Option.isSome_iff_exists.1 hloads
  have hfollows : start.Follows state := .performed .refl hstate
  have hfails : ((Script.perform 20 .load start).state?.bind fun state =>
      (Script.perform 20 .run state).failure?.map (·.cause)) = some (.callStackOverflow 2) := by
    decide +kernel
  rw [hstate, Option.bind_some] at hfails
  have hfinishes := sources_without_while_finish hown hlibrary hfollows .run
  exact ⟨start, state, hfollows, rfl, hfails, hfinishes⟩

end Bir
