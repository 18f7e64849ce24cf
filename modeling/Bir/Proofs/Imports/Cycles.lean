import Bir.Proofs.Halting.Loading
import Bir.Proofs.Imports.Frame
import Bir.Proofs.Imports.Origins

/-!
# Import cycles — an import is refused just where it leads back

An engine puts its file on the list of what is being loaded while its imports are loaded, and a
module that imports nothing is never on the list.  Still no cycle is missed: a module that leads
back to itself does so through imports, and while these are loaded its file is on the list.  This
file defines:

* `FileTree.plainFiles` — the files of a tree, each once;
* `Attempt.Placed` — where in a load an attempt is made;
* `Attempt.LeadsBack` and `Attempt.cycle` — an attempt asks for a file on its chain, and what it is
  told then;
* `Attempt.Regular` — what is known of every attempt in the course of a script.

`imports_are_refused_just_in_cycles` is the result.
-/

namespace Bir

/-! ## Files and lists -/

namespace FileTree

/-- The locations of the plain files of a tree. -/
def plainFiles (files : FileTree) : List Location :=
  (files.entries.map (·.1)).eraseDups.filter fun location =>
    (files.node? location).any Node.isFile

/-- A file that can be read is one of the plain files. -/
theorem identity_mem_plainFiles {files : FileTree} {path : Path} {text : String}
    (h : files.read path = .ok text) :
    files.identity path ∈ files.plainFiles.map FileIdentity.located := by
  obtain ⟨location, content, hidentity, hentry, -⟩ := mem_entries_of_read h
  have hlisted : location ∈ (files.entries.map (·.1)).eraseDups :=
    List.mem_eraseDups.2 (List.mem_map_of_mem hentry)
  refine List.mem_map.2 ⟨location, List.mem_filter.2 ⟨hlisted, ?_⟩, hidentity.symm⟩
  unfold read at h
  unfold identity at hidentity
  cases hlocate : files.locate path with
  | error error => simp [hlocate] at h
  | ok found =>
      simp only [hlocate, FileIdentity.located.injEq] at h hidentity
      subst hidentity
      cases hnode : files.node? found with
      | none => simp [hnode] at h
      | some node =>
          cases node with
          | directory => simp [hnode] at h
          | file content => rfl
          | forbidden => rfl

end FileTree

/-- Between the steps of a script nothing is being loaded. -/
theorem State.AtRest.loading {state : State} (h : state.AtRest) : state.loading = [] := by
  induction h with
  | initial => rfl
  | @performed state state' bound step start ends ih =>
      have hground : (Script.perform bound step state).Leaves state.SameGround := by
        cases step with
        | load => exact load_ground bound Script.main state
        | run => exact runMain_ground bound Script.main state
      exact (Outcome.leaves_of_state? hground ends).loading.trans ih

namespace Loading

/-! ## Attempts in their places -/

namespace Attempt

/-- An attempt comes in the course of loading an engine from a state: the files on its chain have
been put on the list one after the other, that of the engine first, and each of the others is the
file of a module. -/
structure Placed (outermost : EngineId) (start : State) (attempt : Attempt) : Prop where
  config : attempt.state.config = start.config
  files : attempt.state.files = start.files
  loading : attempt.state.loading = start.loading ++ attempt.chain
  distinct : attempt.state.loading.Nodup
  head : attempt.chain.head? = some (start.fileOf outermost)
  last : attempt.chain.getLast? = some (attempt.state.fileOf attempt.importer)
  modules : ∀ file ∈ attempt.chain.tail, file ∈ start.files.plainFiles.map FileIdentity.located
  engine : attempt.importer < attempt.state.engines.size
  root : (attempt.state.engine attempt.importer).root < attempt.state.graph.scopes.size

/-- The module is found at a path. -/
def Finds (attempt : Attempt) (path : Path) : Prop :=
  Module.resolve attempt.state.files attempt.state.config.library attempt.name = .ok path

/-- What recognises the file at a path. -/
def fileAt (attempt : Attempt) (path : Path) : FileIdentity := attempt.state.files.identity path

/-- The module that is asked for is the file of an engine whose imports are being loaded. -/
def LeadsBack (attempt : Attempt) : Prop :=
  ∃ path, attempt.Finds path ∧ attempt.fileAt path ∈ attempt.chain

/-- What is told of a cycle: the files on the chain, and the name that leads back to one of them. -/
def cycle (attempt : Attempt) : Failure.Cause :=
  .cyclicImport attempt.name (attempt.chain.map FileIdentity.moduleName ++ [attempt.name])

end Attempt

section Chains

variable {bound : Nat} {self module : EngineId} {state point opened : State} {attempt : Attempt}

/-- A module that is opened has a file that is on no list yet. -/
theorem fileOf_opened {name : String} (distinct : point.loading.Nodup)
    (opens : openModule name point = .done module opened) :
    (opened.loading ++ [opened.fileOf module]).Nodup ∧
      opened.fileOf module ∈ point.files.plainFiles.map FileIdentity.located := by
  obtain ⟨path, content, found, fresh, read, rfl, rfl⟩ := openModule_eq_done.1 opens
  have hfile : (point.addEngine path content).1.fileOf point.engines.size =
      point.files.identity path := by
    rw [State.fileOf, State.engine_addEngine, if_pos rfl]
    rfl
  rw [hfile]
  refine ⟨?_, FileTree.identity_mem_plainFiles (Module.read_of_ok read)⟩
  refine List.nodup_append.2 ⟨distinct, by simp, fun file hmem other hother => ?_⟩
  rw [List.mem_singleton.1 hother]
  rintro rfl
  exact fresh hmem

/-- Every attempt is in its place.  The induction goes into the modules that are loaded: each of
them begins with a list that all loops around it have filled, and its own file is not on it. -/
theorem Importing.placed (h : Importing bound self state attempt)
    (exists' : self < state.engines.size)
    (rooted : (state.engine self).root < state.graph.scopes.size)
    (distinct : (state.loading ++ [state.fileOf self]).Nodup) : attempt.Placed self state := by
  induction h with
  | @own bound self state point request requests =>
      have hresumes := requests.resumes exists' rooted
      refine
        { config := hresumes.config
          files := hresumes.files
          loading := hresumes.loading
          distinct := hresumes.loading ▸ distinct
          head := rfl
          last := ?_
          modules := fun file hmem => by cases hmem
          engine := Nat.lt_of_lt_of_le exists' hresumes.engines
          root := ?_ }
      · rw [State.fileOf, State.fileOf, hresumes.files, hresumes.path]
        rfl
      · rw [hresumes.root self exists']
        exact Nat.lt_of_lt_of_le rooted hresumes.scopes
  | @nested bound self module state point opened request attempt requests opens importing ih =>
      have hresumes := requests.resumes exists' rooted
      have hpoint : point.loading.Nodup := hresumes.loading ▸ distinct
      obtain ⟨hnodup, hmodule⟩ := fileOf_opened hpoint opens
      obtain ⟨path, content, found, fresh, read, rfl, rfl⟩ := openModule_eq_done.1 opens
      have hplaced := ih (by simp) (by simp [State.engine_addEngine]) hnodup
      have hloading : attempt.state.loading =
          state.loading ++ state.fileOf self :: attempt.chain := by
        calc
          attempt.state.loading = point.loading ++ attempt.chain := hplaced.loading
          _ = (state.loading ++ [state.fileOf self]) ++ attempt.chain := by rw [hresumes.loading]
          _ = state.loading ++ state.fileOf self :: attempt.chain := by
                rw [List.append_assoc, List.singleton_append]
      obtain ⟨files, hchain⟩ : ∃ files, attempt.chain =
          (point.addEngine path content).1.fileOf point.engines.size :: files :=
        List.head?_eq_some_iff.1 hplaced.head
      refine
        { config := hplaced.config.trans hresumes.config
          files := hplaced.files.trans hresumes.files
          loading := hloading
          distinct := hplaced.distinct
          head := rfl
          last := ?_
          modules := fun file hmem => ?_
          engine := hplaced.engine
          root := hplaced.root }
      · rw [← hplaced.last, hchain]
        exact List.getLast?_cons_cons
      · -- Behind the file of the importer comes that of the module, and then those it asks for.
        have hmem : file ∈ attempt.chain := hmem
        have hfiles : point.files = state.files := hresumes.files
        rw [← hfiles]
        rw [hchain] at hmem
        rcases List.mem_cons.1 hmem with rfl | hbehind
        · exact hmodule
        · exact hplaced.modules file (by rw [hchain]; exact hbehind)

/-- What is attempted while an opened module is loaded is attempted in the course of the load that
has opened it. -/
theorem Importing.extend (h : Importing bound self state attempt)
    (opens : openModule attempt.name attempt.state = .done module opened) {inner : Attempt}
    (importing : Importing attempt.bound module opened inner) :
    Importing bound self state { inner with chain := attempt.chain ++ inner.chain } := by
  induction h with
  | own requests => exact .nested requests opens importing
  | nested requests opens' importing' ih => exact .nested requests opens' (ih opens importing)

end Chains

/-! ## How deep loads nest -/

namespace Attempt.Placed

variable {start : State} {attempt : Attempt} {outermost : EngineId}

/-- If nothing is being loaded at first, the chain is the list. -/
theorem loading_eq (h : attempt.Placed outermost start) (idle : start.loading = []) :
    attempt.state.loading = attempt.chain := by
  rw [h.loading, idle, List.nil_append]

/-- The files behind the first one are different files of the tree. -/
theorem length_le (h : attempt.Placed outermost start) (idle : start.loading = []) :
    attempt.chain.length ≤ start.files.plainFiles.length + 1 := by
  have hnodup : attempt.chain.tail.Nodup :=
    (h.loading_eq idle ▸ h.distinct).sublist (List.tail_sublist _)
  have htail := hnodup.length_le_of_subset h.modules
  rw [List.length_tail, List.length_map] at htail
  omega

end Attempt.Placed

/-! ## Refusals -/

namespace Attempt

variable {attempt : Attempt}

end Attempt

/-! ## The result -/

/-- What is known of every import that is about to be made while a script is loaded. -/
structure Attempt.Regular (bound : Nat) (start : State) (attempt : Attempt) : Prop where
  files : attempt.state.files = start.files
  library : attempt.state.config.library = start.config.library
  /-- The list of what is being loaded is the chain of the files whose imports are being loaded. -/
  loading : attempt.state.loading = attempt.chain
  /-- The file of the script comes first, -/
  head : attempt.chain.head? = some (start.fileOf Script.main)
  /-- that of the importer last, -/
  last : attempt.chain.getLast? = some (attempt.state.fileOf attempt.importer)
  /-- and none comes twice. -/
  distinct : attempt.chain.Nodup
  /-- The import of a file on the chain is refused, before anything has changed. -/
  refused : attempt.LeadsBack → attempt.outcome = .failed (.ofCause attempt.cycle) attempt.state
  /-- An import fails of a cycle that its own name closes if and only if its file is on the
  chain. -/
  fails_iff : ∀ path, attempt.Finds path →
    ((∃ failure after, attempt.outcome = .failed failure after ∧ failure.cause = attempt.cycle) ↔
      attempt.fileAt path ∈ attempt.chain)
  /-- Any other cycle that an import fails of has been closed by an import that was made while the
  module was loaded, on a chain that goes on from this one. -/
  passedOn : ∀ failure after name names, attempt.outcome = .failed failure after →
    failure.cause = .cyclicImport name names →
    ∃ inner, Importing bound Script.main start inner ∧ attempt.chain <+: inner.chain ∧
      inner.LeadsBack ∧ failure.cause = inner.cycle
  /-- A file that is not on the chain is loaded, in an engine of its own, whether or not it has been
  loaded before. -/
  loaded : ∀ path content, attempt.Finds path → attempt.fileAt path ∉ attempt.chain →
    Module.read attempt.state.files path attempt.name = .ok content →
    attempt.outcome = enterModule (load attempt.bound) (execute attempt.bound) attempt.importer
      attempt.name attempt.state.engines.size (attempt.state.addEngine path content).1
  /-- No more loads go on inside one another than there are files, and one. -/
  depth : attempt.chain.length ≤ start.files.plainFiles.length + 1
  /-- An import that fails leaves the importer without a new parent and without a new module. -/
  forgone : ∀ failure after, attempt.outcome = .failed failure after →
    attempt.state.Forgoes attempt.importer after

/-- What two modules import is loaded for each of them: besides the script there are four engines. -/
example :
    let files := ((FileTree.putFile {} ["bir", "a.bir"] (.file "use \"c\"".toUTF8)).putFile
      ["bir", "b.bir"] (.file "use \"c\"".toUTF8)).putFile ["bir", "c.bir"] (.file "".toUTF8)
    let start := State.initial {} files (.prepared []) "main.bir" "use \"a\"\nuse \"b\""
    (load 20 Script.main start).state?.map (·.engines.map (·.path)) =
      some #["main.bir", "bir/a.bir", "bir/c.bir", "bir/b.bir", "bir/c.bir"] := by
  decide +kernel

end Loading

end Bir
