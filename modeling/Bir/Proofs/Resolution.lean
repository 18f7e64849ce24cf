import Bir.Module
import Mathlib.Data.List.Lex
import Mathlib.Data.List.Nodup
import Mathlib.Data.String.Basic

/-!
# Resolution — which file a module is

A module is the least of the files in a directory whose name without its last extension is the name
of the module.  The files are compared by their names; this file says the same of their paths, and
that the order in which the directory lists them is of no account.  It defines:

* `Path.Component` and `Path.Before` — the order of paths, component by component;
* `Path.IsName` — what an entry of a directory can be called;
* `FileTree.Regular` — a tree in which every location has one entry, by such names;
* `FileTree.Lists` — what stands in the directory that a path leads to;
* `Module.Candidate` — the paths of the files that a module may be.

A tree stays regular as directories and files are put into it: `FileTree.Regular.putFile`.
`Module.resolution_is_independent_of_listing` is what all this is for.
-/

namespace Bir

/-! ## Paths -/

namespace Path

/-- What a path is made of. -/
inductive Component where
  | root
  | here
  | up
  | name (text : String)
  deriving DecidableEq, Repr

/-- The place of a component among those of other forms. -/
def Component.rank : Component → Nat
  | .root => 0
  | .here => 1
  | .up => 2
  | .name _ => 3

/-- One component comes before another one: by its form, or by the characters of its name. -/
inductive Component.Before : Component → Component → Prop where
  | form {component component' : Component} (less : component.rank < component'.rank) :
      Before component component'
  | name {text text' : String} (less : text < text') : Before (.name text) (.name text')

/-- The components of a path.  A dot is one where it starts the path, and else it is none. -/
def components (path : Path) : List Component :=
  (if isAbsolute path then [.root]
    else if (pieces path.toList).head? = some ['.'] then [.here] else []) ++
  (parts path).map fun part => if part = ".." then .up else .name part

/-- One path comes before another one: the first components in which they differ count. -/
def Before (path path' : Path) : Prop :=
  List.Lex Component.Before (components path) (components path')

/-- What an entry of a directory can be called: a name that leads to it from there. -/
structure IsName (name : String) : Prop where
  nonempty : name ≠ ""
  here : name ≠ "."
  up : name ≠ ".."
  plain : '/' ∉ name.toList

instance (name : String) : Decidable (IsName name) :=
  decidable_of_iff (name ≠ "" ∧ name ≠ "." ∧ name ≠ ".." ∧ '/' ∉ name.toList)
    ⟨fun ⟨nonempty, here, up, plain⟩ => ⟨nonempty, here, up, plain⟩,
      fun h => ⟨h.nonempty, h.here, h.up, h.plain⟩⟩

instance : Std.Irrefl Component.Before where
  irrefl component h := by
    cases h with
    | form less => exact Nat.lt_irrefl _ less
    | name less => exact String.lt_irrefl _ less

theorem Component.before_name {text text' : String} :
    Component.Before (.name text) (.name text') ↔ text < text' := by
  constructor
  · intro h
    cases h with
    | form less => exact absurd less (Nat.lt_irrefl _)
    | name less => exact less
  · exact .name

/-! ### Entries of a directory -/

variable {directory : Path} {name name' : String}

/-- The path of an entry is that of the directory with a slash behind it, unless there is one or the
directory has no name. -/
theorem join_cases (directory : Path) (name : String) :
    (directory.toList = [] ∧ join directory name = name) ∨
      (∃ stem, directory.toList = stem ++ ['/'] ∧
        (join directory name).toList = stem ++ '/' :: name.toList) ∨
      (directory.toList ≠ [] ∧
        (join directory name).toList = directory.toList ++ '/' :: name.toList) := by
  unfold join
  split
  · rename_i hlast
    exact .inl ⟨List.getLast?_eq_none_iff.1 hlast, rfl⟩
  · rename_i hlast
    obtain ⟨stem, hstem⟩ := List.getLast?_eq_some_iff.1 hlast
    exact .inr (.inl ⟨stem, hstem, by simp [hstem]⟩)
  · rename_i hlast
    refine .inr (.inr ⟨fun hempty => ?_, by simp⟩)
    rw [hempty] at hlast
    cases hlast

theorem pieces_append (text rest : List Char) :
    pieces (text ++ '/' :: rest) = pieces text ++ pieces rest :=
  List.splitOnP_append_cons text rest (by simp)

theorem IsName.pieces (h : IsName name) : pieces name.toList = [name.toList] :=
  List.splitOn_eq_singleton h.plain

theorem IsName.parts (h : IsName name) : parts name = [name] := by
  have hempty : name.toList ≠ [] := fun hname => h.nonempty (String.toList_eq_nil_iff.1 hname)
  have hdot : name.toList ≠ ['.'] := fun hname => h.here (String.toList_inj.1 hname)
  simp [Path.parts, h.pieces, hempty, hdot]

/-- The last part of the path of an entry is its name, and what is before it is the directory. -/
theorem parts_join (h : IsName name) : parts (join directory name) = parts directory ++ [name] := by
  have hname : (Path.pieces name.toList).filterMap (fun piece =>
      if piece = [] ∨ piece = ['.'] then none else some (String.ofList piece)) = [name] := h.parts
  obtain ⟨hempty, hjoin⟩ | ⟨stem, hstem, hjoin⟩ | ⟨-, hjoin⟩ := join_cases directory name
  · rw [hjoin, h.parts]
    simp [parts, hempty, Path.pieces]
  · simp only [parts, hjoin, hstem, pieces_append, List.filterMap_append, hname]
    simp [Path.pieces]
  · simp only [parts, hjoin, pieces_append, List.filterMap_append, hname]

/-- Whether a path starts at the root, or with a dot, is seen in the directory. -/
theorem start_join (directory : String) (h : IsName name) :
    isAbsolute (join directory name) = isAbsolute directory ∧
      ((pieces (join directory name).toList).head? = some ['.'] ↔
        (pieces directory.toList).head? = some ['.']) := by
  have hpieces : ∀ text rest, (pieces text ++ pieces rest).head? = (pieces text).head? :=
    fun text _ => List.head?_append_of_ne_nil _ (List.splitOnP_ne_nil _ text)
  obtain ⟨hempty, hjoin⟩ | ⟨stem, hstem, hjoin⟩ | ⟨hfull, hjoin⟩ := join_cases directory name
  · have hslash : name.toList.head? ≠ some '/' := fun hhead =>
      h.plain (List.mem_of_mem_head? hhead)
    have hdot : name.toList ≠ ['.'] := fun hname => h.here (String.toList_inj.1 hname)
    rw [hjoin, h.pieces]
    simp [isAbsolute, hempty, hslash, hdot, Path.pieces]
  · rw [isAbsolute, isAbsolute, hjoin, hstem, pieces_append, pieces_append, hpieces, hpieces]
    exact ⟨by simp [List.head?_append], Iff.rfl⟩
  · rw [isAbsolute, isAbsolute, hjoin, pieces_append, hpieces, List.head?_append_of_ne_nil _ hfull]
    exact ⟨rfl, Iff.rfl⟩

theorem components_join (h : IsName name) :
    components (join directory name) = components directory ++ [.name name] := by
  obtain ⟨habsolute, hdot⟩ := start_join directory h
  simp [components, parts_join h, habsolute, hdot, h.up]

theorem stem?_join (h : IsName name) : stem? (join directory name) = some (stemOf name) := by
  simp [stem?, fileName?, parts_join h, h.up]

/-- Entries of one directory are in the order of their names. -/
theorem before_join (h : IsName name) (h' : IsName name') :
    Before (join directory name) (join directory name') ↔ name < name' := by
  have hprefix : ∀ before : List Component,
      List.Lex Component.Before (before ++ [.name name]) (before ++ [.name name']) ↔
        List.Lex Component.Before [.name name] [.name name'] := by
    intro before
    induction before with
    | nil => rfl
    | cons component before ih => rw [List.cons_append, List.cons_append, List.lex_cons_iff, ih]
  rw [Before, components_join h, components_join h', hprefix, List.lex_singleton_iff,
    Component.before_name]

end Path

/-! ## Trees -/

namespace FileTree

variable {files files' : FileTree} {directory : Path} {name : String} {node : Node}

/-- Every location has one entry, and it is reached by names. -/
structure Regular (files : FileTree) : Prop where
  distinct : (files.entries.map Prod.fst).Nodup
  named : ∀ entry ∈ files.entries, ∀ name ∈ entry.1, Path.IsName name

/-- A node stands by a name in the directory that a path leads to. -/
def Lists (files : FileTree) (directory : Path) (name : String) (node : Node) : Prop :=
  ∃ here, files.locate directory = .ok here ∧ files.node? here = some .directory ∧
    files.node? (here ++ [name]) = some node

/-- Where every location has one entry, a lookup finds what is there. -/
theorem lookup_eq_some {entries : List (Location × Node)} (distinct : (entries.map Prod.fst).Nodup)
    {location : Location} : entries.lookup location = some node ↔ (location, node) ∈ entries := by
  induction entries with
  | nil => simp
  | cons entry entries ih =>
      obtain ⟨other, node'⟩ := entry
      obtain ⟨hnew, hrest⟩ := List.nodup_cons.1 distinct
      by_cases hsame : location = other
      · subst hsame
        have habsent : (location, node) ∉ entries := fun hmem =>
          hnew (List.mem_map.2 ⟨_, hmem, rfl⟩)
        simp [habsent, eq_comm]
      · have hbeq : (location == other) = false := by simpa using hsame
        simp [List.lookup_cons, hbeq, hsame, ih hrest]

namespace Regular

variable (h : files.Regular)
include h

theorem node?_eq_some {location : Location} (below : location ≠ []) :
    files.node? location = some node ↔ (location, node) ∈ files.entries := by
  rw [node?, if_neg below, lookup_eq_some h.distinct]

theorem isName (lists : files.Lists directory name node) : Path.IsName name := by
  obtain ⟨here, -, -, hnode⟩ := lists
  exact h.named _ ((h.node?_eq_some (by simp)).1 hnode) name (by simp)

end Regular

/-- The name of an entry leads to it from its directory. -/
theorem entryName?_eq_some {location entry : Location} :
    entryName? location entry = some name ↔ entry = location ++ [name] := by
  unfold entryName?
  constructor
  · intro h
    split at h
    · rename_i last hlast
      obtain ⟨before, rfl⟩ := List.getLast?_eq_some_iff.1 hlast
      split at h
      · rename_i hbefore
        cases h
        simpa using hbefore
      · cases h
    · cases h
  · rintro rfl
    simp

/-- A directory lists what stands in it. -/
theorem Regular.mem_entries? (h : files.Regular) :
    (∃ listing, files.entries? directory = some listing ∧ (name, node) ∈ listing) ↔
      files.Lists directory name node := by
  have hmem : ∀ here : Location, (name, node) ∈ files.entries.filterMap (fun entry =>
      (entryName? here entry.1).map fun name => (name, entry.2)) ↔
        files.node? (here ++ [name]) = some node := by
    intro here
    rw [h.node?_eq_some (by simp), List.mem_filterMap]
    constructor
    · rintro ⟨⟨entry, node'⟩, hentry, hname⟩
      obtain ⟨name', hname', heq⟩ := Option.map_eq_some_iff.1 hname
      cases heq
      rw [entryName?_eq_some] at hname'
      exact hname' ▸ hentry
    · intro hentry
      exact ⟨(here ++ [name], node), hentry, by simp [entryName?_eq_some.2 rfl]⟩
  unfold entries? Lists
  cases hlocate : files.locate directory with
  | error error => simp
  | ok here =>
      cases hnode : files.node? here with
      | none => simp [hnode]
      | some node' =>
          cases node' with
          | directory => simpa [hnode] using hmem here
          | _ => simp [hnode]

/-! ### Trees that list the same entries -/

/-- Walks ask what is at a location, and nothing else. -/
theorem walk_congr (same : ∀ location, files'.node? location = files.node? location)
    (here : Location) (parts : List String) : files'.walk here parts = files.walk here parts := by
  induction parts generalizing here with
  | nil => rfl
  | cons part parts ih => simp only [walk, same, ih]

theorem locate_congr (working : files'.working = files.working)
    (same : ∀ location, files'.node? location = files.node? location) (path : Path) :
    files'.locate path = files.locate path := by
  simp only [locate, working, walk_congr same, same]

/-- The order of the entries is of no account for what is at a location. -/
theorem Regular.node?_perm (h : files.Regular) (perm : files'.entries.Perm files.entries)
    (location : Location) : files'.node? location = files.node? location := by
  have distinct : (files'.entries.map Prod.fst).Nodup := (perm.map _).nodup_iff.2 h.distinct
  unfold node?
  split
  · rfl
  · refine Option.ext fun node => ?_
    rw [lookup_eq_some distinct, lookup_eq_some h.distinct, perm.mem_iff]

theorem Regular.perm (h : files.Regular) (perm : files'.entries.Perm files.entries) :
    files'.Regular where
  distinct := (perm.map _).nodup_iff.2 h.distinct
  named entry hentry := h.named entry (perm.mem_iff.1 hentry)

theorem Regular.lists_perm (h : files.Regular) (working : files'.working = files.working)
    (perm : files'.entries.Perm files.entries) :
    files'.Lists directory name node ↔ files.Lists directory name node := by
  have hsame := h.node?_perm perm
  simp only [Lists, locate_congr working hsame, hsame]

/-! ### Building regular trees -/

theorem regular_empty (working : Location) : ({ working } : FileTree).Regular where
  distinct := List.nodup_nil
  named _ hentry := nomatch hentry

namespace Regular

variable {location : Location} (h : files.Regular)
include h

theorem put (named : ∀ name ∈ location, Path.IsName name) (node : Node) :
    (files.put location node).Regular where
  distinct := by
    have hold : ((files.entries.filter fun entry => entry.1 ≠ location).map Prod.fst).Nodup :=
      h.distinct.sublist ((List.filter_sublist).map _)
    have hnew : location ∉ (files.entries.filter fun entry => entry.1 ≠ location).map Prod.fst := by
      simp
    rw [FileTree.put, List.map_append]
    exact List.Nodup.append hold (List.nodup_singleton _) (List.disjoint_singleton.2 hnew)
  named entry hentry := by
    obtain hold | hnew := List.mem_append.1 hentry
    · exact h.named entry (List.mem_filter.1 hold).1
    · rw [List.mem_singleton.1 hnew]
      exact named

theorem putDirectory (named : ∀ name ∈ location, Path.IsName name) :
    (files.putDirectory location).Regular := by
  refine List.foldlRecOn (motive := Regular) _ _ h fun files' h' depth _ => ?_
  simp only
  split
  · exact h'
  · exact h'.put (fun name hname => named name (List.mem_of_mem_take hname)) _

theorem putFile (named : ∀ name ∈ location, Path.IsName name) (node : Node) :
    (files.putFile location node).Regular :=
  (h.putDirectory fun name hname => named name (List.dropLast_subset _ hname)).put named node

end Regular

end FileTree

/-! ## Modules -/

namespace Module

variable {files : FileTree} {directory path : Path} {name entry : String}

/-- A path is that of a plain file in a directory, and its stem is the name of the module. -/
def Candidate (files : FileTree) (directory : Path) (name : String) (path : Path) : Prop :=
  ∃ entry node, files.Lists directory entry node ∧ node.isFile = true ∧
    path = Path.join directory entry ∧ Path.stem? path = some name

theorem mem_candidates {listing : List (String × Node)} :
    entry ∈ candidates name listing ↔
      ∃ node, (entry, node) ∈ listing ∧ node.isFile = true ∧ Path.stemOf entry = name := by
  simp [candidates]

/-- The file that a module is has the least name of all that it may be. -/
theorem choose?_eq_min? (name : String) (listing : List (String × Node)) :
    choose? name listing = (candidates name listing).min? := by
  have hleast : least = min := by
    funext a b
    simp only [least, min_def, ← not_lt]
    split <;> simp_all
  unfold choose?
  cases candidates name listing with
  | nil => rfl
  | cons first rest => rw [List.min?_cons', hleast]

/-- The name of a plain file in a directory that is, without its last extension, the name of the
module. -/
def Matches (files : FileTree) (directory : Path) (name entry : String) : Prop :=
  ∃ node, files.Lists directory entry node ∧ node.isFile = true ∧ Path.stemOf entry = name

section

variable (regular : files.Regular)
include regular

theorem candidate_iff : Candidate files directory name path ↔
    ∃ entry, Matches files directory name entry ∧ path = Path.join directory entry := by
  constructor
  · rintro ⟨entry, node, hlists, hfile, rfl, hstem⟩
    rw [Path.stem?_join (regular.isName hlists)] at hstem
    exact ⟨entry, ⟨node, hlists, hfile, Option.some.inj hstem⟩, rfl⟩
  · rintro ⟨entry, ⟨node, hlists, hfile, hstem⟩, rfl⟩
    exact ⟨entry, node, hlists, hfile, rfl, by rw [Path.stem?_join (regular.isName hlists), hstem]⟩

theorem matches_iff : Matches files directory name entry ↔
    ∃ listing, files.entries? directory = some listing ∧ entry ∈ candidates name listing := by
  simp only [Matches, mem_candidates, ← regular.mem_entries?]
  constructor
  · rintro ⟨node, ⟨listing, hlisting, hentry⟩, hfile⟩
    exact ⟨listing, hlisting, node, hentry, hfile⟩
  · rintro ⟨listing, hlisting, node, hentry, hfile⟩
    exact ⟨node, ⟨listing, hlisting, hentry⟩, hfile⟩

theorem candidate_perm {files' : FileTree} (working : files'.working = files.working)
    (perm : files'.entries.Perm files.entries) :
    Candidate files' directory name path ↔ Candidate files directory name path := by
  simp only [Candidate, regular.lists_perm working perm]

/-- What is chosen is the least of the names that match. -/
theorem chosen_eq_some : (files.entries? directory).bind (choose? name) = some entry ↔
    Matches files directory name entry ∧
      ∀ other, Matches files directory name other → entry ≤ other := by
  simp only [matches_iff regular]
  cases files.entries? directory with
  | none => simp
  | some listing => simp [choose?_eq_min?, List.min?_eq_some_iff]

theorem chosen_eq_none : (files.entries? directory).bind (choose? name) = none ↔
    ∀ entry, ¬Matches files directory name entry := by
  simp only [matches_iff regular]
  cases files.entries? directory with
  | none => simp
  | some listing => simp [choose?_eq_min?, List.min?_eq_none_iff, List.eq_nil_iff_forall_not_mem]

/-- A module is resolved to the candidate that is before all others, or it is missing and there is
no candidate. -/
theorem resolve_cases (directory : Path) (name : String) :
    (∃ path, resolve files directory name = .ok path ∧ Candidate files directory name path ∧
        ∀ other, Candidate files directory name other → other = path ∨ Path.Before path other) ∨
      resolve files directory name = .error (.ofCause (.missingModule name directory)) ∧
        ∀ path, ¬Candidate files directory name path := by
  simp only [candidate_iff regular]
  cases hchosen : (files.entries? directory).bind (choose? name) with
  | none =>
      refine .inr ⟨by simp [resolve, hchosen], ?_⟩
      rintro path ⟨entry, hmatches, -⟩
      exact (chosen_eq_none regular).1 hchosen entry hmatches
  | some entry =>
      obtain ⟨hmatches, hleast⟩ := (chosen_eq_some regular).1 hchosen
      have hname : ∀ other, Matches files directory name other → Path.IsName other := by
        rintro other ⟨node, hlists, -⟩
        exact regular.isName hlists
      refine .inl ⟨_, by simp [resolve, hchosen], ⟨entry, hmatches, rfl⟩, ?_⟩
      rintro _ ⟨other, hother, rfl⟩
      obtain hless | hsame := lt_or_eq_of_le (hleast other hother)
      · exact .inr ((Path.before_join (hname entry hmatches) (hname other hother)).2 hless)
      · exact .inl (by rw [hsame])

/-- No two candidates are each before the other one. -/
theorem Candidate.asymm {path' : Path} (h : Candidate files directory name path)
    (h' : Candidate files directory name path') (before : Path.Before path path') :
    ¬Path.Before path' path := by
  obtain ⟨entry, node, hlists, -, rfl, -⟩ := h
  obtain ⟨entry', node', hlists', -, rfl, -⟩ := h'
  have hname := regular.isName hlists
  have hname' := regular.isName hlists'
  rw [Path.before_join hname hname'] at before
  rw [Path.before_join hname' hname]
  exact lt_asymm before

theorem resolve_eq_ok : resolve files directory name = .ok path ↔
    Candidate files directory name path ∧
      ∀ other, Candidate files directory name other → other = path ∨ Path.Before path other := by
  obtain ⟨found, hok, hcandidate, hleast⟩ | ⟨herror, hnone⟩ := resolve_cases regular directory name
  · rw [hok]
    constructor
    · rintro ⟨⟩
      exact ⟨hcandidate, hleast⟩
    · rintro ⟨hcandidate', hleast'⟩
      -- Each of the two is before the other one, if they are not the same.
      obtain hsame | hbefore := hleast path hcandidate'
      · rw [hsame]
      · obtain hsame | hbefore' := hleast' found hcandidate
        · rw [hsame]
        · exact absurd hbefore' (hcandidate.asymm regular hcandidate' hbefore)
  · rw [herror]
    exact ⟨nofun, fun h => absurd h.1 (hnone path)⟩

/-- **Which file a module is.**  In a regular tree, a module is resolved to a path just if that is a
candidate and before all other candidates; it is resolved to some path just if there is a candidate,
and else it is missing.  In whatever order the same entries are listed, it is resolved alike. -/
theorem resolution_is_independent_of_listing (directory : Path) (name : String) :
    (∀ path, resolve files directory name = .ok path ↔ Candidate files directory name path ∧
        ∀ other, Candidate files directory name other → other = path ∨ Path.Before path other) ∧
      ((∃ path, resolve files directory name = .ok path) ↔
        ∃ path, Candidate files directory name path) ∧
      ((∀ path, ¬Candidate files directory name path) →
        resolve files directory name = .error (.ofCause (.missingModule name directory))) ∧
      ∀ files' : FileTree, files'.working = files.working →
        files'.entries.Perm files.entries →
          resolve files' directory name = resolve files directory name := by
  obtain ⟨path, hok, hcandidate, hleast⟩ | ⟨herror, hnone⟩ := resolve_cases regular directory name
  · refine ⟨fun _ => resolve_eq_ok regular, ⟨fun _ => ⟨path, hcandidate⟩, fun _ => ⟨path, hok⟩⟩,
      fun hnone => absurd hcandidate (hnone path), fun files' working perm => ?_⟩
    rw [hok, resolve_eq_ok (regular.perm perm)]
    simpa only [candidate_perm regular working perm] using ⟨hcandidate, hleast⟩
  · refine ⟨fun _ => resolve_eq_ok regular, ⟨?_, fun ⟨path, h⟩ => absurd h (hnone path)⟩,
      fun _ => herror, fun files' working perm => ?_⟩
    · rintro ⟨path, hok⟩
      cases herror.symm.trans hok
    · obtain ⟨path, -, hcandidate, -⟩ | ⟨herror', -⟩ :=
        resolve_cases (regular.perm perm) directory name
      · exact absurd ((candidate_perm regular working perm).1 hcandidate) (hnone path)
      · rw [herror, herror']

end

/-- Files that start alike, one of them hidden, one with two dots in its name and one without any,
and a directory that bears the name of the module. -/
def lookAlikes : FileTree :=
  (((((FileTree.putFile {} ["bir", "io.txt"] (.file "".toUTF8)).putFile
    ["bir", "iota.bir"] (.file "".toUTF8)).putDirectory ["bir", "io"]).putFile
    ["bir", "io.bir"] .forbidden).putFile ["bir", ".io"] (.file "".toUTF8)).putFile
    ["bir", "io.tar.gz"] (.file "".toUTF8)

theorem lookAlikes_regular : lookAlikes.Regular := by
  have hnamed : ∀ location ∈ [["bir", "io.txt"], ["bir", "iota.bir"], ["bir", "io"],
      ["bir", "io.bir"], ["bir", ".io"], ["bir", "io.tar.gz"]],
        ∀ name ∈ location, Path.IsName name := by decide
  have htexts := ((FileTree.regular_empty []).putFile (hnamed ["bir", "io.txt"] (by simp))
    (.file "".toUTF8)).putFile (hnamed ["bir", "iota.bir"] (by simp)) (.file "".toUTF8)
  have hfiles := (htexts.putDirectory (hnamed ["bir", "io"] (by simp))).putFile
    (hnamed ["bir", "io.bir"] (by simp)) .forbidden
  exact (hfiles.putFile (hnamed ["bir", ".io"] (by simp)) (.file "".toUTF8)).putFile
    (hnamed ["bir", "io.tar.gz"] (by simp)) (.file "".toUTF8)

/-- A file is taken although another one that has the stem is listed before it, and so it is where
the listing is turned around. -/
theorem resolution_is_independent_of_listing_of_lookAlikes :
    Candidate lookAlikes "bir" "io" "bir/io.bir" ∧
      resolve { lookAlikes with entries := lookAlikes.entries.reverse } "bir" "io" =
        .ok "bir/io.bir" := by
  obtain ⟨hresolve, -, -, hperm⟩ :=
    resolution_is_independent_of_listing lookAlikes_regular "bir" "io"
  have hok : resolve lookAlikes "bir" "io" = .ok "bir/io.bir" := by rfl
  exact ⟨((hresolve _).1 hok).1,
    (hperm { lookAlikes with entries := lookAlikes.entries.reverse } rfl
      (List.reverse_perm lookAlikes.entries)).trans hok⟩

end Module

end Bir
