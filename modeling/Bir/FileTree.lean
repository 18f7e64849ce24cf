import Bir.Path

/-!
# File trees — the files a program can see

A `FileTree` is a snapshot of directories and files: each entry has a location, the list of names
that leads to it from the root of all directories. This file defines:

* `FileTree.locate` — where a path leads, walking its parts from the working directory;
* `FileTree.read` — the text of a file, or the reason there is none;
* `FileTree.entries?` — the entries of a directory;
* `FileTree.identity` — what recognises a file however its path is written.

A walk passes only through directories, so a path below a plain file leads nowhere, and a path
that ends in a slash can only mean a directory.
-/

namespace Bir

/-- The names that lead from the root of all directories to an entry. -/
abbrev Location := List String

/-- An entry of a file tree. -/
inductive Node where
  | directory
  | file (content : ByteArray)
  | forbidden
  deriving Inhabited

/-- Whether an entry is a plain file, readable or not. -/
def Node.isFile : Node → Bool
  | .directory => false
  | _ => true

/-- A snapshot of directories and files. The root is always a directory. -/
structure FileTree where
  /-- Where relative paths start. -/
  working : Location := []
  entries : List (Location × Node) := []
  deriving Inhabited

/-- Why a path could not be read. -/
inductive ReadError where
  | notFound
  | notADirectory
  | isADirectory
  | permissionDenied
  | nameTooLong
  | malformedPath
  | invalidText
  deriving DecidableEq, Repr, Inhabited

/-- What the operating system says about a path that could not be read. -/
def ReadError.reason : ReadError → String
  | .notFound => "No such file or directory (os error 2)"
  | .notADirectory => "Not a directory (os error 20)"
  | .isADirectory => "Is a directory (os error 21)"
  | .permissionDenied => "Permission denied (os error 13)"
  | .nameTooLong => "File name too long (os error 36)"
  | .malformedPath => "file name contained an unexpected NUL byte"
  | .invalidText => "stream did not contain valid UTF-8"

/-- What recognises a file: its location, or its path where nothing is found. -/
inductive FileIdentity where
  | located (location : Location)
  | unresolved (path : Path)
  deriving DecidableEq, Repr, Inhabited

namespace FileTree

/-! ## Walking -/

/-- The entry at a location. -/
def node? (tree : FileTree) (location : Location) : Option Node :=
  if location = [] then some .directory else tree.entries.lookup location

/-- The most bytes of a name. -/
def longestName : Nat := 255

/-- The most bytes of a path. -/
def longestPath : Nat := 4095

/-- Follow the parts of a path from a directory. -/
def walk (tree : FileTree) (here : Location) : List String → Except ReadError Location
  | [] => .ok here
  | part :: rest =>
    match tree.node? here with
    | none => .error .notFound
    | some .directory =>
      if part = ".." then tree.walk here.dropLast rest
      else if longestName < part.utf8ByteSize then .error .nameTooLong
      else
        let next := here ++ [part]
        if (tree.node? next).isSome then tree.walk next rest else .error .notFound
    | some _ => .error .notADirectory

/-- Where a path leads. -/
def locate (tree : FileTree) (path : Path) : Except ReadError Location :=
  if path.toList.contains '\x00' then .error .malformedPath
  else if path.isEmpty then .error .notFound
  else if longestPath < path.utf8ByteSize then .error .nameTooLong
  else
    let origin := if Path.isAbsolute path then [] else tree.working
    match tree.walk origin (Path.parts path) with
    | .error error => .error error
    | .ok location =>
      match tree.node? location, Path.namesDirectory path with
      | some .directory, _ => .ok location
      | some _, true => .error .notADirectory
      | some _, false => .ok location
      | none, _ => .error .notFound

/-! ## Contents -/

/-- The text of the file a path leads to. -/
def read (tree : FileTree) (path : Path) : Except ReadError String :=
  match tree.locate path with
  | .error error => .error error
  | .ok location =>
    match tree.node? location with
    | none => .error .notFound
    | some .directory => .error .isADirectory
    | some .forbidden => .error .permissionDenied
    | some (.file content) =>
      match String.fromUTF8? content with
      | some text => .ok text
      | none => .error .invalidText

/-- The name of an entry of the directory at `location`, if the entry is one of it. -/
def entryName? (location : Location) (entry : Location) : Option String :=
  match entry.getLast? with
  | some name => if entry.dropLast = location then some name else none
  | none => none

/-- The entries of the directory a path leads to, in no particular order. -/
def entries? (tree : FileTree) (path : Path) : Option (List (String × Node)) :=
  match tree.locate path with
  | .error _ => none
  | .ok location =>
    match tree.node? location with
    | some .directory =>
      some (tree.entries.filterMap fun (entry, node) =>
        (entryName? location entry).map fun name => (name, node))
    | _ => none

/-- What recognises the file a path leads to. -/
def identity (tree : FileTree) (path : Path) : FileIdentity :=
  match tree.locate path with
  | .ok location => .located location
  | .error _ => .unresolved path

/-! ## Building -/

/-- The location that a path spells, whether or not anything is there. -/
def spelled (tree : FileTree) (path : Path) : Location :=
  (Path.parts path).foldl
    (fun here part => if part = ".." then here.dropLast else here ++ [part])
    (if Path.isAbsolute path then [] else tree.working)

/-- A tree with the entry at `location` set. -/
def put (tree : FileTree) (location : Location) (node : Node) : FileTree :=
  { tree with
    entries := tree.entries.filter (fun entry => entry.1 ≠ location) ++ [(location, node)] }

/-- A tree with a directory at `location` and all directories above it. -/
def putDirectory (tree : FileTree) (location : Location) : FileTree :=
  (List.range (location.length + 1)).foldl
    (fun tree depth =>
      let place := location.take depth
      if (tree.node? place).isSome then tree else tree.put place .directory) tree

/-- A tree with a file at `location` and all directories above it. -/
def putFile (tree : FileTree) (location : Location) (node : Node) : FileTree :=
  (tree.putDirectory location.dropLast).put location node

end FileTree

/-- The name of a recognised file, without its extension, as a chain of imports shows it. -/
def FileIdentity.moduleName : FileIdentity → String
  | .located location => (location.getLast?.map Path.stemOf).getD "/"
  | .unresolved path => (Path.stem? path).getD path

end Bir
