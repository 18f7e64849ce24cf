/-!
# Paths — names of files as they are written

A path is text with parts between slashes. This file defines, on the text alone:

* `Path.parts` — the parts that matter: neither empty nor a dot;
* `Path.fileName?` and `Path.stem?` — the last name, and that name without its last extension;
* `Path.join` — the path of an entry of a directory;
* `Path.displayName` — the last name, or the whole path where there is none.

What a path leads to is in `Bir.FileTree`.
-/

namespace Bir

/-- The written form of a path. -/
abbrev Path := String

namespace Path

/-- The text between slashes, empty parts included. -/
def pieces (text : List Char) : List (List Char) :=
  text.splitOn '/'

/-- The parts of a path that lead somewhere: names and `..`. -/
def parts (path : Path) : List String :=
  (pieces path.toList).filterMap fun piece =>
    if piece = [] ∨ piece = ['.'] then none else some (String.ofList piece)

/-- Whether a path starts at the root of all directories. -/
def isAbsolute (path : Path) : Bool := path.toList.head? == some '/'

/-- Whether a path ends so that only a directory can be meant. -/
def namesDirectory (path : Path) : Bool :=
  match (pieces path.toList).getLast? with
  | some last => last == [] || last == ['.']
  | none => false

/-- The last name of a path; a path that ends in `..`, or has no parts, has none. -/
def fileName? (path : Path) : Option String :=
  match (parts path).getLast? with
  | some last => if last = ".." then none else some last
  | none => none

/-- A name without its last extension. A dot that starts a name starts no extension. -/
def stemOf (name : String) : String :=
  let reversed := name.toList.reverse
  match reversed.dropWhile (· ≠ '.') with
  | [] => name
  | _ :: [] => name
  | _ :: stem => String.ofList stem.reverse

/-- The last name of a path without its last extension. -/
def stem? (path : Path) : Option String := (fileName? path).map stemOf

/-- The last name of a path, or the whole path where there is none. -/
def displayName (path : Path) : String := (fileName? path).getD path

/-- The path of the entry `name` of the directory `path`. -/
def join (path : Path) (name : String) : Path :=
  match path.toList.getLast? with
  | none => name
  | some '/' => path ++ name
  | some _ => path ++ "/" ++ name

end Path

end Bir
