import Bir.Failure
import Bir.FileTree

/-!
# Modules — files that a program names

A module is a file of the library directory whose name without its last extension is the name of
the module. This file defines:

* `Module.resolve` — the path of a module;
* `Module.read` — its text.

Of several files with the same stem the least one counts, so the order in which a directory lists
its entries does not matter.
-/

namespace Bir
namespace Module

/-- The names of the files that a module may be, among the entries of a directory. -/
def candidates (name : String) (entries : List (String × Node)) : List String :=
  (entries.filter fun (entry, node) => node.isFile && Path.stemOf entry == name).map (·.1)

/-- The least of two names. -/
def least (a b : String) : String := if b < a then b else a

/-- The name of the file that a module is, among the entries of a directory. -/
def choose? (name : String) (entries : List (String × Node)) : Option String :=
  match candidates name entries with
  | [] => none
  | first :: rest => some (rest.foldl least first)

/-- The path of a module in a directory. -/
def resolve (files : FileTree) (directory : Path) (name : String) : Except Failure Path :=
  match (files.entries? directory).bind (choose? name) with
  | some entry => .ok (Path.join directory entry)
  | none => .error (.ofCause (.missingModule name directory))

/-- The text of a module at a path. -/
def read (files : FileTree) (path : Path) (name : String) : Except Failure String :=
  match files.read path with
  | .ok text => .ok text
  | .error error => .error (.ofCause (.moduleLoad name error.reason))

end Module
end Bir
