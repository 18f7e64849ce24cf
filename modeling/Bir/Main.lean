import Bir.CommandLine

/-!
# Main — the program in its environment

The program takes a snapshot of what it may need of its environment, answers with
`CommandLine.answer`, and writes the answer out. The snapshot holds the file that is asked for, the
files of the library directory, and all of the standard input if a script is run.
-/

namespace Bir
namespace Environment

/-- What stands at a path. -/
def lookAt (path : Path) : IO (Option Node) := do
  let file := System.mkFilePath [path]
  try
    if ← file.isDir then return some .directory
    let content ← IO.FS.readBinFile file
    return some (.file content)
  catch error =>
    match error with
    | .permissionDenied .. => return some .forbidden
    | _ => return none

/-- The paths of all that a path leads through, and its own. -/
def stages (path : Path) : List Path :=
  let parts := Path.parts path
  let start := if Path.isAbsolute path then "/" else ""
  (List.range parts.length).map fun count => start ++ "/".intercalate (parts.take (count + 1))

/-- Add what stands at a path to a snapshot. -/
def record (files : FileTree) (path : Path) : IO FileTree :=
  (stages path).foldlM (fun files stage => do
    match ← lookAt stage with
    | none => return files
    | some .directory => return files.putDirectory (files.spelled stage)
    | some node => return files.putFile (files.spelled stage) node) files

/-- Add a directory and the files in it to a snapshot. -/
def recordDirectory (files : FileTree) (path : Path) : IO FileTree := do
  let files ← record files path
  try
    let entries ← (System.mkFilePath [path]).readDir
    entries.foldlM (fun files entry => record files (Path.join path entry.fileName)) files
  catch _ => return files

/-- All that is left of the standard input. -/
def input : IO (List UInt8) := do
  let bytes ← (← IO.getStdin).readBinToEnd
  return bytes.toList

/-- What a call of the program with the given arguments may need. -/
def invocation (arguments : List String) : IO Invocation := do
  let working := Path.parts (toString (← IO.currentDir))
  let library ← IO.getEnv Invocation.libraryVariable
  let environment := (library.map fun path => (Invocation.libraryVariable, path)).toList
  let asked : Invocation := { arguments, environment, files := { working } }
  match Command.ofArguments arguments with
  | .inspect _ (some path) => return { asked with files := ← record asked.files path }
  | .run script =>
    let files ← record asked.files script
    let files ← recordDirectory files asked.config.library
    return { asked with files, input := ← input }
  | _ => return asked

end Environment
end Bir

/-- Answer a call of the program. -/
def main (arguments : List String) : IO UInt32 := do
  let answer := Bir.CommandLine.answer Bir.Script.ampleBound (← Bir.Environment.invocation arguments)
  let output ← IO.getStdout
  output.write answer.output
  output.flush
  IO.eprint answer.errors
  return answer.status.toUInt32
