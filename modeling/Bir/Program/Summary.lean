import Bir.Program

/-!
# Summaries — what a program is made of, at a glance

`Program.summary` shows how many imports and statements a program has, each import, and the shape
of each block that is declared at the top.
-/

namespace Bir
namespace Program

/-- An import with its position. -/
def importLine (request : Import) : String :=
  "  use \"" ++ request.module ++ "\" @ " ++ request.position.text ++ "\n"

/-- The shape of the block that a statement declares, if it declares one. -/
def shape? : Statement → Option String
  | .block name verbs arguments _ _ =>
    let call := ":".intercalate (name.name :: verbs.map (·.name))
    some (call ++ " [" ++ ", ".intercalate (arguments.map (·.name)) ++ "]")
  | .implementing name parent _ => some (name.name ++ " implements " ++ parent.name)
  | _ => none

/-- A section with a heading, left out if it has no lines. -/
def summarySection (heading : String) (lines : List String) : String :=
  if lines.isEmpty then "" else "\n" ++ heading ++ ":\n" ++ String.join lines

/-- The summary of the program in the file with the given path. -/
def summary (path : String) (program : Program) : String :=
  let shapes := program.statements.filterMap shape?
  "Parse result for '" ++ path ++ "':\n"
    ++ "  Imports: " ++ toString program.imports.length ++ "\n"
    ++ "  Statements: " ++ toString program.statements.length ++ "\n"
    ++ summarySection "Imports" (program.imports.map importLine)
    ++ summarySection "Blocks" (shapes.map fun shape => "  " ++ shape ++ "\n")

end Program
end Bir
