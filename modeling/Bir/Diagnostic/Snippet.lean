import Bir.Text.Lines

/-!
# Snippets — a source line with a caret under a column

`Diagnostic.snippet` shows a reader where in a source text something stands: the line, and below
it a caret under the column. A line that the text does not have gives no snippet.
-/

namespace Bir
namespace Diagnostic

/-- The line of a text with the given number, counted from one. -/
def sourceLine? (source : String) (line : Nat) : Option String :=
  match line with
  | 0 => none
  | index + 1 => (Text.lines source.toList)[index]?.map String.ofList

/-- A caret under a column, counted from one. -/
def caret (column : Nat) : String :=
  String.ofList (List.replicate (column - 1) ' ') ++ "^"

/-- A source line and below it a caret. -/
def snippet (source : String) (line column : Nat) : Option String :=
  (sourceLine? source line).map fun text => text ++ "\n" ++ caret column

end Diagnostic
end Bir
