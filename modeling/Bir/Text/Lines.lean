/-!
# Lines — a text cut at its line feeds

`Text.lines` cuts a text into its lines. A line ends at a line feed or at the end of the text; a
carriage return just before the line feed belongs to the line's end, and no empty line follows a
final line feed. A carriage return anywhere else is part of its line.
-/

namespace Bir
namespace Text

/-- A line that a line feed ended, given in reverse: one carriage return at its end is dropped. -/
def endLine : List Char → List Char
  | '\r' :: reversed => reversed.reverse
  | reversed => reversed.reverse

/-- The lines of a text whose current line has begun with `reversed`, in reverse. -/
def linesFrom (reversed : List Char) : List Char → List (List Char)
  | [] => if reversed.isEmpty then [] else [reversed.reverse]
  | c :: rest =>
    if c = '\n' then endLine reversed :: linesFrom [] rest else linesFrom (c :: reversed) rest

/-- The lines of a text. -/
def lines (text : List Char) : List (List Char) := linesFrom [] text

end Text
end Bir
