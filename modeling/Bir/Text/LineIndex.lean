import Bir.Position

/-!
# Line indices — from byte offsets to lines and columns

A text is held in UTF-8, and whoever reads it counts bytes; a reader of a message counts lines and
characters.  This file defines:

* `Text.between?` — the characters between two byte offsets;
* `LineIndex` — the byte offsets at which the lines of a text begin;
* `LineIndex.position` — the line and the column of a byte offset.

Only a line feed ends a line; every other character, whatever its width in bytes, is one column.
-/

namespace Bir
namespace Text

/-! ## Byte offsets -/

/-- The characters of the first bytes of a text.  There are none if the text is too short or if the
last byte leaves a character incomplete. -/
def takeBytes? : Nat → List Char → Option (List Char)
  | 0, _ => some []
  | _ + 1, [] => none
  | count + 1, c :: rest =>
    if c.utf8Size ≤ count + 1 then (takeBytes? (count + 1 - c.utf8Size) rest).map (c :: ·) else none

/-- A text without its first bytes, under the same conditions. -/
def dropBytes? : Nat → List Char → Option (List Char)
  | 0, text => some text
  | _ + 1, [] => none
  | count + 1, c :: rest =>
    if c.utf8Size ≤ count + 1 then dropBytes? (count + 1 - c.utf8Size) rest else none

/-- The characters between two byte offsets, if both are boundaries of characters. -/
def between? (text : List Char) (start stop : Nat) : Option (List Char) :=
  if stop < start then none else (dropBytes? start text).bind (takeBytes? (stop - start))

end Text

/-! ## Lines -/

/-- The byte offsets at which the lines of a text begin, in ascending order. -/
structure LineIndex where
  starts : List Nat
  deriving DecidableEq, Repr, Inhabited

namespace LineIndex

/-- Where lines begin behind the line feeds of a text that begins at a byte offset. -/
def startsFrom (offset : Nat) : List Char → List Nat
  | [] => []
  | c :: rest =>
    let next := offset + c.utf8Size
    if c = '\n' then next :: startsFrom next rest else startsFrom next rest

/-- The line index of a text.  Its first line begins at its first byte. -/
def ofText (text : List Char) : LineIndex := ⟨0 :: startsFrom 0 text⟩

/-- The place of a number among ascending ones, or else the place at which it would have to be
inserted. -/
def search (numbers : List Nat) (number : Nat) : Except Nat Nat :=
  let place := (numbers.takeWhile (· < number)).length
  if numbers[place]? = some number then .ok place else .error place

/-- The line of a byte offset, counted from zero: the last one that begins at the offset or before
it. -/
def line (index : LineIndex) (offset : Nat) : Nat :=
  match search index.starts offset with
  | .ok line => line
  | .error next => next - 1

/-- The greatest number of a line or a column; it stands for all that are greater. -/
def greatest : Nat := 0xffffffff

/-- The position of a byte offset in a text, counted from one. -/
def position (index : LineIndex) (text : List Char) (offset : Nat) : Position :=
  let line := index.line offset
  let start := index.starts.getD line 0
  let column := ((Text.between? text start offset).map List.length).getD 0
  ⟨min (line + 1) greatest, min (column + 1) greatest⟩

end LineIndex

end Bir
