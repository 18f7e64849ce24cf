/-!
# Blank text — text with nothing to read

`Text.isBlank` says whether a text consists of white space alone, for the characters that the
Unicode property `White_Space` names.
-/

namespace Bir
namespace Text

/-- The ranges of characters that are white space. -/
def spaceRanges : List (Nat × Nat) :=
  [(0x09, 0x0D), (0x20, 0x20), (0x85, 0x85), (0xA0, 0xA0), (0x1680, 0x1680), (0x2000, 0x200A),
    (0x2028, 0x2029), (0x202F, 0x202F), (0x205F, 0x205F), (0x3000, 0x3000)]

/-- Whether a character is white space. -/
def isSpace (c : Char) : Bool :=
  spaceRanges.any fun (first, last) => first ≤ c.toNat && c.toNat ≤ last

/-- Whether a text consists of white space alone. -/
def isBlank (text : String) : Bool := text.toList.all isSpace

end Text
end Bir
