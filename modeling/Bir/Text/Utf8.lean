/-!
# UTF-8 — bytes as text, come what may

Bytes that are not the UTF-8 form of any text still have to be shown. This file defines:

* `Utf8.Lead` and `Utf8.lead?` — what the first byte of a character promises;
* `Utf8.follow` — the bytes after it, as far as the promise is kept;
* `Utf8.lossy` — the text of any bytes, where each longest start of a character that does not come
  to one is shown as a single U+FFFD.

The ranges of `Utf8.lead?` leave out overlong forms, surrogates and codes above U+10FFFF, so a
promise that is kept names a character.
-/

namespace Bir
namespace Utf8

/-- What the first byte of a character promises: the top bits of the code, the number of bytes to
follow, and the range of the first of them. -/
structure Lead where
  bits : Nat
  following : Nat
  low : UInt8 := 0x80
  high : UInt8 := 0xBF
  deriving DecidableEq, Repr, Inhabited

/-- What a byte promises as the first one of a character. -/
def lead? (byte : UInt8) : Option Lead :=
  if byte < 0x80 then some ⟨byte.toNat, 0, 0x80, 0xBF⟩
  else if byte < 0xC2 then none
  else if byte < 0xE0 then some ⟨byte.toNat % 32, 1, 0x80, 0xBF⟩
  else if byte = 0xE0 then some ⟨0, 2, 0xA0, 0xBF⟩
  else if byte = 0xED then some ⟨13, 2, 0x80, 0x9F⟩
  else if byte < 0xF0 then some ⟨byte.toNat % 16, 2, 0x80, 0xBF⟩
  else if byte = 0xF0 then some ⟨0, 3, 0x90, 0xBF⟩
  else if byte < 0xF4 then some ⟨byte.toNat % 8, 3, 0x80, 0xBF⟩
  else if byte = 0xF4 then some ⟨4, 3, 0x80, 0x8F⟩
  else none

/-- Read `count` bytes that follow a first one, the next of them between `low` and `high`. Yields
the code, if all are there, and what is left. -/
def follow (low high : UInt8) (code : Nat) : Nat → List UInt8 → Option Nat × List UInt8
  | 0, bytes => (some code, bytes)
  | _ + 1, [] => (none, [])
  | count + 1, byte :: bytes =>
    if low ≤ byte ∧ byte ≤ high then
      follow 0x80 0xBF (code * 64 + byte.toNat % 64) count bytes
    else (none, byte :: bytes)

theorem length_follow_le (low high : UInt8) (code count : Nat) (bytes : List UInt8) :
    (follow low high code count bytes).2.length ≤ bytes.length := by
  induction count generalizing low high code bytes with
  | zero => simp [follow]
  | succ count ih =>
    cases bytes with
    | nil => simp [follow]
    | cons byte bytes =>
      unfold follow
      split
      · exact Nat.le_succ_of_le (ih _ _ _ _)
      · simp

/-- The character that stands for bytes which are none. -/
def replacement : Char := '\uFFFD'

/-- The first character of bytes, and what is left. -/
def firstChar (byte : UInt8) (bytes : List UInt8) : Char × List UInt8 :=
  match lead? byte with
  | none => (replacement, bytes)
  | some lead =>
    let read := follow lead.low lead.high lead.bits lead.following bytes
    (read.1.elim replacement Char.ofNat, read.2)

theorem length_firstChar_le (byte : UInt8) (bytes : List UInt8) :
    (firstChar byte bytes).2.length ≤ bytes.length := by
  unfold firstChar
  split
  · exact Nat.le_refl _
  · exact length_follow_le _ _ _ _ _

/-- A text with the characters of bytes behind it. -/
def lossyOnto (text : String) : List UInt8 → String
  | [] => text
  | byte :: bytes =>
    let next := firstChar byte bytes
    lossyOnto (text.push next.1) next.2
termination_by bytes => bytes.length
decreasing_by exact Nat.lt_succ_of_le (length_firstChar_le byte bytes)

/-- The text of bytes. -/
def lossy (bytes : List UInt8) : String := lossyOnto "" bytes

end Utf8
end Bir
