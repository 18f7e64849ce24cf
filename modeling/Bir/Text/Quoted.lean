import Bir.Text.Unprintable

/-!
# Quoted text — text between double quotes, with escapes

A quoted text shows each of its characters on one line, unambiguously. This file defines:

* `Text.escape` — how one character is shown;
* `Text.quoted` — a whole text.

A character with a short escape is shown by it, and one that does not stand for itself by its code
in hexadecimal digits.
-/

namespace Bir
namespace Text

/-- The character after the backslash in the short escape of a character. -/
def shortEscape? : Char → Option Char
  | '\x00' => some '0'
  | '\t' => some 't'
  | '\r' => some 'r'
  | '\n' => some 'n'
  | '\\' => some '\\'
  | '"' => some '"'
  | _ => none

/-- The code of a character, as an escape. -/
def codeEscape (c : Char) : String :=
  "\\u\x7b" ++ String.ofList (Nat.toDigits 16 c.toNat) ++ "\x7d"

/-- A character as shown between double quotes. -/
def escape (c : Char) : String :=
  match shortEscape? c with
  | some letter => String.ofList ['\\', letter]
  | none => if isPrintable c then String.singleton c else codeEscape c

/-- A text between double quotes. -/
def quoted (text : String) : String :=
  text.foldl (fun shown c => shown ++ escape c) "\"" ++ "\""

end Text
end Bir
