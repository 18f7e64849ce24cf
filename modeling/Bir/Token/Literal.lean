import Bir.Token.Error

/-!
# Literals — numbers and strings as they are written

This file defines what a literal denotes and how far it reaches:

* `Literal.decimal?` and `Literal.radixNumber?` — numbers, refused when out of range;
* `Literal.reach` — how far a string reaches, if need be without a closing quote;
* `Literal.plainText` — the text that a string denotes, refused without a closing quote that no
  backslash escapes and at the first unknown escape.
-/

namespace Bir
namespace Literal

/-! ## Numbers -/

/-- The value of a digit; letters count from ten. -/
def digitValue (c : Char) : Nat :=
  if c.isDigit then c.toNat - '0'.toNat
  else if c.isLower then c.toNat - 'a'.toNat + 10
  else if c.isUpper then c.toNat - 'A'.toNat + 10
  else 0

/-- The number that digits denote in a radix, the first digit the most significant. -/
def digitsValue (radix : Nat) (digits : List Char) : Nat :=
  digits.foldl (fun value digit => value * radix + digitValue digit) 0

/-- An integer as a 64-bit value, if it is in range. -/
def inRange? (value : Int) : Option Int64 :=
  if Int64.minValue.toInt ≤ value ∧ value ≤ Int64.maxValue.toInt then some (Int64.ofInt value)
  else none

/-- The value of a decimal literal: its whole part with its sign. -/
def decimal? (negative : Bool) (whole : List Char) : Option Int64 :=
  let value : Int := digitsValue 10 whole
  inRange? (if negative then -value else value)

/-- The value of a literal in another radix: its magnitude has to be in range, the sign is applied
afterwards. -/
def radixNumber? (negative : Bool) (radix : Nat) (digits : List Char) : Option Int64 :=
  (inRange? (digitsValue radix digits)).map fun value => if negative then -value else value

/-! ## Strings -/

/-- How far a string reaches behind its opening quote: over characters and pairs of a backslash and a
character, none of them a line feed, and over a closing quote, if there is one. -/
def reach : List Char → List Char
  | '\\' :: c :: rest => if c = '\n' then [] else '\\' :: c :: reach rest
  | c :: rest =>
    if c = '"' then ['"']
    else if c = '\\' ∨ c = '\n' then []
    else c :: reach rest
  | [] => []

/-- What stands between quotes. -/
def unquoted? : List Char → Option (List Char)
  | '"' :: rest => if rest.getLast? = some '"' then some rest.dropLast else none
  | _ => none

/-- Whether the last character of a string is escaped: an odd number of backslashes stands before
it. -/
def endsEscaped (literal : List Char) : Bool :=
  (literal.dropLast.reverse.takeWhile (· = '\\')).length % 2 == 1

/-- The character that a backslash and the character `c` stand for. -/
def escaped? (c : Char) : Option Char :=
  match c with
  | '"' => some '"'
  | '\\' => some '\\'
  | 'n' => some '\n'
  | 't' => some '\t'
  | 'r' => some '\r'
  | 'b' => some '\x08'
  | 'f' => some '\x0c'
  | _ => none

/-- The text that stands for what is between quotes. -/
def unescape : List Char → Except LexicalError.Cause (List Char)
  | [] => .ok []
  | ['\\'] => .error .unterminatedString
  | '\\' :: c :: rest =>
    match escaped? c with
    | none => .error (.invalidEscape c)
    | some plain => (unescape rest).map (plain :: ·)
  | c :: rest => (unescape rest).map (c :: ·)

/-- The text that a string with its quotes denotes.  A quote that is escaped closes nothing. -/
def plainText (literal : List Char) : Except LexicalError.Cause (List Char) :=
  match unquoted? literal with
  | none => .error .unterminatedString
  | some inner =>
    if literal.length < 2 || endsEscaped literal then .error .unterminatedString
    else unescape inner

end Literal
end Bir
