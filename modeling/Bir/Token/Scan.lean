import Bir.Text.LineIndex
import Bir.Token.Basic
import Bir.Token.Literal

/-!
# Scanning — a source text as a list of tokens

`Token.scan` reads a source text from left to right and stops at the first error. At each
character that is no blank it takes the longest token that starts there:

* a word is a name or, spelled alike, a reserved word; a `-` may be glued to a name;
* a number is decimal, its fraction dropped, or follows `@b`, `@x` or `@o`; a `-` may precede it;
* a string reaches to its closing quote, a comment to the end of its line;
* an operator or mark is the longest of its kind (`Token.Kind.signs`).

`Token.lexemeAt` is one such step; it says how many characters the token takes.
-/

namespace Bir
namespace Token

/-! ## Classes of characters -/

/-- A character between tokens. -/
def isBlank (c : Char) : Bool := c == ' ' || c == '\t' || c == '\r' || c == '\n'

/-- A character that starts a name: an ASCII letter or an underscore. -/
def isNameStart (c : Char) : Bool := c.isAlpha || c == '_'

/-- A character within a name. -/
def isNamePart (c : Char) : Bool := isNameStart c || c.isDigit

/-- A binary digit. -/
def isBinaryDigit (c : Char) : Bool := c == '0' || c == '1'

/-- An octal digit. -/
def isOctalDigit (c : Char) : Bool := '0' ≤ c && c ≤ '7'

/-- A hexadecimal digit, of either case. -/
def isHexadecimalDigit (c : Char) : Bool :=
  c.isDigit || ('a' ≤ c && c ≤ 'f') || ('A' ≤ c && c ≤ 'F')

/-! ## Single tokens -/

/-- What stands at the start of a text: a kind, and the number of characters it takes. -/
abbrev Lexeme := Except LexicalError.Cause (Kind × Nat)

/-- The longest sign that a text starts with. -/
def longestSign? (text : List Char) : Option Kind :=
  (Kind.signs.filter fun sign => sign.symbol.toList.isPrefixOf text).foldl
    (fun best sign =>
      match best with
      | some other => if other.symbol.length < sign.symbol.length then some sign else best
      | none => some sign)
    none

/-- A sign at the start of a text that begins with `c`. -/
def signAt (c : Char) (rest : List Char) : Lexeme :=
  match longestSign? (c :: rest) with
  | some sign => .ok (sign, sign.symbol.length)
  | none => .error (.invalidCharacter c)

/-- A word: a name or a reserved word. -/
def wordAt (text : List Char) : Lexeme :=
  let name := String.ofList (text.takeWhile isNamePart)
  match Keyword.ofSymbol? name with
  | some word => .ok (.keyword word, name.length)
  | none => .ok (.identifier name false, name.length)

/-- A name after a glued `-`. -/
def negativeNameAt (text : List Char) : Lexeme :=
  let name := String.ofList (text.takeWhile isNamePart)
  .ok (.identifier name true, name.length + 1)

/-- The fraction after the whole part of a number, with its point; a point alone is none. -/
def fraction : List Char → List Char
  | '.' :: rest =>
    let digits := rest.takeWhile Char.isDigit
    if digits.isEmpty then [] else '.' :: digits
  | _ => []

/-- The sign of a number as it is written. -/
def writtenSign (negative : Bool) : List Char := if negative then ['-'] else []

/-- A number, or the error that it is out of range. -/
def numberLexeme (value : Option Int64) (literal : List Char) : Lexeme :=
  match value with
  | some value => .ok (.integer value, literal.length)
  | none => .error (.numberOverflow (String.ofList literal))

/-- A decimal number; `text` begins with its first digit. -/
def decimalAt (negative : Bool) (text : List Char) : Lexeme :=
  let whole := text.takeWhile Char.isDigit
  let literal := writtenSign negative ++ whole ++ fraction (text.dropWhile Char.isDigit)
  numberLexeme (Literal.decimal? negative whole) literal

/-- The radix that a letter after `@` announces, and its digits. -/
def radixOf? (c : Char) : Option (Nat × (Char → Bool)) :=
  match c with
  | 'b' => some (2, isBinaryDigit)
  | 'x' => some (16, isHexadecimalDigit)
  | 'o' => some (8, isOctalDigit)
  | _ => none

/-- A number with a radix; `text` follows its `@`. There is none without a digit. -/
def radixNumberAt? (negative : Bool) (text : List Char) : Option Lexeme :=
  match text with
  | [] => none
  | letter :: rest =>
    match radixOf? letter with
    | none => none
    | some (radix, isDigit) =>
      let digits := rest.takeWhile isDigit
      if digits.isEmpty then none
      else
        let literal := writtenSign negative ++ '@' :: letter :: digits
        some (numberLexeme (Literal.radixNumber? negative radix digits) literal)

/-- A string; `text` follows its opening quote. -/
def stringAt (text : List Char) : Lexeme :=
  let literal := '"' :: Literal.reach text
  match Literal.plainText literal with
  | .ok plain => .ok (.text (String.ofList plain), literal.length)
  | .error cause => .error cause

/-- A comment; `text` follows its `#`. -/
def commentAt (text : List Char) : Lexeme :=
  let words := text.takeWhile (· ≠ '\n')
  .ok (.comment (String.ofList words), words.length + 1)

/-- A token that starts with `-`: a glued name, a number, or a sign. -/
def minusAt (rest : List Char) : Lexeme :=
  match rest with
  | [] => signAt '-' rest
  | c :: later =>
    if isNameStart c then negativeNameAt rest
    else if c.isDigit then decimalAt true rest
    else if c = '@' then (radixNumberAt? true later).getD (signAt '-' rest)
    else signAt '-' rest

/-- The token at the start of a text that begins with `c`, which is no blank. -/
def lexemeAt (c : Char) (rest : List Char) : Lexeme :=
  if isNameStart c then wordAt (c :: rest)
  else if c.isDigit then decimalAt false (c :: rest)
  else if c = '-' then minusAt rest
  else if c = '@' then (radixNumberAt? false rest).getD (signAt c rest)
  else if c = '"' then stringAt rest
  else if c = '#' then commentAt rest
  else signAt c rest

/-! ## Whole texts -/

/-- Tokens of the rest of a text, which begins at a byte offset; `place` gives the positions of
offsets.  `read` holds the tokens before it, the last one first, and `skip` counts the characters that
still belong to the last of them. -/
def scanFrom (place : Nat → Position) (read : List Token) (offset skip : Nat) :
    List Char → Except LexicalError (List Token)
  | [] => .ok (⟨.endOfFile, place offset⟩ :: read).reverse
  | c :: rest =>
    match skip with
    | skip + 1 => scanFrom place read (offset + c.utf8Size) skip rest
    | 0 =>
      if isBlank c then scanFrom place read (offset + c.utf8Size) 0 rest
      else
        match lexemeAt c rest with
        | .ok (kind, length) =>
          scanFrom place (⟨kind, place offset⟩ :: read) (offset + c.utf8Size) (length - 1) rest
        | .error cause => .error ⟨cause, place offset⟩

/-- The tokens of a source text, closed by the end of the file. -/
def scan (source : String) : Except LexicalError (List Token) :=
  let text := source.toList
  scanFrom ((LineIndex.ofText text).position text) [] 0 0 text

end Token
end Bir
