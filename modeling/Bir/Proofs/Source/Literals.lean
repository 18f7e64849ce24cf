import Bir.Token.Scan
import Mathlib.Data.List.Induction

/-!
# Literals — numbers and strings as they are spelled

A number is printed in decimal, with a `-` if it is negative, and a string with a backslash before
each quote and backslash, and with `\n` for a line feed.  This file defines:

* `Literal.magnitude` — the digits of a number without its sign;
* `Literal.Piece` — what stands between quotes, told piece by piece from the left;
* `Literal.escape` — a character as it is spelled between quotes.

Numbers are read back: `Literal.decimal?_magnitude`.  A string is taken up to the quote at which its
pieces end, `Token.stringAt_closed`, and is unterminated if there is none, `Token.stringAt_unclosed`,
although the scanner pairs no backslashes but counts those before the last quote.
-/

namespace Bir
namespace Literal

/-! ## Numbers -/

/-- The decimal digits of a number without its sign. -/
def magnitude (value : Int64) : List Char := Nat.toDigits 10 value.toInt.natAbs

theorem isDigit_of_mem_magnitude {value : Int64} {c : Char} (h : c ∈ magnitude value) :
    c.isDigit = true :=
  Nat.isDigit_of_mem_toDigits (by decide) (by decide) h

theorem magnitude_ne_nil (value : Int64) : magnitude value ≠ [] := Nat.toDigits_ne_nil

/-- A number is printed as its sign and its digits. -/
theorem toList_toString (value : Int64) : (toString value.toInt).toList =
    Token.writtenSign (decide (value.toInt < 0)) ++ magnitude value := by
  unfold magnitude
  cases value.toInt with
  | ofNat n =>
      have hsign : decide (Int.ofNat n < 0) = false :=
        decide_eq_false (Int.not_lt.2 (Int.natCast_nonneg n))
      rw [hsign]
      exact Nat.toList_repr
  | negSucc n =>
      have hsign : decide (Int.negSucc n < 0) = true := decide_eq_true (Int.negSucc_lt_zero n)
      rw [hsign]
      exact String.toList_append.trans (congrArg _ Nat.toList_repr)

/-- Digits denote the same number for a scanner as for the library. -/
theorem digitsValue_eq_ofDigitChars {digits : List Char} (h : ∀ c ∈ digits, c.isDigit = true) :
    digitsValue 10 digits = Nat.ofDigitChars 10 digits 0 := by
  have hfold : ∀ start, digits.foldl (fun value digit => value * 10 + digitValue digit) start =
      Nat.ofDigitChars 10 digits start := by
    induction digits with
    | nil => exact fun start => rfl
    | cons c rest ih =>
        obtain ⟨hdigit, hrest⟩ := List.forall_mem_cons.1 h
        intro start
        rw [List.foldl_cons, ih hrest, Nat.ofDigitChars_cons, digitValue, if_pos hdigit, Nat.mul_comm]
  exact hfold 0

theorem inRange?_toInt (value : Int64) : inRange? value.toInt = some value := by
  rw [inRange?, if_pos ⟨value.minValue_le_toInt, value.toInt_le⟩, Int64.ofInt_toInt]

/-- The digits of a number and its sign denote the number, be it the least one. -/
theorem decimal?_magnitude (value : Int64) :
    decimal? (decide (value.toInt < 0)) (magnitude value) = some value := by
  have hdigits : digitsValue 10 (magnitude value) = value.toInt.natAbs :=
    (digitsValue_eq_ofDigitChars fun c => isDigit_of_mem_magnitude).trans Nat.ofDigitChars_ten_toDigits
  have hsigned : (if decide (value.toInt < 0) then -(value.toInt.natAbs : Int)
      else value.toInt.natAbs) = value.toInt := by
    simp only [decide_eq_true_eq]
    split <;> omega
  rw [decimal?, hdigits, hsigned, inRange?_toInt]

/-! ## Pieces of strings -/

/-- What stands between quotes, told from the left: a character, or a backslash and the character that
is paired with it. -/
inductive Piece where
  | plain (c : Char)
  | escaped (c : Char)
  deriving DecidableEq, Repr

/-- The escapes and what they stand for. -/
def escapes : List (Char × Char) :=
  [('"', '"'), ('\\', '\\'), ('n', '\n'), ('t', '\t'), ('r', '\r'), ('b', '\x08'), ('f', '\x0c')]

namespace Piece

/-- A piece as it is written. -/
def spelling : Piece → List Char
  | .plain c => [c]
  | .escaped c => ['\\', c]

/-- A plain piece is neither a quote nor a backslash, and no piece has a line feed. -/
def Fits : Piece → Prop
  | .plain c => c ≠ '"' ∧ c ≠ '\\' ∧ c ≠ '\n'
  | .escaped c => c ≠ '\n'

instance : DecidablePred Fits
  | .plain _ => inferInstanceAs (Decidable (_ ∧ _ ∧ _))
  | .escaped _ => inferInstanceAs (Decidable (_ ≠ _))

/-- The character that a piece stands for, or that of an unknown escape. -/
def meaning : Piece → Except Char Char
  | .plain c => .ok c
  | .escaped c =>
    match escapes.lookup c with
    | some value => .ok value
    | none => .error c

end Piece

/-- Pieces as they are written. -/
def spell (pieces : List Piece) : List Char := pieces.flatMap Piece.spelling

variable {pieces : List Piece}

@[simp]
theorem spell_nil : spell [] = [] := rfl

@[simp]
theorem spell_cons (piece : Piece) (pieces : List Piece) :
    spell (piece :: pieces) = piece.spelling ++ spell pieces := rfl

@[simp]
theorem spell_append (pieces others : List Piece) :
    spell (pieces ++ others) = spell pieces ++ spell others :=
  List.flatMap_append

/-! ### How far strings reach -/

theorem reach_cons_of_plain {c : Char} (quote : c ≠ '"') (slash : c ≠ '\\') (feed : c ≠ '\n')
    (rest : List Char) : reach (c :: rest) = c :: reach rest := by
  rw [reach.eq_2 c rest fun _ _ hc => absurd hc slash, if_neg quote, if_neg (by simp [slash, feed])]

theorem reach_spelling {piece : Piece} (fits : piece.Fits) (rest : List Char) :
    reach (piece.spelling ++ rest) = piece.spelling ++ reach rest := by
  cases piece with
  | plain c => exact reach_cons_of_plain fits.1 fits.2.1 fits.2.2 rest
  | escaped c =>
      have hfeed : c ≠ '\n' := fits
      simp [Piece.spelling, reach, hfeed]

/-- A string reaches over all its pieces. -/
theorem reach_spell (fits : ∀ piece ∈ pieces, piece.Fits) (rest : List Char) :
    reach (spell pieces ++ rest) = spell pieces ++ reach rest := by
  induction pieces with
  | nil => rfl
  | cons piece pieces ih =>
      obtain ⟨hpiece, hpieces⟩ := List.forall_mem_cons.1 fits
      rw [spell_cons, List.append_assoc, reach_spelling hpiece, ih hpieces, List.append_assoc]

/-- What ends a string without a closing quote: the end of the text or of the line, be it behind a
backslash that is paired with nothing. -/
inductive Breaks : List Char → Prop
  | text : Breaks []
  | line (rest : List Char) : Breaks ('\n' :: rest)
  | escapedText : Breaks ['\\']
  | escapedLine (rest : List Char) : Breaks ('\\' :: '\n' :: rest)

theorem Breaks.reach_eq {rest : List Char} (h : Breaks rest) : reach rest = [] := by
  cases h <;> simp [reach]

/-- Told from the left, a text is pieces up to a quote or up to what ends a string without one. -/
theorem exists_pieces (text : List Char) : ∃ pieces rest, text = spell pieces ++ rest ∧
    (∀ piece ∈ pieces, piece.Fits) ∧ ((∃ later, rest = '"' :: later) ∨ Breaks rest) := by
  have more : ∀ (piece : Piece) (text : List Char), piece.Fits →
      (∃ pieces rest, text = spell pieces ++ rest ∧ (∀ piece ∈ pieces, piece.Fits) ∧
        ((∃ later, rest = '"' :: later) ∨ Breaks rest)) →
      ∃ pieces rest, piece.spelling ++ text = spell pieces ++ rest ∧
        (∀ piece ∈ pieces, piece.Fits) ∧ ((∃ later, rest = '"' :: later) ∨ Breaks rest) := by
    rintro piece text hpiece ⟨pieces, rest, rfl, hpieces, hrest⟩
    exact ⟨piece :: pieces, rest, by simp, List.forall_mem_cons.2 ⟨hpiece, hpieces⟩, hrest⟩
  induction text using reach.induct with
  | case1 rest => exact ⟨[], _, rfl, by simp, .inr (.escapedLine rest)⟩
  | case2 c rest hfeed ih => exact more (.escaped c) rest hfeed ih
  | case3 rest => exact ⟨[], _, rfl, by simp, .inl ⟨rest, rfl⟩⟩
  | case4 c rest hpair hquote hends =>
      rcases hends with rfl | rfl
      · cases rest with
        | nil => exact ⟨[], _, rfl, by simp, .inr .escapedText⟩
        | cons d rest => exact (hpair d rest rfl rfl).elim
      · exact ⟨[], _, rfl, by simp, .inr (.line rest)⟩
  | case5 c rest hpair hquote hends ih =>
      obtain ⟨hslash, hfeed⟩ := not_or.1 hends
      exact more (.plain c) rest ⟨hquote, hslash, hfeed⟩ ih
  | case6 => exact ⟨[], [], rfl, by simp, .inr .text⟩

/-! ### Quotes that close nothing -/

/-- Behind whole pieces an even number of backslashes stands last: each is paired. -/
theorem even_backslashes (fits : ∀ piece ∈ pieces, piece.Fits) :
    (('"' :: spell pieces).reverse.takeWhile (· = '\\')).length % 2 = 0 := by
  induction pieces using List.reverseRecOn with
  | nil => rfl
  | append_singleton pieces piece ih =>
      have hpieces : ∀ piece ∈ pieces, piece.Fits := fun other hother =>
        fits other (List.mem_append_left _ hother)
      have hlast : (spell [piece]).reverse = piece.spelling.reverse := by simp
      have heven := ih hpieces
      rw [spell_append, ← List.cons_append, List.reverse_append, hlast]
      generalize ('"' :: spell pieces).reverse = before at heven ⊢
      cases piece with
      | plain c =>
          have hslash : c ≠ '\\' := (fits (.plain c) (by simp)).2.1
          simp [Piece.spelling, hslash]
      | escaped c =>
          by_cases hslash : c = '\\'
          · have hpair : ((Piece.escaped c).spelling.reverse ++ before).takeWhile (· = '\\') =
                '\\' :: '\\' :: before.takeWhile (· = '\\') := by
              simp [Piece.spelling, hslash]
            rw [hpair, List.length_cons, List.length_cons]
            omega
          · simp [Piece.spelling, hslash]

/-- A closing quote is not escaped. -/
theorem endsEscaped_closed (fits : ∀ piece ∈ pieces, piece.Fits) :
    endsEscaped ('"' :: (spell pieces ++ ['"'])) = false := by
  have heven := even_backslashes fits
  rw [endsEscaped, ← List.cons_append, List.dropLast_concat, heven]
  rfl

/-- A quote that ends the last piece is escaped. -/
theorem endsEscaped_unclosed (fits : ∀ piece ∈ pieces, piece.Fits)
    (quote : (spell pieces).getLast? = some '"') : endsEscaped ('"' :: spell pieces) = true := by
  obtain rfl | ⟨pieces, piece, rfl⟩ := List.eq_nil_or_concat pieces
  · cases quote
  · have hpieces : ∀ piece ∈ pieces, piece.Fits := fun other hother =>
      fits other (by simp [hother])
    have heven := even_backslashes hpieces
    cases piece with
    | plain c =>
        have hquote : c = '"' := by simpa [Piece.spelling] using quote
        exact absurd hquote (fits (.plain c) (by simp)).1
    | escaped c =>
        obtain rfl : c = '"' := by simpa [Piece.spelling] using quote
        have hlast : '"' :: spell (pieces.concat (.escaped '"')) =
            ('"' :: spell pieces ++ ['\\']) ++ ['"'] := by
          simp [Piece.spelling]
        rw [endsEscaped, hlast, List.dropLast_concat, List.reverse_append]
        simp only [List.reverse_singleton, List.singleton_append, decide_true,
          List.takeWhile_cons_of_pos, List.length_cons, beq_iff_eq]
        omega

/-! ### What strings denote -/

theorem escaped?_eq_lookup (c : Char) : escaped? c = escapes.lookup c := by
  unfold escaped? escapes
  split
  case h_8 =>
    refine (List.lookup_eq_none_iff.2 ?_).symm
    simp_all
  all_goals rfl

theorem unescape_cons_of_plain {c : Char} (slash : c ≠ '\\') (rest : List Char) :
    unescape (c :: rest) = (unescape rest).map (c :: ·) := by
  rw [unescape.eq_4]
  · exact fun hc => absurd hc slash
  · exact fun _ _ hc => absurd hc slash

/-- Pieces denote what they stand for one by one, up to the first unknown escape. -/
theorem unescape_spell (fits : ∀ piece ∈ pieces, piece.Fits) :
    unescape (spell pieces) = (pieces.mapM Piece.meaning).mapError .invalidEscape := by
  induction pieces with
  | nil => rfl
  | cons piece pieces ih =>
      obtain ⟨hpiece, hpieces⟩ := List.forall_mem_cons.1 fits
      rw [spell_cons, List.mapM_cons]
      cases piece with
      | plain c =>
          rw [Piece.spelling, List.singleton_append, unescape_cons_of_plain hpiece.2.1, ih hpieces]
          cases pieces.mapM Piece.meaning <;> rfl
      | escaped c =>
          simp only [Piece.spelling, List.cons_append, List.nil_append, unescape, Piece.meaning,
            escaped?_eq_lookup, ih hpieces]
          cases escapes.lookup c with
          | none => rfl
          | some plain => cases pieces.mapM Piece.meaning <;> rfl

theorem plainText_closed (fits : ∀ piece ∈ pieces, piece.Fits) :
    plainText ('"' :: (spell pieces ++ ['"'])) =
      (pieces.mapM Piece.meaning).mapError .invalidEscape := by
  have hinner : unquoted? ('"' :: (spell pieces ++ ['"'])) = some (spell pieces) := by
    simp [unquoted?]
  have hlong : ¬ ('"' :: (spell pieces ++ ['"'])).length < 2 := by simp
  simp only [plainText, hinner, hlong, endsEscaped_closed fits, unescape_spell fits, decide_false,
    Bool.or_false, Bool.false_eq_true, if_false]

theorem plainText_unclosed (fits : ∀ piece ∈ pieces, piece.Fits) :
    plainText ('"' :: spell pieces) = .error .unterminatedString := by
  by_cases hquote : (spell pieces).getLast? = some '"'
  · have hescaped := endsEscaped_unclosed fits hquote
    simp [plainText, unquoted?, hquote, hescaped]
  · simp [plainText, unquoted?, hquote]

/-! ## Strings as they are printed -/

/-- A character as it is spelled between quotes. -/
def escape (c : Char) : List Char :=
  if c = '\n' then ['\\', 'n'] else if c = '"' ∨ c = '\\' then ['\\', c] else [c]

/-- The piece that spells a character. -/
def Piece.ofChar (c : Char) : Piece :=
  if c = '\n' then .escaped 'n' else if c = '"' ∨ c = '\\' then .escaped c else .plain c

theorem Piece.spelling_ofChar (c : Char) : (ofChar c).spelling = escape c := by
  unfold ofChar escape
  split
  · rfl
  · split <;> rfl

theorem Piece.fits_ofChar (c : Char) : (ofChar c).Fits := by
  unfold ofChar
  split
  · decide
  · rename_i hfeed
    split
    · exact hfeed
    · rename_i hplain
      exact ⟨(not_or.1 hplain).1, (not_or.1 hplain).2, hfeed⟩

theorem Piece.meaning_ofChar (c : Char) : (ofChar c).meaning = .ok c := by
  unfold ofChar
  split
  · rename_i hfeed
    rw [hfeed]
    rfl
  · split
    · rename_i hescaped
      rcases hescaped with rfl | rfl <;> rfl
    · rfl

theorem spell_ofChar (plain : List Char) : spell (plain.map Piece.ofChar) = plain.flatMap escape := by
  simp [spell, List.flatMap_map, Piece.spelling_ofChar]

theorem mapM_meaning_ofChar (plain : List Char) :
    (plain.map Piece.ofChar).mapM Piece.meaning = .ok plain := by
  induction plain with
  | nil => rfl
  | cons c plain ih =>
      rw [List.map_cons, List.mapM_cons, ih, Piece.meaning_ofChar]
      rfl

end Literal

namespace Token

open Literal

variable {pieces : List Piece}

/-- A string is closed by the quote at which its pieces end, and denotes what they stand for. -/
theorem stringAt_closed (fits : ∀ piece ∈ pieces, piece.Fits) (later : List Char) :
    stringAt (spell pieces ++ '"' :: later) =
      match pieces.mapM Piece.meaning with
      | .ok plain => .ok (.text (String.ofList plain), (spell pieces).length + 2)
      | .error c => .error (.invalidEscape c) := by
  have hreach : reach ('"' :: later) = ['"'] := by simp [reach]
  simp only [stringAt, reach_spell fits, hreach, plainText_closed fits]
  cases pieces.mapM Piece.meaning <;> simp [Except.mapError]

/-- A string that a line or the text ends is unterminated, whatever its escapes are. -/
theorem stringAt_unclosed (fits : ∀ piece ∈ pieces, piece.Fits) {rest : List Char}
    (breaks : Breaks rest) : stringAt (spell pieces ++ rest) = .error .unterminatedString := by
  simp only [stringAt, reach_spell fits, breaks.reach_eq, List.append_nil, plainText_unclosed fits]

end Token
end Bir
