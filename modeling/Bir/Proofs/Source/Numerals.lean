import Bir.Proofs.Source.Literals
import Bir.Proofs.Source.Progress
import Mathlib.Data.Nat.Digits.Defs

/-!
# Numerals — numbers denote their value

A numeral is a run of digits in a radix.  This file defines:

* `Literal.Digit` — a digit of a radix and its value, by its place among the digits;
* `Literal.Denotes` — digits and the number that they denote;
* `Literal.Numeral` — how a number is written, and its value;
* `Literal.Fits` — the values that the scanner accepts;
* `Token.Longest` — a numeral does not go on in what stands behind it.

The scanner adds digits up from the left and tells them by the ranges of their codes; it gives the value
of a numeral if it is in range, save for the least number in a radix other than ten:
`Token.numerals_denote_their_values`, `Token.least_number_is_refused_in_radix`.
-/

namespace Bir
namespace Literal

/-! ## Digits -/

/-- The digits, each in the place of its value. -/
def lowerDigits : List Char := "0123456789abcdef".toList

/-- The digits with capital letters. -/
def upperDigits : List Char := "0123456789ABCDEF".toList

/-- A character is the digit of a value in a radix. -/
def Digit (radix : Nat) (c : Char) (value : Nat) : Prop :=
  value < radix ∧ (lowerDigits[value]? = some c ∨ upperDigits[value]? = some c)

instance (radix : Nat) (c : Char) (value : Nat) : Decidable (Digit radix c value) :=
  inferInstanceAs (Decidable (_ ∧ (_ ∨ _)))

/-- Digits denote a number in a radix, the last one as often as it is, the one before `radix` times. -/
def Denotes (radix : Nat) (digits : List Char) (number : Nat) : Prop :=
  digits ≠ [] ∧ ∃ values, List.Forall₂ (Digit radix) digits values ∧
    number = Nat.ofDigits radix values.reverse

/-- The radix of a letter behind `@`. -/
def radixes : List (Char × Nat) := [('b', 2), ('x', 16), ('o', 8)]

/-- The part of a decimal behind its point, with the point, if there is one. -/
inductive Fraction : List Char → Prop
  | none : Fraction []
  | digits {digits : List Char} {number : Nat} (denotes : Denotes 10 digits number) :
      Fraction ('.' :: digits)

/-- A number with its sign. -/
def signed (negative : Bool) (number : Nat) : Int := if negative then -number else number

/-- How numbers are written, and their values. -/
inductive Numeral : List Char → Int → Prop
  | decimal (negative : Bool) {whole fraction : List Char} {number : Nat}
      (denotes : Denotes 10 whole number) (part : Fraction fraction) :
      Numeral (Token.writtenSign negative ++ whole ++ fraction) (signed negative number)
  | radix (negative : Bool) {letter : Char} {radix number : Nat} {digits : List Char}
      (listed : (letter, radix) ∈ radixes) (denotes : Denotes radix digits number) :
      Numeral (Token.writtenSign negative ++ '@' :: letter :: digits) (signed negative number)

/-- A value of 64 bits, but for a radix other than ten not the least one. -/
def Fits (text : List Char) (value : Int) : Prop :=
  (-2 ^ 63 ≤ value ∧ value ≤ 2 ^ 63 - 1) ∧ ('@' ∈ text → value ≠ -2 ^ 63)

/-- A result is the value of a numeral that fits, or there is none. -/
def Represents (text : List Char) (value : Int) : Option Int64 → Prop
  | some number => Fits text value ∧ number.toInt = value
  | none => ¬ Fits text value

/-! ### Digits as the scanner tells them -/

theorem digitValue_of_digit {radix value : Nat} {c : Char} (h : Digit radix c value) :
    digitValue c = value := by
  -- The scanner's values of the digits in a table are their places.
  have hplaces : ∀ digits : List Char, digits.map digitValue = List.range 16 →
      digits[value]? = some c → digitValue c = value := by
    intro digits hvalues hdigit
    have hvalue := congrArg (fun values => values[value]?) hvalues
    simp only [List.getElem?_map, hdigit, Option.map_some] at hvalue
    have hlt := (List.getElem?_eq_some_iff.1 hvalue.symm).1
    rw [List.getElem?_range (by simpa using hlt)] at hvalue
    exact Option.some.inj hvalue
  obtain ⟨-, h | h⟩ := h
  · exact hplaces lowerDigits (by decide) h
  · exact hplaces upperDigits (by decide) h

/-- Adding digits up from the left gives the number that they denote. -/
theorem digitsValue_of_denotes {radix number : Nat} {digits : List Char}
    (h : Denotes radix digits number) : digitsValue radix digits = number := by
  obtain ⟨-, values, hvalues, rfl⟩ := h
  have hfold : ∀ start, digits.foldl (fun value digit => value * radix + digitValue digit) start =
      start * radix ^ values.length + Nat.ofDigits radix values.reverse := by
    induction hvalues with
    | nil => simp
    | @cons c value digits values hdigit hvalues ih =>
        intro start
        calc
          (c :: digits).foldl (fun value digit => value * radix + digitValue digit) start
              = (start * radix + value) * radix ^ values.length +
                  Nat.ofDigits radix values.reverse := by
            rw [List.foldl_cons, ih, digitValue_of_digit hdigit]
          _ = start * radix ^ (values.length + 1) +
                (Nat.ofDigits radix values.reverse + radix ^ values.length * value) := by ring
          _ = start * radix ^ (value :: values).length +
                Nat.ofDigits radix (value :: values).reverse := by
            rw [List.reverse_cons, Nat.ofDigits_append, List.length_reverse, List.length_cons,
              Nat.ofDigits_singleton]
  rw [digitsValue, hfold 0, Nat.zero_mul, Nat.zero_add]

/-- A class of characters is that of the digits of a radix. -/
def IsClass (radix : Nat) (isDigit : Char → Bool) : Prop :=
  ∀ c, isDigit c = true ↔ ∃ value, Digit radix c value

theorem exists_digit_iff {radix : Nat} {c : Char} : (∃ value, Digit radix c value) ↔
    c ∈ lowerDigits.take radix ∨ c ∈ upperDigits.take radix := by
  simp only [Digit, and_or_left, exists_or, List.mem_iff_getElem?, List.getElem?_take,
    Option.ite_none_right_eq_some]

/-- Classes of characters need to be compared among the first 128 characters only. -/
theorem isClass_of_ascii {radix : Nat} {isDigit : Char → Bool}
    (ascii : ∀ c, isDigit c = true → c.toNat < 128)
    (digits : (((List.range 128).map Char.ofNat).filter isDigit).all
      (lowerDigits.take radix ++ upperDigits.take radix).contains = true)
    (all : (lowerDigits.take radix ++ upperDigits.take radix).all isDigit = true) :
    IsClass radix isDigit := by
  intro c
  rw [exists_digit_iff, ← List.mem_append]
  constructor
  · intro h
    have hrange := List.mem_range.2 (ascii c h)
    have hmem := List.mem_filter.2 ⟨List.mem_map.2 ⟨c.toNat, hrange, Char.ofNat_toNat c⟩, h⟩
    exact List.contains_iff_mem.1 (List.all_eq_true.1 digits c hmem)
  · exact List.all_eq_true.1 all c

theorem toNat_lt_of_le {c : Char} (h : c ≤ 'f') : c.toNat < 128 :=
  Nat.lt_of_le_of_lt (UInt32.le_iff_toNat_le.1 h) (by decide)

theorem isClass_decimal : IsClass 10 Char.isDigit := by
  refine isClass_of_ascii ?_ (by decide) (by decide)
  intro c h
  exact Nat.lt_of_le_of_lt (Char.isDigit_iff_toNat.1 h).2 (by decide)

theorem isClass_binary : IsClass 2 Token.isBinaryDigit := by
  refine isClass_of_ascii ?_ (by decide) (by decide)
  intro c h
  simp only [Token.isBinaryDigit, Bool.or_eq_true, beq_iff_eq] at h
  obtain rfl | rfl := h <;> decide

theorem isClass_octal : IsClass 8 Token.isOctalDigit := by
  refine isClass_of_ascii ?_ (by decide) (by decide)
  intro c h
  simp only [Token.isOctalDigit, Bool.and_eq_true, decide_eq_true_eq] at h
  exact toNat_lt_of_le (h.2.trans (by decide))

theorem isClass_hexadecimal : IsClass 16 Token.isHexadecimalDigit := by
  refine isClass_of_ascii ?_ (by decide) (by decide)
  intro c h
  simp only [Token.isHexadecimalDigit, Bool.or_eq_true, Bool.and_eq_true, decide_eq_true_eq] at h
  obtain (hdigit | ⟨-, hle⟩) | ⟨-, hle⟩ := h
  · exact Nat.lt_of_le_of_lt (Char.isDigit_iff_toNat.1 hdigit).2 (by decide)
  · exact toNat_lt_of_le hle
  · exact toNat_lt_of_le (hle.trans (by decide))

/-- All digits of a class denote a number. -/
theorem IsClass.exists_denotes {radix : Nat} {isDigit : Char → Bool} (h : IsClass radix isDigit)
    {digits : List Char} (nonempty : digits ≠ []) (all : ∀ c ∈ digits, isDigit c = true) :
    ∃ number, Denotes radix digits number := by
  have hvalues : ∃ values, List.Forall₂ (Digit radix) digits values := by
    clear nonempty
    induction digits with
    | nil => exact ⟨[], .nil⟩
    | cons c digits ih =>
        obtain ⟨hc, hdigits⟩ := List.forall_mem_cons.1 all
        obtain ⟨values, hvalues⟩ := ih hdigits
        obtain ⟨value, hvalue⟩ := (h c).1 hc
        exact ⟨value :: values, .cons hvalue hvalues⟩
  obtain ⟨values, hvalues⟩ := hvalues
  exact ⟨_, nonempty, values, hvalues, rfl⟩

theorem IsClass.forall_of_denotes {radix number : Nat} {isDigit : Char → Bool}
    (h : IsClass radix isDigit) {digits : List Char} (denotes : Denotes radix digits number) :
    ∀ c ∈ digits, isDigit c = true := by
  obtain ⟨-, values, hvalues, -⟩ := denotes
  induction hvalues with
  | nil => simp
  | @cons c value digits values hdigit hvalues ih =>
      exact List.forall_mem_cons.2 ⟨(h c).2 ⟨value, hdigit⟩, ih⟩

/-! ## Values in range -/

theorem inRange?_eq (value : Int) : inRange? value =
    if -2 ^ 63 ≤ value ∧ value ≤ 2 ^ 63 - 1 then some (Int64.ofInt value) else none := rfl

theorem toInt_ofInt {value : Int} (lower : -2 ^ 63 ≤ value) (upper : value ≤ 2 ^ 63 - 1) :
    (Int64.ofInt value).toInt = value :=
  Int64.toInt_ofInt_of_le lower (by omega)

theorem represents_decimal? {whole text : List Char} {number : Nat} (denotes : Denotes 10 whole number)
    (negative : Bool) (decimal : '@' ∉ text) :
    Represents text (signed negative number) (decimal? negative whole) := by
  rw [decimal?, digitsValue_of_denotes denotes, ← signed, inRange?_eq]
  split
  · rename_i hrange
    exact ⟨⟨hrange, fun hat => (decimal hat).elim⟩, toInt_ofInt hrange.1 hrange.2⟩
  · rename_i hrange
    exact fun hfits => hrange hfits.1

/-- In another radix the magnitude has to be in range, so the least number is not. -/
theorem represents_radixNumber? {digits text : List Char} {radix number : Nat}
    (denotes : Denotes radix digits number) (negative : Bool) (other : '@' ∈ text) :
    Represents text (signed negative number) (radixNumber? negative radix digits) := by
  rw [radixNumber?, digitsValue_of_denotes denotes, inRange?_eq]
  by_cases hrange : -2 ^ 63 ≤ (number : Int) ∧ (number : Int) ≤ 2 ^ 63 - 1
  · rw [if_pos hrange, Option.map_some]
    have hnumber := toInt_ofInt hrange.1 hrange.2
    cases negative with
    | false =>
        refine ⟨⟨hrange, fun _ => ?_⟩, hnumber⟩
        simp only [signed, Bool.false_eq_true, if_false]
        omega
    | true =>
        have hneg : -Int64.ofInt number = Int64.ofInt (-number) := (Int64.ofInt_neg _).symm
        simp only [signed, if_true, hneg]
        exact ⟨⟨by omega, fun _ => by omega⟩, toInt_ofInt (by omega) (by omega)⟩
  -- Of the magnitudes out of range only that of the least number has a value in range.
  · rw [if_neg hrange, Option.map_none]
    rintro ⟨hfits, hleast⟩
    have hleast := hleast other
    cases negative with
    | false => exact hrange hfits
    | true =>
        simp only [signed, if_true] at hfits hleast
        omega

end Literal

namespace Token

open Literal

/-! ## Numerals as lexemes -/

/-- No longer beginning of the text is a numeral. -/
def Longest (text rest : List Char) : Prop :=
  ∀ more, more ≠ [] → more <+: rest → ∀ value, ¬ Numeral (text ++ more) value

theorem takeWhile_append_of_stops {p : Char → Bool} {digits rest : List Char}
    (all : ∀ c ∈ digits, p c = true) (stops : ∀ c later, rest = c :: later → p c = false) :
    (digits ++ rest).takeWhile p = digits ∧ (digits ++ rest).dropWhile p = rest := by
  rw [List.takeWhile_append_of_pos all, List.dropWhile_append_of_pos all]
  cases rest with
  | nil => simp
  | cons c later => simp [stops c later rfl]

/-- Digits behind a point are taken with it. -/
theorem fraction_append {part rest : List Char} (h : Fraction part)
    (stops : ∀ c later, rest = c :: later → c.isDigit = false)
    (pointless : part = [] → ∀ c later, rest = '.' :: c :: later → c.isDigit = false) :
    fraction (part ++ rest) = part := by
  cases h with
  | @digits digits number denotes =>
      have hdigits := isClass_decimal.forall_of_denotes denotes
      have hnonempty : digits.isEmpty = false := by simpa using denotes.1
      simp only [List.cons_append, fraction, (takeWhile_append_of_stops hdigits stops).1, hnonempty,
        Bool.false_eq_true, if_false]
  | none =>
      rw [List.nil_append]
      unfold fraction
      split
      · rename_i later
        have hnone : (later.takeWhile Char.isDigit).isEmpty = true := by
          cases later with
          | nil => rfl
          | cons c later => simp [pointless rfl c later rfl]
        simp only [hnone, if_true]
      · rfl

/-- A digit behind a numeral would belong to it. -/
theorem Longest.stops {text digits rest : List Char} {radix : Nat} {isDigit : Char → Bool}
    (longest : Longest text rest) (isClass : IsClass radix isDigit)
    (all : ∀ c ∈ digits, isDigit c = true)
    (more : ∀ c number, Denotes radix (digits ++ [c]) number → ∃ value, Numeral (text ++ [c]) value) :
    ∀ c later, rest = c :: later → isDigit c = false := by
  rintro c later rfl
  refine Bool.eq_false_iff.2 fun hc => ?_
  have hall : ∀ d ∈ digits ++ [c], isDigit d = true := by
    simpa [or_imp, forall_and] using And.intro all hc
  obtain ⟨number, hnumber⟩ := isClass.exists_denotes (by simp) hall
  obtain ⟨value, hvalue⟩ := more c number hnumber
  exact longest [c] (by simp) ⟨later, rfl⟩ value hvalue

section Decimal

variable {negative : Bool} {whole part rest : List Char} {number : Nat}

theorem Longest.stops_decimal (longest : Longest (writtenSign negative ++ whole ++ part) rest)
    (denotes : Denotes 10 whole number) (fraction : Fraction part) :
    ∀ c later, rest = c :: later → c.isDigit = false := by
  cases fraction with
  | none =>
      refine longest.stops isClass_decimal (isClass_decimal.forall_of_denotes denotes) ?_
      intro c more hmore
      have hnumeral := Numeral.decimal negative hmore .none
      exact ⟨signed negative more, by simpa using hnumeral⟩
  | digits hdigits =>
      refine longest.stops isClass_decimal (isClass_decimal.forall_of_denotes hdigits) ?_
      intro c more hmore
      have hnumeral := Numeral.decimal negative denotes (.digits hmore)
      exact ⟨signed negative number, by simpa using hnumeral⟩

theorem Longest.pointless (longest : Longest (writtenSign negative ++ whole ++ []) rest)
    (denotes : Denotes 10 whole number) :
    ∀ c later, rest = '.' :: c :: later → c.isDigit = false := by
  rintro c later rfl
  refine Bool.eq_false_iff.2 fun hc => ?_
  obtain ⟨digit, hdigit⟩ := isClass_decimal.exists_denotes (List.cons_ne_nil c []) (by simpa using hc)
  have hnumeral := Numeral.decimal negative denotes (.digits hdigit)
  exact longest ['.', c] (by simp) ⟨later, rfl⟩ (signed negative number) (by simpa using hnumeral)

/-- A decimal is taken with its fraction, if it has one. -/
theorem decimalAt_of_longest (denotes : Denotes 10 whole number) (fraction : Fraction part)
    (longest : Longest (writtenSign negative ++ whole ++ part) rest) :
    decimalAt negative (whole ++ (part ++ rest)) =
      numberLexeme (decimal? negative whole) (writtenSign negative ++ whole ++ part) := by
  -- No digit stands behind the part, and none behind a point if there is no part.
  have hrest := longest.stops_decimal denotes fraction
  have hpart : Token.fraction (part ++ rest) = part := by
    refine fraction_append fraction hrest ?_
    rintro rfl
    exact longest.pointless denotes
  have hstops : ∀ c later, part ++ rest = c :: later → c.isDigit = false := by
    cases fraction with
    | none => exact hrest
    | digits hdigits =>
        rintro c later hpoint
        obtain ⟨rfl, -⟩ := List.cons.inj hpoint
        rfl
  obtain ⟨htake, hdrop⟩ := takeWhile_append_of_stops (isClass_decimal.forall_of_denotes denotes) hstops
  simp only [decimalAt, htake, hdrop, hpart]

end Decimal

section Radix

variable {negative : Bool} {letter : Char} {radix number : Nat} {digits rest : List Char}

theorem exists_radixOf? (listed : (letter, radix) ∈ radixes) :
    ∃ isDigit, radixOf? letter = some (radix, isDigit) := by
  simp only [radixes, List.mem_cons, Prod.mk.injEq, List.not_mem_nil, or_false] at listed
  obtain ⟨rfl, rfl⟩ | ⟨rfl, rfl⟩ | ⟨rfl, rfl⟩ := listed <;> exact ⟨_, rfl⟩

theorem isClass_of_radixOf? {isDigit : Char → Bool}
    (known : radixOf? letter = some (radix, isDigit)) :
    (letter, radix) ∈ radixes ∧ IsClass radix isDigit := by
  unfold radixOf? at known
  split at known <;> cases known
  · exact ⟨by decide, isClass_binary⟩
  · exact ⟨by decide, isClass_hexadecimal⟩
  · exact ⟨by decide, isClass_octal⟩

/-- A number with a radix is taken with all its digits. -/
theorem radixNumberAt?_of_longest (listed : (letter, radix) ∈ radixes)
    (denotes : Denotes radix digits number)
    (longest : Longest (writtenSign negative ++ '@' :: letter :: digits) rest) :
    radixNumberAt? negative (letter :: (digits ++ rest)) =
      some (numberLexeme (radixNumber? negative radix digits)
        (writtenSign negative ++ '@' :: letter :: digits)) := by
  obtain ⟨isDigit, hletter⟩ := exists_radixOf? listed
  have hclass := (isClass_of_radixOf? hletter).2
  have hdigits := hclass.forall_of_denotes denotes
  have hstops : ∀ c later, rest = c :: later → isDigit c = false := by
    refine longest.stops hclass hdigits ?_
    intro c more hmore
    have hnumeral := Numeral.radix negative listed hmore
    exact ⟨signed negative more, by simpa using hnumeral⟩
  have hnonempty : digits.isEmpty = false := by simpa using denotes.1
  simp only [radixNumberAt?, hletter, (takeWhile_append_of_stops hdigits hstops).1, hnonempty,
    Bool.false_eq_true, if_false]

end Radix

theorem at_not_mem_decimal {negative : Bool} {whole part : List Char} {number : Nat}
    (denotes : Denotes 10 whole number) (fraction : Fraction part) :
    '@' ∉ writtenSign negative ++ whole ++ part := by
  have hdigits : ∀ {digits number}, Denotes 10 digits number → '@' ∉ digits := fun h hmem =>
    absurd (isClass_decimal.forall_of_denotes h _ hmem) (by decide)
  have hsign : '@' ∉ writtenSign negative := by cases negative <;> decide
  have hpart : '@' ∉ part := by
    cases fraction with
    | none => simp
    | digits h => simp [hdigits h]
  simp [hsign, hdigits denotes, hpart]

/-- A numeral is taken for a number that is its value, if it fits. -/
theorem exists_lexemeAt_numeral {text rest : List Char} {value : Int} (numeral : Numeral text value)
    (longest : Longest text rest) :
    ∃ c later result, text ++ rest = c :: later ∧ isBlank c = false ∧
      lexemeAt c later = numberLexeme result text ∧ Represents text value result := by
  cases numeral with
  | @decimal negative whole part number denotes fraction =>
      have hdecimal := decimalAt_of_longest denotes fraction longest
      obtain ⟨first, others, rfl⟩ := List.exists_cons_of_ne_nil denotes.1
      have hfirst := isClass_decimal.forall_of_denotes denotes first List.mem_cons_self
      obtain ⟨c, later, htext, hblank, hlexeme⟩ :=
        exists_lexemeAt_decimal negative hfirst (others ++ (part ++ rest))
      refine ⟨c, later, _, ?_, hblank, hlexeme.trans hdecimal,
        represents_decimal? denotes negative (at_not_mem_decimal denotes fraction)⟩
      simpa using htext
  | @radix negative letter radix number digits listed denotes =>
      have hradix := radixNumberAt?_of_longest listed denotes longest
      obtain ⟨c, later, otherwise, htext, hblank, hlexeme⟩ :=
        exists_lexemeAt_radix negative (letter :: (digits ++ rest))
      rw [hradix, Option.getD_some] at hlexeme
      refine ⟨c, later, _, ?_, hblank, hlexeme, represents_radixNumber? denotes negative (by simp)⟩
      simpa using htext

/-! ### Refused numbers are numerals -/

/-- A number that is refused as too great or too small is a numeral that does not fit. -/
def Lexeme.Honest (lexeme : Lexeme) : Prop :=
  ∀ literal, lexeme = .error (.numberOverflow literal) →
    ∃ value, Numeral literal.toList value ∧ ¬ Fits literal.toList value

namespace Lexeme

theorem honest_ok (kind : Kind) (length : Nat) : Lexeme.Honest (.ok (kind, length)) := by
  intro literal h
  cases h

theorem honest_number {text : List Char} {value : Int} {result : Option Int64}
    (numeral : Numeral text value) (represents : Represents text value result) :
    (numberLexeme result text).Honest := by
  intro literal h
  unfold numberLexeme at h
  split at h
  · cases h
  · cases h
    rw [String.toList_ofList]
    exact ⟨value, numeral, represents⟩

theorem exists_fraction (text : List Char) : Fraction (fraction text) := by
  unfold fraction
  split
  · rename_i rest
    simp only
    split
    · exact .none
    · rename_i hdigits
      obtain ⟨number, hnumber⟩ := isClass_decimal.exists_denotes (by simpa using hdigits)
        fun c hc => List.mem_takeWhile_imp hc
      exact .digits hnumber
  · exact .none

theorem honest_decimal (negative : Bool) {c : Char} {rest : List Char} (h : c.isDigit = true) :
    (decimalAt negative (c :: rest)).Honest := by
  have hdigits : (c :: rest).takeWhile Char.isDigit ≠ [] := by simp [h]
  obtain ⟨number, hnumber⟩ :=
    isClass_decimal.exists_denotes hdigits fun c hc => List.mem_takeWhile_imp hc
  have hfraction := exists_fraction ((c :: rest).dropWhile Char.isDigit)
  exact honest_number (.decimal negative hnumber hfraction)
    (represents_decimal? hnumber negative (at_not_mem_decimal hnumber hfraction))

theorem honest_string (rest : List Char) : (stringAt rest).Honest := by
  intro literal h
  obtain ⟨pieces, last, rfl, hfits, ⟨later, rfl⟩ | hbreaks⟩ := exists_pieces rest
  · rw [stringAt_closed hfits] at h
    split at h <;> cases h
  · rw [stringAt_unclosed hfits hbreaks] at h
    cases h

theorem At.honest {lexeme : Lexeme} {text : List Char} (h : lexeme.At text) : lexeme.Honest := by
  cases h with
  | word start =>
      unfold wordAt
      simp only
      split <;> exact honest_ok _ _
  | negativeName start => exact honest_ok _ _
  | decimal negative digit => exact honest_decimal negative digit
  | radix negative known digits =>
      obtain ⟨hlisted, hclass⟩ := isClass_of_radixOf? known
      obtain ⟨number, hnumber⟩ := hclass.exists_denotes digits fun c hc => List.mem_takeWhile_imp hc
      exact honest_number (.radix negative hlisted hnumber)
        (represents_radixNumber? hnumber negative (by simp))
  | string rest => exact honest_string rest
  | comment rest => exact honest_ok _ _
  | sign c rest =>
      unfold signAt
      split
      · exact honest_ok _ _
      · intro literal h
        cases h

end Lexeme

/-- Just numerals that do not fit are refused as numbers. -/
theorem exists_numeral_of_numberOverflow {source literal : String} {position : Position}
    (h : scan source = .error ⟨.numberOverflow literal, position⟩) :
    ∃ value, Numeral literal.toList value ∧ ¬ Fits literal.toList value := by
  obtain ⟨read, hscans⟩ | ⟨read, offset, cause, hscans, hrefuses⟩ := scan_cases source
  · cases h.symm.trans hscans.scan_eq_ok
  · obtain ⟨c, rest, -, -, hlexeme⟩ := id hrefuses
    cases h.symm.trans (hscans.scan_eq_error hrefuses)
    exact (at_lexemeAt c rest).honest literal hlexeme

/-! ## Numerals in sources -/

section Sources

variable {source : String} {read : List (Kind × Nat)} {offset : Nat} {text rest : List Char}
  {value : Int}

/-- What a scanner does with a numeral that it has come to. -/
theorem Scans.numeral (scans : Scans source.toList read offset)
    (ahead : source.toList.drop offset = text ++ rest) (numeral : Numeral text value)
    (longest : Longest text rest) :
    (Fits text value → ∃ number : Int64, number.toInt = value ∧
      Scans source.toList (read ++ [(.integer number, offset)]) (offset + text.length)) ∧
    (¬ Fits text value → scan source =
      .error ⟨.numberOverflow (String.ofList text), placeAt source.toList offset⟩) := by
  obtain ⟨c, later, result, htext, hblank, hlexeme, hresult⟩ :=
    exists_lexemeAt_numeral numeral longest
  rw [htext] at ahead
  cases result with
  | none => exact ⟨fun hfits => (hresult hfits).elim,
      fun _ => scans.scan_eq_error ⟨c, later, ahead, hblank, hlexeme⟩⟩
  | some number => exact ⟨fun _ => ⟨number, hresult.2, scans.token ahead hblank hlexeme⟩,
      fun hfits => (hfits hresult.1).elim⟩

end Sources

theorem longest_nil (text : List Char) : Longest text [] := by
  intro more nonempty hstarts
  exact (nonempty (List.prefix_nil.1 hstarts)).elim

theorem placeAt_zero (text : List Char) : placeAt text 0 = .start := by
  have hplace := LineIndex.position_utf8Len [] text
  exact hplace

/-- A text that is a numeral is scanned as its value. -/
theorem scan_numeral {text : List Char} {value : Int} (numeral : Numeral text value) :
    (Fits text value → ∃ number : Int64, number.toInt = value ∧ scan (String.ofList text) =
      .ok [⟨.integer number, .start⟩, ⟨.endOfFile, placeAt text text.length⟩]) ∧
    (¬ Fits text value →
      scan (String.ofList text) = .error ⟨.numberOverflow (String.ofList text), .start⟩) := by
  have hwhole := (@Scans.start (String.ofList text).toList).numeral
    (by rw [List.drop_zero, String.toList_ofList, List.append_nil]) numeral (longest_nil text)
  rw [String.toList_ofList, placeAt_zero, Nat.zero_add] at hwhole
  refine ⟨fun hfits => ?_, hwhole.2⟩
  obtain ⟨number, hnumber, hscans⟩ := hwhole.1 hfits
  have hscan := @Scans.scan_eq_ok _ (String.ofList text) (by rwa [String.toList_ofList])
  rw [String.toList_ofList] at hscan
  exact ⟨number, hnumber, by simp [hscan, placed, placeAt_zero]⟩

/-- A numeral denotes its value.  A text that is a numeral is scanned as that number, if the number
fits, and is refused as a whole if it does not; so is the longest numeral that a scanner comes to in any
source; and nothing else is refused as a number. -/
theorem numerals_denote_their_values {text : List Char} {value : Int} (numeral : Numeral text value) :
    (Fits text value → ∃ number : Int64, number.toInt = value ∧ scan (String.ofList text) =
      .ok [⟨.integer number, .start⟩, ⟨.endOfFile, placeAt text text.length⟩]) ∧
    (¬ Fits text value →
      scan (String.ofList text) = .error ⟨.numberOverflow (String.ofList text), .start⟩) ∧
    (∀ (source : String) (read : List (Kind × Nat)) (offset : Nat) (rest : List Char),
      Scans source.toList read offset → source.toList.drop offset = text ++ rest →
      Longest text rest →
        (Fits text value → ∃ number : Int64, number.toInt = value ∧
          Scans source.toList (read ++ [(.integer number, offset)]) (offset + text.length)) ∧
        (¬ Fits text value → scan source =
          .error ⟨.numberOverflow (String.ofList text), placeAt source.toList offset⟩)) ∧
    ∀ (source literal : String) (position : Position),
      scan source = .error ⟨.numberOverflow literal, position⟩ →
        ∃ value, Numeral literal.toList value ∧ ¬ Fits literal.toList value := by
  obtain ⟨hfits, hrefused⟩ := scan_numeral numeral
  refine ⟨hfits, hrefused, ?_, fun _ _ _ h => exists_numeral_of_numberOverflow h⟩
  intro source read offset rest scans ahead longest
  exact scans.numeral ahead numeral longest

/-- The least number, with zeros before it and a fraction, as an instance. -/
theorem numerals_denote_their_values_of_least :
    Numeral "-009223372036854775808.75".toList (-2 ^ 63) ∧
      Fits "-009223372036854775808.75".toList (-2 ^ 63) ∧
      ∃ number : Int64, number.toInt = -2 ^ 63 ∧
        scan (String.ofList "-009223372036854775808.75".toList) =
          .ok [⟨.integer number, .start⟩,
            ⟨.endOfFile, placeAt "-009223372036854775808.75".toList 25⟩] := by
  have hwhole : Denotes 10 "009223372036854775808".toList (2 ^ 63) :=
    ⟨by decide, [0, 0, 9, 2, 2, 3, 3, 7, 2, 0, 3, 6, 8, 5, 4, 7, 7, 5, 8, 0, 8], by decide, by decide⟩
  have hpart : Denotes 10 ['7', '5'] 75 := ⟨by decide, [7, 5], by decide, by decide⟩
  have hnumeral : Numeral "-009223372036854775808.75".toList (-2 ^ 63) :=
    .decimal true hwhole (.digits hpart)
  have hfits : Fits "-009223372036854775808.75".toList (-2 ^ 63) :=
    ⟨by decide, fun hat => absurd hat (by decide)⟩
  exact ⟨hnumeral, hfits, (numerals_denote_their_values hnumeral).1 hfits⟩

/-- The least number in radix sixteen is a numeral, its value has 64 bits, and yet it is refused. -/
theorem least_number_is_refused_in_radix :
    ¬ ∀ (text : List Char) (value : Int), Numeral text value → -2 ^ 63 ≤ value ∧ value ≤ 2 ^ 63 - 1 →
      ∃ number : Int64, number.toInt = value ∧ scan (String.ofList text) =
        .ok [⟨.integer number, .start⟩, ⟨.endOfFile, placeAt text text.length⟩] := by
  intro hall
  have hdenotes : Denotes 16 "8000000000000000".toList (2 ^ 63) :=
    ⟨by decide, [8, 0, 0, 0, 0, 0, 0, 0, 0, 0, 0, 0, 0, 0, 0, 0], by decide, by decide⟩
  have hnumeral : Numeral "-@x8000000000000000".toList (-2 ^ 63) :=
    .radix true (by decide) hdenotes
  obtain ⟨number, -, hscan⟩ := hall _ _ hnumeral (by decide)
  have hrefused : scan (String.ofList "-@x8000000000000000".toList) =
      .error ⟨.numberOverflow "-@x8000000000000000", .start⟩ := by decide +kernel
  cases hrefused.symm.trans hscan

end Token
end Bir
