import Bir.Arithmetic
import Mathlib.Algebra.Order.Field.Power
import Mathlib.Data.Int.ModEq
import Mathlib.Data.Rat.Floor
import Mathlib.Tactic.Ring

/-!
# Powers — exact as far as words go

A power is computed by squaring the base, which soon wraps.  All that is lost by that is a multiple of
`2 ^ 64`, so what comes out is the power as far as a word can tell.  A power with a negative exponent
is a fraction, and what comes out is the fraction truncated toward zero.  This file defines:

* `truncated` — a rational number without its fraction.

`toInt_integerPower` and `power?_eq_some` say what squaring and halving come to, with words that wrap
and with words that are given up when they are too great.  `powers_are_exact` is the result for the
operator.
-/

namespace Bir

/-! ## Powers that wrap -/

theorem toInt_mul_modEq (left right : Int64) :
    (left * right).toInt ≡ left.toInt * right.toInt [ZMOD 2 ^ 64] := by
  rw [Int64.toInt_mul]
  exact Int.bmod_emod

/-- Squaring and halving come to the power, but for a multiple of `2 ^ 64`: the bases that have wrapped
on the way are still what they should be, as far as a word can tell. -/
theorem toInt_integerPower (base : Int64) (exponent : Nat) :
    (integerPower base exponent).toInt ≡ base.toInt ^ exponent [ZMOD 2 ^ 64] := by
  fun_induction integerPower base exponent with
  | case1 base =>
      rw [pow_zero]
      exact Int.ModEq.refl 1
  | case2 base exponent positive rest odd ih =>
      have hexponent : exponent = 2 * (exponent / 2) + 1 := by omega
      calc (base * rest).toInt
          ≡ base.toInt * rest.toInt [ZMOD 2 ^ 64] := toInt_mul_modEq base rest
        _ ≡ base.toInt * (base * base).toInt ^ (exponent / 2) [ZMOD 2 ^ 64] := ih.mul_left _
        _ ≡ base.toInt * (base.toInt * base.toInt) ^ (exponent / 2) [ZMOD 2 ^ 64] :=
            ((toInt_mul_modEq base base).pow _).mul_left _
        _ = base.toInt ^ (2 * (exponent / 2) + 1) := by ring
        _ = base.toInt ^ exponent := by rw [← hexponent]
  | case3 base exponent positive rest even ih =>
      have hexponent : exponent = 2 * (exponent / 2) := by omega
      calc rest.toInt
          ≡ (base * base).toInt ^ (exponent / 2) [ZMOD 2 ^ 64] := ih
        _ ≡ (base.toInt * base.toInt) ^ (exponent / 2) [ZMOD 2 ^ 64] :=
            (toInt_mul_modEq base base).pow _
        _ = base.toInt ^ (2 * (exponent / 2)) := by ring
        _ = base.toInt ^ exponent := by rw [← hexponent]

/-- A signed word is the only one of its residue. -/
theorem toInt_eq_of_modEq {word : Int64} {n : Int} (least : -2 ^ 63 ≤ n) (greatest : n < 2 ^ 63)
    (h : word.toInt ≡ n [ZMOD 2 ^ 64]) : word.toInt = n := by
  have hleast := word.le_toInt
  have hgreatest := word.toInt_lt
  unfold Int.ModEq at h
  omega

/-! ## Powers that do not wrap -/

theorem product?_eq_some {left right product : UInt64} :
    product? left right = some product ↔ product.toNat = left.toNat * right.toNat := by
  have hproduct := product.toNat_lt
  unfold product?
  split
  · rename_i hfits
    have hexact : (left * right).toNat = left.toNat * right.toNat := by
      rw [UInt64.toNat_mul]
      exact Nat.mod_eq_of_lt hfits
    rw [Option.some.injEq, ← UInt64.toNat_inj, hexact]
    exact eq_comm
  · rename_i hgreat
    constructor
    · intro h
      cases h
    · intro h
      exact absurd (h ▸ hproduct) hgreat

/-- Every number up to a word is a word. -/
theorem exists_word {n : Nat} {word : UInt64} (h : n ≤ word.toNat) :
    ∃ smaller : UInt64, smaller.toNat = n := by
  have hword := word.toNat_lt
  refine ⟨UInt64.ofNat n, ?_⟩
  rw [UInt64.toNat_ofNat']
  omega

theorem pow_eq_of_halves (base exponent : Nat) :
    base ^ exponent = base ^ (exponent % 2) * (base * base) ^ (exponent / 2) := by
  calc base ^ exponent
      = base ^ (exponent % 2 + 2 * (exponent / 2)) := by rw [Nat.mod_add_div]
    _ = base ^ (exponent % 2) * (base * base) ^ (exponent / 2) := by ring

/-- No power on the way is greater than the last one. -/
theorem pow_half_le (base exponent : Nat) (h : 2 ≤ exponent) :
    (base * base) ^ (exponent / 2) ≤ base ^ exponent := by
  rw [pow_eq_of_halves base exponent]
  rcases Nat.eq_zero_or_pos base with rfl | hpositive
  · have hhalf : exponent / 2 ≠ 0 := by omega
    simp [hhalf]
  · exact Nat.le_mul_of_pos_left _ (Nat.pow_pos hpositive)

/-- Squaring and halving come to the power exactly if it is a word. -/
theorem power?_eq_some {base : UInt64} {exponent : Nat} {raised : UInt64} :
    power? base exponent = some raised ↔ raised.toNat = base.toNat ^ exponent := by
  fun_induction power? base exponent generalizing raised with
  | case1 base =>
      rw [Option.some.injEq, ← UInt64.toNat_inj, pow_zero]
      exact eq_comm
  | case2 base =>
      rw [Option.some.injEq, ← UInt64.toNat_inj, pow_one]
      exact eq_comm
  | case3 base exponent notZero notOne ih =>
      simp only [Option.bind_eq_bind, Option.bind_eq_some_iff, product?_eq_some, ih]
      have hhalves := pow_eq_of_halves base.toNat exponent
      constructor
      · rintro ⟨square, hsquare, rest, hrest, hraised⟩
        split at hraised
        · rename_i hodd
          rw [product?_eq_some.1 hraised, hrest, hsquare, hhalves, hodd, pow_one]
        · rename_i heven
          have hzero : exponent % 2 = 0 := by omega
          cases hraised
          rw [hrest, hsquare, hhalves, hzero, pow_zero, one_mul]
      · intro hraised
        -- The words on the way exist because they are no greater than the last one.
        have hhalf := pow_half_le base.toNat exponent (by omega)
        have hself : base.toNat * base.toNat ≤ (base.toNat * base.toNat) ^ (exponent / 2) :=
          Nat.le_self_pow (by omega) _
        rcases exists_word (hraised ▸ hself.trans hhalf) with ⟨square, hsquare⟩
        rcases exists_word (hraised ▸ hhalf) with ⟨rest, hrest⟩
        refine ⟨square, hsquare, rest, by rw [hrest, hsquare], ?_⟩
        split
        · rename_i hodd
          rw [product?_eq_some, hraised, hrest, hhalves, hodd, pow_one]
        · rename_i heven
          have hzero : exponent % 2 = 0 := by omega
          rw [Option.some.injEq, ← UInt64.toNat_inj, hraised, hrest, hhalves, hzero, pow_zero,
            one_mul]

/-- A power that is too great for a word is greater than every word. -/
theorem exists_power?_le_iff {base word : UInt64} {exponent : Nat} :
    (∃ raised, power? base exponent = some raised ∧ raised ≤ word) ↔
      base.toNat ^ exponent ≤ word.toNat := by
  simp only [power?_eq_some, UInt64.le_iff_toNat_le]
  constructor
  · rintro ⟨raised, hraised, hle⟩
    exact hraised ▸ hle
  · intro hle
    rcases exists_word hle with ⟨raised, hraised⟩
    exact ⟨raised, hraised, hraised ▸ hle⟩

/-! ## Fractions -/

/-- A rational number without its fraction. -/
def truncated (number : ℚ) : ℤ := if 0 ≤ number then ⌊number⌋ else ⌈number⌉

theorem truncated_intCast (n : ℤ) : truncated n = n := by
  simp [truncated]

/-- What is less than one in magnitude is all fraction. -/
theorem truncated_eq_zero {number : ℚ} (h : |number| < 1) : truncated number = 0 := by
  rcases abs_lt.1 h with ⟨hlow, hhigh⟩
  unfold truncated
  split
  · rename_i hpositive
    exact Int.floor_eq_zero_iff.2 ⟨hpositive, hhigh⟩
  · rename_i hnegative
    exact Int.ceil_eq_zero_iff.2 ⟨hlow, le_of_lt (not_le.1 hnegative)⟩

theorem abs_zpow_lt_one {base exponent : ℤ} (hbase : 1 < |base|) (hexponent : exponent < 0) :
    |(base : ℚ) ^ exponent| < 1 := by
  rw [abs_zpow]
  exact zpow_lt_one_of_neg₀ (by exact_mod_cast hbase) hexponent

theorem even_toInt_iff (word : Int64) : Even word.toInt ↔ word % 2 = 0 := by
  rw [← Int64.toInt_inj, Int64.toInt_mod, even_iff_two_dvd]
  exact Int.dvd_iff_tmod_eq_zero

/-- A power with a negative exponent is the fraction that it denotes, without what is behind the
point: only one and minus one have any other power than zero. -/
theorem toInt_power_of_neg {base exponent : Int64} (hbase : base ≠ 0)
    (hexponent : exponent.toInt < 0) :
    (power base exponent).toInt = truncated ((base.toInt : ℚ) ^ exponent.toInt) := by
  have hnegative : exponent < 0 := Int64.lt_iff_toInt_lt.2 hexponent
  unfold power
  rw [if_pos hnegative]
  split
  · rename_i hone
    have hvalue : base.toInt = 1 := by rw [hone]; rfl
    simpa [hvalue] using (truncated_intCast 1).symm
  · split
    · rename_i hminus
      have hvalue : base.toInt = -1 := by rw [hminus]; rfl
      rw [hvalue, Int.cast_neg, Int.cast_one]
      split
      · rename_i heven
        rw [((even_toInt_iff exponent).2 heven).neg_one_zpow]
        simpa using (truncated_intCast 1).symm
      · rename_i hodd
        have hodd' : Odd exponent.toInt :=
          Int.not_even_iff_odd.1 fun heven => hodd ((even_toInt_iff exponent).1 heven)
        rw [hodd'.neg_one_zpow]
        simpa using (truncated_intCast (-1)).symm
    · rename_i hone hminus
      -- Any other base is greater than one in magnitude, and its power less.
      have hmagnitude : 1 < |base.toInt| := by
        simp only [ne_eq, ← Int64.toInt_inj] at hbase hone hminus
        change base.toInt ≠ 0 at hbase
        change base.toInt ≠ 1 at hone
        change base.toInt ≠ -1 at hminus
        rw [lt_abs]
        omega
      rw [truncated_eq_zero (abs_zpow_lt_one hmagnitude hexponent)]
      rfl

/-! ## The operator -/

/-- The exponent operator always has a value.  For an exponent that is not negative, it is the word
that is congruent to the power, so it is the power if that is a word; the power of zero to zero is one.
For a negative exponent, it is the power as a fraction, truncated toward zero; for the base zero, which
has no such power, it is zero. -/
theorem powers_are_exact (base exponent : Int64) :
    ∃ raised, ArithmeticOp.exponent.apply base exponent = .ok raised ∧
      (0 ≤ exponent.toInt →
        raised.toInt ≡ base.toInt ^ exponent.toInt.toNat [ZMOD 2 ^ 64] ∧
        (-2 ^ 63 ≤ base.toInt ^ exponent.toInt.toNat →
          base.toInt ^ exponent.toInt.toNat < 2 ^ 63 →
          raised.toInt = base.toInt ^ exponent.toInt.toNat) ∧
        (base = 0 → exponent = 0 → raised = 1)) ∧
      (exponent.toInt < 0 →
        (base ≠ 0 → raised.toInt = truncated ((base.toInt : ℚ) ^ exponent.toInt)) ∧
        (base = 0 → raised = 0)) := by
  refine ⟨power base exponent, rfl, fun hexponent => ?_, fun hexponent => ⟨fun hbase => ?_, ?_⟩⟩
  · have hnonnegative : ¬ exponent < 0 := by
      rw [Int64.lt_iff_toInt_lt]
      exact not_lt.2 hexponent
    have hpower : power base exponent = integerPower base exponent.toInt.toNat :=
      if_neg hnonnegative
    have hcongruent := toInt_integerPower base exponent.toInt.toNat
    rw [hpower]
    refine ⟨hcongruent, fun least greatest => toInt_eq_of_modEq least greatest hcongruent, ?_⟩
    rintro rfl rfl
    rw [Int64.toInt_zero, Int.toNat_zero, integerPower, if_pos rfl]
  · exact toInt_power_of_neg hbase hexponent
  · rintro rfl
    have hnegative : exponent < 0 := Int64.lt_iff_toInt_lt.2 hexponent
    exact if_pos hnegative

/-- Powers that are too great for a word, and the least exponent, as instances. -/
theorem powers_are_exact_of_words :
    (0 ≤ (41 : Int64).toInt ∧ ArithmeticOp.exponent.apply 3 41 = .ok (-420491770248316829)) ∧
      Int64.minValue.toInt < 0 ∧ (-1 : Int64) ≠ 0 ∧
        ArithmeticOp.exponent.apply (-1) Int64.minValue = .ok 1 := by
  have hexponent : 0 ≤ (41 : Int64).toInt := by decide
  have hleast : Int64.minValue.toInt < 0 := by decide
  have hbase : (-1 : Int64) ≠ 0 := by decide
  rcases powers_are_exact 3 41 with ⟨raised, hraised, hpower, -⟩
  rcases powers_are_exact (-1) Int64.minValue with ⟨unit, hunit, -, hfraction⟩
  refine ⟨⟨hexponent, ?_⟩, hleast, hbase, ?_⟩
  · have hcongruent : raised.toInt ≡ -420491770248316829 [ZMOD 2 ^ 64] :=
      (hpower hexponent).1.trans (by decide)
    have hvalue := toInt_eq_of_modEq (by decide) (by decide) hcongruent
    have hword : raised = -420491770248316829 := Int64.toInt_inj.1 (hvalue.trans (by decide))
    rw [hraised, hword]
  · have heven : Even Int64.minValue.toInt := (even_toInt_iff _).2 (by decide)
    have hminus : (-1 : Int64).toInt = -1 := by decide
    have hvalue := (hfraction hleast).1 hbase
    rw [hminus, Int.cast_neg, Int.cast_one, heven.neg_one_zpow] at hvalue
    have hone : unit.toInt = 1 := hvalue.trans (by simpa using truncated_intCast 1)
    have hword : unit = 1 := Int64.toInt_inj.1 (hone.trans (by decide))
    rw [hunit, hword]

end Bir
