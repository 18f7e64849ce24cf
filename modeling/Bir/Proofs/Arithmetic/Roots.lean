import Bir.Proofs.Arithmetic.Powers

/-!
# Roots — a search that never wraps

A root is searched for among the words up to the value.  Each round asks about the word in the middle
and rules out half of those that are left, and the powers of what is left go from the value or below
to beyond it.  This file defines:

* `IsRoot value degree root` — the root of a natural number, rounded down;
* `Interval.Encloses value degree interval` — the root is among the words of an interval;
* `Interval.After value degree rounds interval` — what a search has left after some rounds;
* `Interval.Exact interval` — no addition and no subtraction of a round wraps.

`Interval.Encloses.narrowed` is what one round keeps and `Interval.Encloses.search` what a whole search
comes to.  `roots_are_exact` is the result for the operator.
-/

namespace Bir

/-! ## Roots of natural numbers -/

/-- A number is the root of a value, rounded down. -/
def IsRoot (value degree root : Nat) : Prop :=
  root ^ degree ≤ value ∧ value < (root + 1) ^ degree

/-- A root is no greater than a value whose power is no less. -/
theorem IsRoot.lt_of_le_pow {value degree root bound : Nat} (h : IsRoot value degree root)
    (hbound : value < bound ^ degree) : root < bound :=
  lt_of_pow_lt_pow_left' degree (lt_of_le_of_lt h.1 hbound)

theorem IsRoot.unique {value degree root root' : Nat} (h : IsRoot value degree root)
    (h' : IsRoot value degree root') : root = root' := by
  have hle := h.lt_of_le_pow h'.2
  have hle' := h'.lt_of_le_pow h.2
  omega

/-- Beyond the width of a word, the degree does not matter any more: the root is none or one. -/
theorem IsRoot.of_great_degree {value degree degree' root : Nat} (h : IsRoot value degree root)
    (hvalue : value < 2 ^ 64) (hdegree : 64 ≤ degree) (hdegree' : 64 ≤ degree') :
    IsRoot value degree' root := by
  have hgreat : ∀ {degree}, 64 ≤ degree → value < 2 ^ degree := fun hdegree =>
    lt_of_lt_of_le hvalue (Nat.pow_le_pow_right Nat.two_pos hdegree)
  have hroot : root < 2 := h.lt_of_le_pow (hgreat hdegree)
  rcases h with ⟨hlow, hhigh⟩
  have hcases : root = 0 ∨ root = 1 := by omega
  rcases hcases with rfl | rfl
  · -- Nothing but zero has the root zero.
    rw [zero_add, one_pow] at hhigh
    refine ⟨?_, by rwa [zero_add, one_pow]⟩
    rw [zero_pow (by omega)]
    exact Nat.zero_le _
  · rw [one_pow] at hlow
    exact ⟨by rwa [one_pow], hgreat hdegree'⟩

/-! ## One round -/

namespace Interval

variable {value : UInt64} {degree : UInt32} {interval : Interval}

theorem narrowed_of_le (h : interval.middle.toNat ^ degree.toNat ≤ value.toNat) :
    interval.narrowed value degree = { interval with low := interval.middle } := by
  rcases exists_power?_le_iff.2 h with ⟨raised, hraised, hle⟩
  simp only [narrowed, hraised, if_pos hle]

theorem narrowed_of_lt (h : value.toNat < interval.middle.toNat ^ degree.toNat) :
    interval.narrowed value degree = { interval with high := interval.middle - 1 } := by
  have hnone : ¬ ∃ raised, power? interval.middle degree.toNat = some raised ∧ raised ≤ value :=
    fun hsome => absurd (exists_power?_le_iff.1 hsome) (not_le.2 h)
  unfold narrowed
  split
  · rename_i raised hraised
    exact if_neg fun hle => hnone ⟨raised, hraised, hle⟩
  · rfl

/-- The root of a value is among the words of an interval. -/
structure Encloses (value : UInt64) (degree : UInt32) (interval : Interval) : Prop where
  ordered : interval.low ≤ interval.high
  low : interval.low.toNat ^ degree.toNat ≤ value.toNat
  high : value.toNat < (interval.high.toNat + 1) ^ degree.toNat

/-- No addition and no subtraction of a round wraps. -/
structure Exact (interval : Interval) : Prop where
  difference : (interval.high - interval.low).toNat + interval.low.toNat = interval.high.toNat
  half : (halfUp (interval.high - interval.low)).toNat =
    ((interval.high - interval.low).toNat + 1) / 2
  middle : interval.middle.toNat =
    interval.low.toNat + (halfUp (interval.high - interval.low)).toNat
  below : (interval.middle - 1).toNat + 1 = interval.middle.toNat

theorem exact_of_lt (h : interval.low < interval.high) : Exact interval := by
  have hlt := UInt64.lt_iff_toNat_lt.1 h
  have hle := UInt64.le_of_lt h
  have hdifference := UInt64.toNat_sub_of_le _ _ hle
  have hhalf := toNat_halfUp (interval.high - interval.low)
  have hmiddle := toNat_middle hle
  have hone : (1 : UInt64) ≤ interval.middle := by
    rw [UInt64.le_iff_toNat_le, hmiddle, UInt64.toNat_one]
    omega
  have hbelow := UInt64.toNat_sub_of_le _ _ hone
  rw [UInt64.toNat_one] at hbelow
  constructor <;> omega

/-- A round keeps the root among the words that are left. -/
theorem Encloses.narrowed (h : Encloses value degree interval)
    (hlow : interval.low < interval.high) :
    Encloses value degree (interval.narrowed value degree) := by
  have hexact := exact_of_lt hlow
  have hlt := UInt64.lt_iff_toNat_lt.1 hlow
  rcases Nat.lt_or_ge value.toNat (interval.middle.toNat ^ degree.toNat) with hgreat | hsmall
  · -- The middle is too great: what is left ends below it.
    rw [narrowed_of_lt hgreat]
    refine ⟨?_, h.low, ?_⟩
    · rw [UInt64.le_iff_toNat_le]
      have hbelow := hexact.below
      have hmiddle := hexact.middle
      have hhalf := hexact.half
      have hdifference := hexact.difference
      simp only
      omega
    · rwa [hexact.below]
  · -- The middle is small enough: what is left begins with it.
    rw [narrowed_of_le hsmall]
    refine ⟨?_, hsmall, h.high⟩
    rw [UInt64.le_iff_toNat_le]
    have hmiddle := hexact.middle
    have hhalf := hexact.half
    have hdifference := hexact.difference
    simp only
    omega

/-! ## All rounds -/

/-- A search that begins around the root comes to it. -/
theorem Encloses.search (h : Encloses value degree interval) :
    IsRoot value.toNat degree.toNat (interval.search value degree).toNat := by
  fun_induction Interval.search value degree interval with
  | case1 interval hlow ih =>
      exact ih (h.narrowed hlow)
  | case2 interval hdone =>
      have hsame : interval.low.toNat = interval.high.toNat := by
        have hle := UInt64.le_iff_toNat_le.1 h.ordered
        rw [UInt64.lt_iff_toNat_lt] at hdone
        omega
      exact ⟨h.low, hsame ▸ h.high⟩

/-- What a search has left after some rounds.  It goes on while more than one word is left. -/
inductive After (value : UInt64) (degree : UInt32) : Nat → Interval → Prop where
  | start : After value degree 0 ⟨1, value⟩
  | round {rounds : Nat} {interval : Interval} (after : After value degree rounds interval)
      (goesOn : interval.low < interval.high) :
      After value degree (rounds + 1) (interval.narrowed value degree)

variable {rounds : Nat}

/-- A search goes on from what it has left. -/
theorem After.search (h : After value degree rounds interval) :
    Interval.search value degree ⟨1, value⟩ = interval.search value degree := by
  induction h with
  | start => rfl
  | @round rounds interval after goesOn ih =>
      rw [ih]
      conv_lhs => rw [Interval.search, if_pos goesOn]

/-- Each round halves what is left. -/
theorem After.width (h : After value degree rounds interval) :
    interval.width * 2 ^ rounds < 2 ^ 64 := by
  induction h with
  | start =>
      have hvalue := value.toNat_lt
      simp only [Interval.width]
      omega
  | @round rounds interval after goesOn ih =>
      have hhalved := width_narrowed value degree goesOn
      calc (interval.narrowed value degree).width * 2 ^ (rounds + 1)
          = (interval.narrowed value degree).width * 2 * 2 ^ rounds := by ring
        _ ≤ interval.width * 2 ^ rounds := Nat.mul_le_mul_right _ (by omega)
        _ < 2 ^ 64 := ih

/-- A search has come to an end, or it has gone through any number of rounds. -/
theorem exists_after (value : UInt64) (degree : UInt32) (rounds : Nat) :
    (∃ interval, After value degree rounds interval) ∨
      ∃ fewer < rounds, ∃ last, After value degree fewer last ∧ ¬ last.low < last.high := by
  induction rounds with
  | zero => exact .inl ⟨_, .start⟩
  | succ rounds ih =>
      rcases ih with ⟨interval, hafter⟩ | ⟨fewer, hfewer, hlast⟩
      · by_cases hlow : interval.low < interval.high
        · exact .inl ⟨_, hafter.round hlow⟩
        · exact .inr ⟨rounds, Nat.lt_succ_self _, interval, hafter, hlow⟩
      · exact .inr ⟨fewer, Nat.lt_succ_of_lt hfewer, hlast⟩

/-- A search ends after no more rounds than a word has bits, with the word that it yields. -/
theorem exists_last (value : UInt64) (degree : UInt32) :
    ∃ rounds ≤ 64, ∃ last, After value degree rounds last ∧ ¬ last.low < last.high ∧
      Interval.search value degree ⟨1, value⟩ = last.low := by
  have hends : ∃ rounds ≤ 64, ∃ last, After value degree rounds last ∧ ¬ last.low < last.high := by
    rcases exists_after value degree 64 with ⟨last, hlast⟩ | ⟨fewer, hfewer, hlast⟩
    · refine ⟨64, le_rfl, last, hlast, fun hlow => ?_⟩
      have hwidth := hlast.width
      have hlt := UInt64.lt_iff_toNat_lt.1 hlow
      simp only [Interval.width] at hwidth
      omega
    · exact ⟨fewer, hfewer.le, hlast⟩
  rcases hends with ⟨rounds, hrounds, last, hlast, hdone⟩
  refine ⟨rounds, hrounds, last, hlast, hdone, ?_⟩
  rw [hlast.search, Interval.search, if_neg hdone]

end Interval

/-! ## Roots of words -/

theorem toNat_unsigned (value : Int64) : (unsigned value).toNat = value.toInt.natAbs := by
  have hleast := value.le_toInt
  have hgreatest := value.toInt_lt
  rw [unsigned, UInt64.toNat_ofNat']
  omega

theorem isRoot_integerRoot (value : UInt64) {degree : UInt32} (h : 1 ≤ degree.toNat) :
    IsRoot value.toNat degree.toNat (integerRoot value degree).toNat := by
  have hself : value.toNat + 1 ≤ (value.toNat + 1) ^ degree.toNat :=
    Nat.le_self_pow (by omega) _
  unfold integerRoot
  split
  · rename_i hearly
    refine ⟨?_, hself⟩
    rcases hearly with hsmall | hone
    · -- Zero and one are their own roots.
      have hcases : value.toNat = 0 ∨ value.toNat = 1 := by
        rw [UInt64.lt_iff_toNat_lt] at hsmall
        change value.toNat < 2 at hsmall
        omega
      rcases hcases with hzero | hone
      · rw [hzero, zero_pow (by omega)]
      · rw [hone, one_pow]
    · rw [hone]
      exact (pow_one _).le
  · rename_i hsearch
    have hvalue : 1 ≤ value.toNat := by
      rw [not_or, UInt64.lt_iff_toNat_lt] at hsearch
      change ¬ value.toNat < 2 ∧ _ at hsearch
      omega
    have hstart : Interval.Encloses value degree ⟨1, value⟩ :=
      ⟨UInt64.le_iff_toNat_le.2 hvalue, by simpa using hvalue, hself⟩
    exact hstart.search

/-- The root of a word of a degree above one is a signed word. -/
theorem toNat_integerRoot_lt (value : UInt64) {degree : UInt32} (h : 2 ≤ degree.toNat) :
    (integerRoot value degree).toNat < 2 ^ 32 := by
  refine (isRoot_integerRoot value (by omega)).lt_of_le_pow ?_
  calc value.toNat
      < 2 ^ 64 := value.toNat_lt
    _ = (2 ^ 32) ^ 2 := by rfl
    _ ≤ (2 ^ 32) ^ degree.toNat := Nat.pow_le_pow_right (by decide) h

/-! ## Roots of signed words -/

/-- A degree is cut down to what fits only where it does not matter. -/
theorem toNat_searchDegree {degree : Int64} (h : 0 ≤ degree.toInt) :
    (searchDegree degree).toNat = degree.toInt.toNat ∨
      64 ≤ (searchDegree degree).toNat ∧ 64 ≤ degree.toInt.toNat := by
  unfold searchDegree shortDegree?
  split
  · rename_i hfits
    left
    rw [Option.getD_some, UInt32.toNat_ofNat']
    have hsize := hfits.2
    simp only [UInt32.size] at hsize
    omega
  · rename_i hgreat
    right
    rw [Option.getD_none, UInt32.toNat_ofNat']
    simp only [UInt32.size] at hgreat ⊢
    omega

/-- The root that the operator takes the sign of the value for. -/
theorem isRoot_searchDegree (value : Int64) {degree : Int64} (h : 1 < degree.toInt) :
    IsRoot value.toInt.natAbs degree.toInt.toNat
        (integerRoot (unsigned value) (searchDegree degree)).toNat ∧
      (integerRoot (unsigned value) (searchDegree degree)).toNat < 2 ^ 32 := by
  have hcut := toNat_searchDegree (Int.le_of_lt (Int.lt_trans Int.zero_lt_one h))
  have htwo : 2 ≤ (searchDegree degree).toNat := by omega
  have hroot : IsRoot (unsigned value).toNat (searchDegree degree).toNat
      (integerRoot (unsigned value) (searchDegree degree)).toNat :=
    isRoot_integerRoot _ (by omega)
  refine ⟨?_, toNat_integerRoot_lt _ htwo⟩
  rw [← toNat_unsigned]
  rcases hcut with hsame | ⟨hgreat, hgreat'⟩
  · rwa [← hsame]
  · exact hroot.of_great_degree (unsigned value).toNat_lt hgreat hgreat'

theorem signed?_of_lt {word : UInt64} (h : word.toNat < 2 ^ 32) :
    ∃ magnitude, signed? word = some magnitude ∧ magnitude.toInt = word.toNat := by
  have hmax : Int64.maxValue.toUInt64.toNat = 2 ^ 63 - 1 := rfl
  have hword : word ≤ Int64.maxValue.toUInt64 := UInt64.le_iff_toNat_le.2 (by omega)
  have hsigned : word.toInt64 = Int64.ofNat word.toNat := by
    rw [← UInt64.toInt64_ofNat', UInt64.ofNat_toNat]
  exact ⟨word.toInt64, if_pos hword, hsigned ▸ Int64.toInt_ofNat_of_lt (by omega)⟩

/-- The operator fails for a degree that is not positive, and for an even root of a negative value. -/
theorem nthRoot_fails_iff (value degree : Int64) :
    (∃ fault, nthRoot value degree = .error fault) ↔
      degree.toInt ≤ 0 ∨ value.toInt < 0 ∧ Even degree.toInt := by
  have hdegree : degree ≤ 0 ↔ degree.toInt ≤ 0 := Int64.le_iff_toInt_le
  have hvalue : value < 0 ↔ value.toInt < 0 := Int64.lt_iff_toInt_lt
  rw [even_toInt_iff, ← hdegree, ← hvalue]
  unfold nthRoot
  split
  · rename_i hnone
    exact ⟨fun _ => .inl hnone, fun _ => ⟨_, rfl⟩⟩
  · rename_i hpositive
    split
    · rename_i hone
      -- One is odd.
      constructor
      · rintro ⟨fault, hfault⟩
        cases hfault
      · rintro (hnone | ⟨-, heven⟩)
        · exact absurd hnone hpositive
        · rw [hone] at heven
          exact absurd heven (by decide)
    · split
      · rename_i heven
        exact ⟨fun _ => .inr heven, fun _ => ⟨_, rfl⟩⟩
      · rename_i hroot
        constructor
        · rintro ⟨fault, hfault⟩
          cases hfault
        · rintro (hnone | heven)
          · exact absurd hnone hpositive
          · exact absurd heven hroot

/-- A magnitude changes its sign without wrapping. -/
theorem toInt_neg_of_nonneg {magnitude : Int64} (h : 0 ≤ magnitude.toInt) :
    (-magnitude).toInt = -magnitude.toInt := by
  have hgreatest := magnitude.toInt_lt
  rw [Int64.toInt_neg]
  exact Int.bmod_eq_of_le (by omega) (by omega)

/-- A root takes the sign of its value, unless it is zero. -/
theorem sign_of_isRoot {value magnitude : Int64} {degree root : Nat}
    (h : IsRoot value.toInt.natAbs degree root) (hdegree : degree ≠ 0)
    (hmagnitude : magnitude.toInt = root) :
    (if value < 0 then -magnitude else magnitude).toInt.natAbs = root ∧
      ((if value < 0 then -magnitude else magnitude) = 0 ∨
        (if value < 0 then -magnitude else magnitude).toInt.sign = value.toInt.sign) := by
  have hnegated : (-magnitude).toInt = -magnitude.toInt := toInt_neg_of_nonneg (by omega)
  have hsign : value < 0 ↔ value.toInt < 0 := Int64.lt_iff_toInt_lt
  -- Only zero has the root zero, so a root that is not zero is that of a value that is not.
  have hzero : value.toInt = 0 → root = 0 := by
    intro hvalue
    have hlow := h.1
    rw [hvalue, Int.natAbs_zero, Nat.le_zero, pow_eq_zero_iff hdegree] at hlow
    exact hlow
  simp only [hsign, ← Int64.toInt_inj, Int64.toInt_zero]
  split
  · rename_i hnegative
    rw [hnegated, hmagnitude, Int.sign_eq_neg_one_of_neg hnegative, Int.sign_eq_neg_one_iff_neg]
    omega
  · rename_i hpositive
    rw [hmagnitude]
    refine ⟨Int.natAbs_natCast root, ?_⟩
    rcases Nat.eq_zero_or_pos root with hnone | hsome
    · left
      omega
    · right
      have hvalue : 0 < value.toInt := by omega
      rw [Int.sign_eq_one_of_pos hvalue, Int.sign_eq_one_iff_pos]
      omega

/-- A magnitude and the sign of a value make up one word. -/
theorem eq_of_sign {root value : Int64} {magnitude : Nat}
    (hsign : root = 0 ∨ root.toInt.sign = value.toInt.sign)
    (hmagnitude : root.toInt.natAbs = magnitude) (hpositive : magnitude ≠ 0) :
    root = Int64.ofInt (value.toInt.sign * magnitude) := by
  rcases hsign with rfl | hsign
  · exact absurd hmagnitude.symm hpositive
  · rw [← hsign, ← hmagnitude, Int.sign_mul_natAbs, Int64.ofInt_toInt]

/-- Where the operator has a value, it is the root of the magnitude with the sign of the value. -/
theorem isRoot_nthRoot {value degree root : Int64} (h : nthRoot value degree = .ok root) :
    (root = 0 ∨ root.toInt.sign = value.toInt.sign) ∧
      IsRoot value.toInt.natAbs degree.toInt.toNat root.toInt.natAbs := by
  unfold nthRoot at h
  split at h
  · cases h
  · rename_i hpositive
    split at h
    · rename_i hone
      cases h
      have hdegree : degree.toInt.toNat = 1 := by rw [hone]; rfl
      refine ⟨.inr rfl, ?_⟩
      rw [hdegree]
      exact ⟨(pow_one _).le, by rw [pow_one]; exact Nat.lt_succ_self _⟩
    · rename_i hnotOne
      split at h
      · cases h
      · have hdegree : 1 < degree.toInt := by
          rw [Int64.le_iff_toInt_le] at hpositive
          rw [← Int64.toInt_inj] at hnotOne
          change ¬ degree.toInt ≤ 0 at hpositive
          change ¬ degree.toInt = 1 at hnotOne
          omega
        rcases isRoot_searchDegree value hdegree with ⟨hroot, hsmall⟩
        rcases signed?_of_lt hsmall with ⟨magnitude, hmagnitude, hvalue⟩
        rcases sign_of_isRoot hroot (by omega) hvalue with ⟨hsame, hsign⟩
        simp only [hmagnitude, Option.getD_some, Except.ok.injEq] at h
        rw [h] at hsame hsign
        exact ⟨hsign, hsame ▸ hroot⟩

/-! ## The operator -/

/-- The root operator fails just for a degree that is not positive and for an even root of a negative
value.  Otherwise its value is the root of the magnitude, rounded down, with the sign of the value or
zero, and the magnitude is found as a signed word without being cut down.  A search for any value and
degree adds and subtracts in no round what would wrap, and it ends after 64 rounds at the latest. -/
theorem roots_are_exact (value degree : Int64) :
    ((∃ fault, ArithmeticOp.root.apply value degree = .error fault) ↔
      degree.toInt ≤ 0 ∨ value.toInt < 0 ∧ Even degree.toInt) ∧
    (∀ root, ArithmeticOp.root.apply value degree = .ok root →
      (root = 0 ∨ root.toInt.sign = value.toInt.sign) ∧
      root.toInt.natAbs ^ degree.toInt.toNat ≤ value.toInt.natAbs ∧
      value.toInt.natAbs < (root.toInt.natAbs + 1) ^ degree.toInt.toNat) ∧
    (1 < degree.toInt → ∃ magnitude,
      signed? (integerRoot (unsigned value) (searchDegree degree)) = some magnitude) ∧
    ∀ (value : UInt64) (degree : UInt32),
      (∀ rounds interval, Interval.After value degree rounds interval →
        interval.low < interval.high → interval.Exact) ∧
      ∃ rounds ≤ 64, ∃ last, Interval.After value degree rounds last ∧ ¬ last.low < last.high ∧
        Interval.search value degree ⟨1, value⟩ = last.low := by
  refine ⟨nthRoot_fails_iff value degree, fun root hroot => isRoot_nthRoot hroot, ?_, ?_⟩
  · intro hdegree
    rcases isRoot_searchDegree value hdegree with ⟨-, hsmall⟩
    rcases signed?_of_lt hsmall with ⟨magnitude, hmagnitude, -⟩
    exact ⟨magnitude, hmagnitude⟩
  · intro value degree
    refine ⟨fun rounds interval _ hlow => Interval.exact_of_lt hlow, ?_⟩
    exact Interval.exists_last value degree

/-- The least value, and a degree that is too great for a search, as instances. -/
theorem roots_are_exact_of_least :
    ArithmeticOp.root.apply Int64.minValue 3 = .ok (-2097152) ∧
      ArithmeticOp.root.apply (-5) 1099511627777 = .ok (-1) ∧
      (1 < (3 : Int64).toInt ∧ ∃ magnitude,
        signed? (integerRoot (unsigned Int64.minValue) (searchDegree 3)) = some magnitude) ∧
      Interval.After 9 3 0 ⟨1, 9⟩ ∧ Interval.Exact ⟨1, 9⟩ := by
  have hleast : IsRoot Int64.minValue.toInt.natAbs (3 : Int64).toInt.toNat 2097152 := by
    constructor <;> decide
  have hfive : ∀ {degree}, 3 ≤ degree → IsRoot 5 degree 1 := by
    intro degree hdegree
    refine ⟨by rw [one_pow]; decide, ?_⟩
    calc 5 < 2 ^ 3 := by decide
      _ ≤ 2 ^ degree := Nat.pow_le_pow_right Nat.two_pos hdegree
  rcases roots_are_exact Int64.minValue 3 with ⟨hfails, hroot, hsigned, hsearch⟩
  rcases roots_are_exact (-5) 1099511627777 with ⟨hfails', hroot', -⟩
  refine ⟨?_, ?_, ⟨by decide, hsigned (by decide)⟩, .start, ?_⟩
  · cases happly : ArithmeticOp.root.apply Int64.minValue 3 with
    | error fault => exact absurd (hfails.1 ⟨fault, happly⟩) (by decide)
    | ok root =>
        rcases hroot root happly with ⟨hsign, hisRoot⟩
        rw [eq_of_sign hsign (IsRoot.unique hisRoot hleast) (by decide)]
        rfl
  · cases happly : ArithmeticOp.root.apply (-5) 1099511627777 with
    | error fault => exact absurd (hfails'.1 ⟨fault, happly⟩) (by decide)
    | ok root =>
        rcases hroot' root happly with ⟨hsign, hisRoot⟩
        rw [eq_of_sign hsign (IsRoot.unique hisRoot (hfive (by decide))) (by decide)]
        rfl
  · exact (hsearch 9 3).1 0 _ .start (by decide)

end Bir
