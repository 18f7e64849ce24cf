import Bir.Operator

/-!
# Arithmetic — what the operators compute

Every value of a running program is a signed 64-bit integer. This file defines:

* `ArithmeticOp.apply` — addition, subtraction, multiplication and exponent wrap; division and
  modulus round toward zero; every other input is an `ArithmeticFault`;
* `QuantityOp.apply` — what a change in place computes;
* `logarithm` — the number of decimal digits less one;
* `ConditionOp.apply` — conditions yield `1` or `0`, and only `1` counts as true.

`integerPower` squares as it halves the exponent, and `Interval.search` bisects: a power that is too
great for a word is greater than the value.
-/

namespace Bir

/-! ## Faults -/

/-- An input that an operator has no value for. -/
inductive ArithmeticFault where
  | divisionByZero
  | modulusByZero
  | rootOfDegreeZero
  | evenRootOfNegative
  | logarithmOfNonPositive
  deriving DecidableEq, Repr, Inhabited

namespace ArithmeticFault

/-- All faults. -/
def all : List ArithmeticFault :=
  [.divisionByZero, .modulusByZero, .rootOfDegreeZero, .evenRootOfNegative,
    .logarithmOfNonPositive]

/-- The sign of the operator at fault. -/
def symbol : ArithmeticFault → String
  | .divisionByZero => ArithmeticOp.division.symbol
  | .modulusByZero => ArithmeticOp.modulus.symbol
  | .rootOfDegreeZero => ArithmeticOp.root.symbol
  | .evenRootOfNegative => ArithmeticOp.root.symbol
  | .logarithmOfNonPositive => logarithmSymbol

/-- The reason in words. -/
def reason : ArithmeticFault → String
  | .divisionByZero => "division by zero"
  | .modulusByZero => "modulus by zero"
  | .rootOfDegreeZero => "root of degree zero or less"
  | .evenRootOfNegative => "even root of a negative value"
  | .logarithmOfNonPositive => "logarithm of a non-positive value"

/-- The text shown to a reader. -/
def message (fault : ArithmeticFault) : String :=
  fault.reason ++ " in `" ++ fault.symbol ++ "`"

end ArithmeticFault

/-! ## Powers -/

/-- `base ^ exponent`, wrapping, by squaring the base and halving the exponent. -/
def integerPower (base : Int64) (exponent : Nat) : Int64 :=
  if exponent = 0 then 1
  else
    let rest := integerPower (base * base) (exponent / 2)
    if exponent % 2 = 1 then base * rest else rest
termination_by exponent

/-- `base ^ exponent`; a negative exponent truncates the fraction toward zero. -/
def power (base exponent : Int64) : Int64 :=
  if exponent < 0 then
    if base = 1 then 1
    else if base = -1 then (if exponent % 2 = 0 then 1 else -1)
    else 0
  else integerPower base exponent.toInt.toNat

/-- The product of two words, unless it is too great for a word. -/
def product? (left right : UInt64) : Option UInt64 :=
  if left.toNat * right.toNat < UInt64.size then some (left * right) else none

/-- `base ^ exponent`, unless it is too great for a word. -/
def power? (base : UInt64) (exponent : Nat) : Option UInt64 :=
  if exponent = 0 then some 1
  else if exponent = 1 then some base
  else do
    let square ← product? base base
    let rest ← power? square (exponent / 2)
    if exponent % 2 = 1 then product? base rest else some rest
termination_by exponent

/-! ## Roots -/

/-- The words that a search has not ruled out: those from `low` to `high`. -/
structure Interval where
  low : UInt64
  high : UInt64
  deriving DecidableEq, Repr, Inhabited

namespace Interval

/-- Half of a word, rounded up. -/
def halfUp (word : UInt64) : UInt64 := word / 2 + word % 2

/-- The word that is asked about next, above `low` unless that is all there is. -/
def middle (interval : Interval) : UInt64 :=
  interval.low + halfUp (interval.high - interval.low)

/-- One round of a search: the words from the middle on, if its power does not go beyond the value,
and those below the middle otherwise. -/
def narrowed (value : UInt64) (degree : UInt32) (interval : Interval) : Interval :=
  match power? interval.middle degree.toNat with
  | some raised =>
    if raised ≤ value then { interval with low := interval.middle }
    else { interval with high := interval.middle - 1 }
  | none => { interval with high := interval.middle - 1 }

theorem toNat_halfUp (word : UInt64) : (halfUp word).toNat = (word.toNat + 1) / 2 := by
  have hword := word.toNat_lt
  simp only [halfUp, UInt64.toNat_add, UInt64.toNat_div, UInt64.toNat_mod, UInt64.reduceToNat]
  omega

/-- Nothing wraps on the way to the middle. -/
theorem toNat_middle {interval : Interval} (h : interval.low ≤ interval.high) :
    interval.middle.toNat =
      interval.low.toNat + (interval.high.toNat - interval.low.toNat + 1) / 2 := by
  have hhigh := interval.high.toNat_lt
  have hle := UInt64.le_iff_toNat_le.1 h
  simp only [middle, UInt64.toNat_add, toNat_halfUp, UInt64.toNat_sub_of_le _ _ h]
  omega

/-- A round goes on with the words from the middle on or with those below it. -/
theorem narrowed_cases (value : UInt64) (degree : UInt32) (interval : Interval) :
    interval.narrowed value degree = { interval with low := interval.middle } ∨
      interval.narrowed value degree = { interval with high := interval.middle - 1 } := by
  unfold narrowed
  split
  · split
    · exact .inl rfl
    · exact .inr rfl
  · exact .inr rfl

/-- How many words are in an interval besides `low`. -/
def width (interval : Interval) : Nat := interval.high.toNat - interval.low.toNat

/-- A round rules out half of the words. -/
theorem width_narrowed (value : UInt64) (degree : UInt32) {interval : Interval}
    (h : interval.low < interval.high) :
    (interval.narrowed value degree).width ≤ interval.width / 2 := by
  have hlt := UInt64.lt_iff_toNat_lt.1 h
  have hmiddle := toNat_middle (UInt64.le_of_lt h)
  have hone : (1 : UInt64) ≤ interval.middle := by
    rw [UInt64.le_iff_toNat_le]
    simp only [UInt64.reduceToNat]
    omega
  rcases narrowed_cases value degree interval with hnarrowed | hnarrowed
  · simp only [hnarrowed, width, hmiddle]
    omega
  · simp only [hnarrowed, width, UInt64.toNat_sub_of_le _ _ hone, UInt64.reduceToNat, hmiddle]
    omega

/-- The word that a search comes to, round by round. -/
def search (value : UInt64) (degree : UInt32) (interval : Interval) : UInt64 :=
  if interval.low < interval.high then search value degree (interval.narrowed value degree)
  else interval.low
termination_by interval.width
decreasing_by
  rename_i hlow
  have hnarrowed := width_narrowed value degree hlow
  have hlt := UInt64.lt_iff_toNat_lt.1 hlow
  have hwidth : 0 < interval.width := Nat.sub_pos_of_lt hlt
  omega

end Interval

/-- The largest `r` with `r ^ degree ≤ value`. -/
def integerRoot (value : UInt64) (degree : UInt32) : UInt64 :=
  if value < 2 ∨ degree = 1 then value else Interval.search value degree ⟨1, value⟩

/-- A signed word without its sign. -/
def unsigned (value : Int64) : UInt64 := UInt64.ofNat value.toInt.natAbs

/-- A word as a signed one, unless it is too great. -/
def signed? (word : UInt64) : Option Int64 :=
  if word ≤ Int64.maxValue.toUInt64 then some word.toInt64 else none

/-- A degree as a word of half the width, unless it does not fit. -/
def shortDegree? (degree : Int64) : Option UInt32 :=
  if 0 ≤ degree.toInt ∧ degree.toInt < UInt32.size then some (UInt32.ofNat degree.toInt.toNat)
  else none

/-- The degree that a search is given: the greatest that fits in the place of one that does not. -/
def searchDegree (degree : Int64) : UInt32 :=
  (shortDegree? degree).getD (UInt32.ofNat (UInt32.size - 1))

/-- The root of the given degree, rounded toward zero. -/
def nthRoot (value degree : Int64) : Except ArithmeticFault Int64 :=
  if degree ≤ 0 then .error .rootOfDegreeZero
  else if degree = 1 then .ok value
  else if value < 0 ∧ degree % 2 = 0 then .error .evenRootOfNegative
  else
    let root := integerRoot (unsigned value) (searchDegree degree)
    let magnitude := (signed? root).getD Int64.maxValue
    .ok (if value < 0 then -magnitude else magnitude)

/-! ## Logarithm -/

/-- The largest `k` with `10 ^ k ≤ n`, for a positive `n`. -/
def decimalLogarithm (n : Nat) : Nat :=
  if n < 10 then 0 else decimalLogarithm (n / 10) + 1
termination_by n

/-- The logarithm to base ten, rounded down. -/
def logarithm (value : Int64) : Except ArithmeticFault Int64 :=
  if value ≤ 0 then .error .logarithmOfNonPositive
  else .ok (Int64.ofNat (decimalLogarithm value.toInt.toNat))

/-! ## Operators -/

/-- The value of `left op right`, or the fault. -/
def ArithmeticOp.apply (op : ArithmeticOp) (left right : Int64) : Except ArithmeticFault Int64 :=
  match op with
  | .addition => .ok (left + right)
  | .subtraction => .ok (left - right)
  | .multiplication => .ok (left * right)
  | .division => if right = 0 then .error .divisionByZero else .ok (left / right)
  | .modulus => if right = 0 then .error .modulusByZero else .ok (left % right)
  | .exponent => .ok (power left right)
  | .root => nthRoot left right

/-- The value that a change gives to a quantity. It wraps as the operators do, and division is left
to them. -/
def QuantityOp.apply (op : QuantityOp) (current amount : Int64) : Except ArithmeticFault Int64 :=
  match op with
  | .increment | .add => .ok (current + amount)
  | .decrement | .subtract => .ok (current - amount)
  | .multiply => .ok (current * amount)
  | .divide => ArithmeticOp.division.apply current amount

/-- Whether a value counts as true: only `1` does. -/
def isTruthy (value : Int64) : Bool := value == 1

/-- Whether a comparison holds. -/
def Comparison.holds (comparison : Comparison) (left right : Int64) : Bool :=
  match comparison with
  | .and => isTruthy left && isTruthy right
  | .or => isTruthy left || isTruthy right
  | .lessThan => left < right
  | .greaterThan => right < left
  | .lessThanEquals => left ≤ right
  | .greaterThanEquals => right ≤ left
  | .equals => left == right

/-- Whether a condition holds. -/
def ConditionOp.holds (op : ConditionOp) (left right : Int64) : Bool :=
  op.comparison.holds left right != op.negated

/-- The value of a condition: `1` when it holds and `0` otherwise. -/
def ConditionOp.apply (op : ConditionOp) (left right : Int64) : Int64 :=
  if op.holds left right then 1 else 0

/-- The magnitude of a value, wrapping at the least one, which has none. -/
def magnitude (value : Int64) : Int64 :=
  if value < 0 then -value else value

end Bir
