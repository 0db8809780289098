import Mathlib.Data.Int.Log
import TreeOptions.Foundations.Decimal

/-!
# Decimal arithmetic with a precision

Arithmetic in the default context of Python's `decimal`: the exact result rounded to
28 significant digits, ties to the even digit (`roundContext`). A result that needs no
more digits is exact (`roundContext_of_digits`), and the order is kept (`roundContext_mono`).
Comparisons do not round. The bounds of
the context on exponents are left out.

`quantizeCents` rounds to whole cents in a direction of its own and is undefined where
the result needs more digits than the precision.
-/

set_option autoImplicit false

namespace TreeOptions.Decimal

/-! ## Numbers -/

/-- A decimal number, finite or not. -/
inductive Number where
  | finite (value : ℚ)
  | infinity (negative : Bool)
  | nan

namespace Number

def isFinite : Number → Bool
  | finite _ => true
  | infinity _ | nan => false

/-- `number <= bound`, undefined for a NaN. -/
def le? : Number → ℚ → Option Bool
  | finite value, bound => some (decide (value ≤ bound))
  | infinity negative, _ => some negative
  | nan, _ => none

/-- `number >= bound`, undefined for a NaN. -/
def ge? : Number → ℚ → Option Bool
  | finite value, bound => some (decide (bound ≤ value))
  | infinity negative, _ => some !negative
  | nan, _ => none

end Number

/-! ## The context -/

def precision : ℕ :=
  28

/-- One unit of the last digit that is kept of an amount. -/
def lastDigit (x : ℚ) : ℚ :=
  10 ^ (Int.log 10 |x| + 1 - precision)

/-- An amount as the context keeps it. -/
def roundContext (x : ℚ) : ℚ :=
  roundHalfEven (x / lastDigit x) * lastDigit x

def add (x y : ℚ) : ℚ :=
  roundContext (x + y)

def sub (x y : ℚ) : ℚ :=
  roundContext (x - y)

def mul (x y : ℚ) : ℚ :=
  roundContext (x * y)

/-- A quotient, undefined for a divisor of zero. -/
def div? (x y : ℚ) : Option ℚ :=
  if y = 0 then none else some (roundContext (x / y))

theorem lastDigit_pos (x : ℚ) : 0 < lastDigit x :=
  zpow_pos (by norm_num) _

variable {x : ℚ}

theorem lastDigit_eq {e : ℤ} (low : 10 ^ e ≤ |x|) (high : |x| < 10 ^ (e + 1)) :
    lastDigit x = 10 ^ (e + 1 - precision) := by
  have positive : 0 < |x| := (zpow_pos (by norm_num) e).trans_le low
  have atLeast : e ≤ Int.log 10 |x| :=
    (Int.zpow_le_iff_le_log (by norm_num) positive).mp (by exact_mod_cast low)
  have below : Int.log 10 |x| < e + 1 :=
    (Int.lt_zpow_iff_log_lt (by norm_num) positive).mp (by exact_mod_cast high)
  have log : Int.log 10 |x| = e := by omega
  rw [lastDigit, log]

theorem roundContext_zero : roundContext 0 = 0 := by
  rw [roundContext, zero_div]
  have zero : roundHalfEven 0 = 0 := by exact_mod_cast roundHalfEven_intCast 0
  rw [zero, Int.cast_zero, zero_mul]

theorem roundContext_neg (x : ℚ) : roundContext (-x) = -roundContext x := by
  rw [roundContext, roundContext, lastDigit, lastDigit, abs_neg, neg_div, roundHalfEven_neg,
    Int.cast_neg, neg_mul]

theorem abs_sub_comm (x y : ℚ) : |sub x y| = |sub y x| := by
  rw [sub, sub, ← neg_sub y x, roundContext_neg, abs_neg]

/-- An amount as a context of some digits keeps it. -/
def roundTo (digits : ℕ) (x : ℚ) : ℚ :=
  roundHalfEven (x / 10 ^ (Int.log 10 |x| + 1 - digits)) * 10 ^ (Int.log 10 |x| + 1 - digits)

/-- **An amount of no more digits than the context has is kept as it is.** -/
theorem roundTo_of_digits {digits : ℕ} {m k : ℤ} (short : |m| < 10 ^ digits) :
    roundTo digits (m * 10 ^ k) = m * 10 ^ k := by
  have ten : (0 : ℚ) < 10 := by norm_num
  by_cases zero : m = 0
  · have nothing : roundHalfEven 0 = 0 := by exact_mod_cast roundHalfEven_intCast 0
    rw [zero, Int.cast_zero, zero_mul, roundTo, zero_div, nothing, Int.cast_zero, zero_mul]
  · set x : ℚ := m * 10 ^ k with isX
    have nonzero : 0 < |x| := by
      rw [abs_pos, isX]
      exact mul_ne_zero (Int.cast_ne_zero.mpr zero) (zpow_ne_zero k ten.ne')
    -- the digits of the amount fit above its last digit
    have below : |x| < ((10 : ℕ) : ℚ) ^ (digits + k : ℤ) := by
      have size : |(m : ℚ)| < 10 ^ digits := by exact_mod_cast short
      rw [isX, abs_mul, abs_of_pos (zpow_pos ten k), Nat.cast_ofNat, zpow_add₀ ten.ne',
        zpow_natCast]
      exact mul_lt_mul_of_pos_right size (zpow_pos ten k)
    have log : Int.log 10 |x| < digits + k :=
      (Int.lt_zpow_iff_log_lt (by norm_num) nonzero).mp below
    obtain ⟨extra, gap⟩ : ∃ extra : ℕ, k - (Int.log 10 |x| + 1 - digits) = extra :=
      ⟨_, (Int.toNat_of_nonneg (by omega)).symm⟩
    have whole : x / 10 ^ (Int.log 10 |x| + 1 - digits : ℤ) = ((m * 10 ^ extra : ℤ) : ℚ) := by
      rw [isX, mul_div_assoc, ← isX, ← zpow_sub₀ ten.ne', gap, zpow_natCast]
      push_cast
      rfl
    rw [roundTo, whole, roundHalfEven_intCast, ← whole, div_mul_cancel₀ _ (zpow_ne_zero _ ten.ne')]

theorem roundContext_of_digits {m k : ℤ} (short : |m| < 10 ^ precision) :
    roundContext (m * 10 ^ k) = m * 10 ^ k :=
  roundTo_of_digits short

theorem roundContext_eq (x : ℚ) {e : ℤ} (low : 10 ^ e ≤ |x|) (high : |x| < 10 ^ (e + 1)) :
    roundContext x = roundHalfEven (x / 10 ^ (e + 1 - precision)) * 10 ^ (e + 1 - precision) := by
  rw [roundContext, lastDigit_eq low high]

/-- A power of ten counted in units of another. -/
theorem zpow_shift (n : ℕ) (k : ℤ) : (10 : ℚ) ^ (n + k) = ((10 ^ n : ℤ) : ℚ) * 10 ^ k := by
  rw [zpow_add₀ (by norm_num), zpow_natCast]
  push_cast
  rfl

/-- A positive amount lies between two powers of ten. -/
theorem exists_magnitude (positive : 0 < x) : ∃ e : ℤ, 10 ^ e ≤ x ∧ x < 10 ^ (e + 1) := by
  refine ⟨Int.log 10 x, ?_, ?_⟩
  · exact_mod_cast Int.zpow_log_le_self (by norm_num) positive
  · exact_mod_cast Int.lt_zpow_succ_log_self (by norm_num : 1 < 10) x

theorem zpow_succ_eq_units (e : ℤ) :
    (10 : ℚ) ^ (e + 1) = ((10 ^ 28 : ℤ) : ℚ) * 10 ^ (e + 1 - precision) := by
  rw [← zpow_shift]
  congr 1
  change e + 1 = 28 + (e + 1 - 28)
  ring

/-- An amount is kept between the powers of ten it lies between. -/
theorem roundContext_between {e : ℤ} (low : 10 ^ e ≤ x) (high : x < 10 ^ (e + 1)) :
    10 ^ e ≤ roundContext x ∧ roundContext x ≤ 10 ^ (e + 1) := by
  have ten : (0 : ℚ) < 10 := by norm_num
  have positive : 0 < x := (zpow_pos ten e).trans_le low
  have unit : (0 : ℚ) < 10 ^ (e + 1 - precision) := zpow_pos ten _
  have lowUnits : (10 : ℚ) ^ e = ((10 ^ 27 : ℤ) : ℚ) * 10 ^ (e + 1 - precision) := by
    rw [← zpow_shift]
    congr 1
    change e = 27 + (e + 1 - 28)
    ring
  rw [roundContext_eq x (by rwa [abs_of_pos positive]) (by rwa [abs_of_pos positive])]
  constructor
  · have units := roundHalfEven_mono ((le_div_iff₀ unit).mpr (lowUnits ▸ low))
    rw [roundHalfEven_intCast] at units
    rw [lowUnits]
    exact mul_le_mul_of_nonneg_right (by exact_mod_cast units) unit.le
  · have units := roundHalfEven_mono ((div_le_iff₀ unit).mpr (zpow_succ_eq_units e ▸ high.le))
    rw [roundHalfEven_intCast] at units
    rw [zpow_succ_eq_units]
    exact mul_le_mul_of_nonneg_right (by exact_mod_cast units) unit.le

variable {y : ℚ}

/-- **The context keeps the order of amounts that are not negative.** -/
theorem roundContext_mono (nonneg : 0 ≤ x) (le : x ≤ y) : roundContext x ≤ roundContext y := by
  have ten : (0 : ℚ) < 10 := by norm_num
  rcases (nonneg.trans le).eq_or_lt with zero | positiveY
  · rw [le_antisymm (zero ▸ le) nonneg, ← zero]
  obtain ⟨f, lowY, highY⟩ := exists_magnitude positiveY
  rcases nonneg.eq_or_lt with zero | positiveX
  · rw [← zero, roundContext_zero]
    exact (zpow_pos ten f).le.trans (roundContext_between lowY highY).1
  obtain ⟨e, lowX, highX⟩ := exists_magnitude positiveX
  by_cases below : e + 1 ≤ f
  · exact ((roundContext_between lowX highX).2.trans
      (zpow_le_zpow_right₀ (by norm_num) below)).trans (roundContext_between lowY highY).1
  · -- both lie between the same powers of ten
    have atMost : e ≤ f := by
      have powers : (10 : ℚ) ^ e < 10 ^ (f + 1) := (lowX.trans le).trans_lt highY
      have := (zpow_lt_zpow_iff_right₀ (by norm_num)).mp powers
      omega
    obtain rfl : e = f := by omega
    rw [roundContext_eq x (by rwa [abs_of_pos positiveX]) (by rwa [abs_of_pos positiveX]),
      roundContext_eq y (by rwa [abs_of_pos positiveY]) (by rwa [abs_of_pos positiveY])]
    have unit : (0 : ℚ) < 10 ^ (e + 1 - precision) := zpow_pos ten _
    have units := roundHalfEven_mono (div_le_div_of_nonneg_right le unit.le)
    exact mul_le_mul_of_nonneg_right (by exact_mod_cast units) unit.le

/-- An amount that is not negative is kept so. -/
theorem roundContext_nonneg (nonneg : 0 ≤ x) : 0 ≤ roundContext x := by
  rw [← roundContext_zero]
  exact roundContext_mono le_rfl nonneg

/-- The context keeps the order of all amounts. -/
theorem roundContext_monotone (le : x ≤ y) : roundContext x ≤ roundContext y := by
  rcases le_or_gt 0 x with nonneg | negative
  · exact roundContext_mono nonneg le
  have negX : roundContext x = -roundContext (-x) := by rw [roundContext_neg, neg_neg]
  have negY : roundContext y = -roundContext (-y) := by rw [roundContext_neg, neg_neg]
  rcases le_or_gt 0 y with nonneg | negativeY
  · have below : 0 ≤ roundContext (-x) := roundContext_nonneg (by linarith)
    have above : 0 ≤ roundContext y := roundContext_nonneg nonneg
    linarith
  · rw [negX, negY]
    exact neg_le_neg (roundContext_mono (by linarith) (by linarith))

/-- **What the context has kept once, it keeps.** -/
theorem roundContext_idem (x : ℚ) : roundContext (roundContext x) = roundContext x := by
  -- an amount is enough: the context treats the two signs alike
  have positive : ∀ {y : ℚ}, 0 < y → roundContext (roundContext y) = roundContext y := by
    intro y isPositive
    obtain ⟨e, low, high⟩ := exists_magnitude isPositive
    obtain ⟨-, most⟩ := roundContext_between low high
    have units := roundContext_eq y (by rwa [abs_of_pos isPositive])
      (by rwa [abs_of_pos isPositive])
    have unit : (0 : ℚ) < 10 ^ (e + 1 - precision) := zpow_pos (by norm_num) _
    set n := roundHalfEven (y / 10 ^ (e + 1 - precision))
    have nonneg : 0 ≤ n := by
      have kept := roundContext_nonneg isPositive.le
      rw [units] at kept
      exact_mod_cast (mul_nonneg_iff_of_pos_right unit).mp kept
    have atMost : n ≤ 10 ^ 28 := by
      rw [units, zpow_succ_eq_units] at most
      exact_mod_cast le_of_mul_le_mul_right most unit
    rcases atMost.lt_or_eq with short | full
    · have digits : |n| < 10 ^ precision := by
        rw [abs_of_nonneg nonneg]
        exact short
      rw [units, roundContext_of_digits digits]
    · have power : roundContext y = ((1 : ℤ) : ℚ) * 10 ^ (e + 1) := by
        rw [units, full, ← zpow_succ_eq_units, Int.cast_one, one_mul]
      rw [power, roundContext_of_digits (by norm_num [precision])]
  rcases lt_trichotomy x 0 with negative | zero | isPositive
  · have kept := positive (neg_pos.mpr negative)
    rw [roundContext_neg, roundContext_neg, neg_inj] at kept
    exact kept
  · rw [zero, roundContext_zero, roundContext_zero]
  · exact positive isPositive

/-! ## Whole cents -/

/-- The nearest whole number, ties away from zero. -/
def roundHalfUp (x : ℚ) : ℤ :=
  if 0 ≤ x then ⌊x + 1 / 2⌋ else -⌊-x + 1 / 2⌋

theorem roundHalfUp_intCast (n : ℤ) : roundHalfUp n = n := by
  have half : ⌊(1 / 2 : ℚ)⌋ = 0 := by norm_num
  rw [roundHalfUp]
  split
  case isTrue => rw [Int.floor_intCast_add, half, add_zero]
  case isFalse => rw [← Int.cast_neg, Int.floor_intCast_add, half, add_zero, neg_neg]

theorem roundHalfUp_mono (nonneg : 0 ≤ x) (le : x ≤ y) : roundHalfUp x ≤ roundHalfUp y := by
  rw [roundHalfUp, roundHalfUp, if_pos nonneg, if_pos (nonneg.trans le)]
  exact Int.floor_le_floor (add_le_add_left le (1 / 2))

/-- A rounding to whole cents, undefined beyond the precision. -/
def quantizeCents (rounding : ℚ → ℤ) (x : ℚ) : Option ℚ :=
  if |rounding (x * 100)| < 10 ^ precision then some (rounding (x * 100) / 100) else none

theorem quantizeCents_eq_some {rounding : ℚ → ℤ} (quantized : quantizeCents rounding x = some y) :
    y = rounding (x * 100) / 100 := by
  rw [quantizeCents, Option.ite_none_right_eq_some] at quantized
  exact (Option.some.inj quantized.2).symm

/-- **Whole cents of fewer digits than the precision are kept as they are.** -/
theorem roundContext_of_cents (whole : x ∈ cents) (small : |x| < 10 ^ 26) : roundContext x = x := by
  obtain ⟨n, rfl⟩ := mem_cents_iff.mp whole
  have digits : |n| < 10 ^ precision := by
    rw [abs_div, div_lt_iff₀ (by norm_num)] at small
    have bound : |(n : ℚ)| < 10 ^ 28 := by
      refine small.trans_le ?_
      norm_num
    exact_mod_cast bound
  have shifted : (n / 100 : ℚ) = n * 10 ^ (-2 : ℤ) := by
    norm_num
    ring
  rw [shifted, roundContext_of_digits digits]

theorem quantizeCents_of_cents {n : ℤ} (small : |n| < 10 ^ precision) :
    quantizeCents roundHalfEven (n / 100) = some (n / 100 : ℚ) := by
  have whole : (n / 100 : ℚ) * 100 = n := div_mul_cancel₀ _ (by norm_num)
  rw [quantizeCents, whole, roundHalfEven_intCast, if_pos small]

theorem quantizeCents_mono {p q : ℚ} (le : x ≤ y) (first : quantizeCents roundHalfEven x = some p)
    (second : quantizeCents roundHalfEven y = some q) : p ≤ q := by
  have units : roundHalfEven (x * 100) ≤ roundHalfEven (y * 100) :=
    roundHalfEven_mono (by linarith)
  rw [quantizeCents_eq_some first, quantizeCents_eq_some second]
  exact div_le_div_of_nonneg_right (by exact_mod_cast units) (by norm_num)

theorem quantizeCents_floor_le (quantized : quantizeCents Int.floor x = some y) : y ≤ x := by
  have below := Int.floor_le (x * 100)
  rw [quantizeCents_eq_some quantized]
  linarith

theorem le_quantizeCents_ceil (quantized : quantizeCents Int.ceil x = some y) : x ≤ y := by
  have above := Int.le_ceil (x * 100)
  rw [quantizeCents_eq_some quantized]
  linarith

end TreeOptions.Decimal
