import Mathlib.Algebra.Order.BigOperators.Group.List
import TreeOptions.Foundations.DecimalContext

/-!
# Digits of the decimal context

An amount of some decimals is kept as it is when its rounding is within the digits that the context
has left for them (`exact_of_hasDecimals`). Whatever is rounded is off by half a unit of its last
digit at most, and reaches an amount of few decimals from half a unit below it on
(`le_roundContext_iff`): that amount is even in its last digit, so the tie goes to it.
-/

set_option autoImplicit false

namespace TreeOptions.Decimal

/-! ## Amounts of some decimals -/

section Exact

/-- An amount of some decimals at most. -/
def HasDecimals (decimals : ℕ) (amount : ℚ) : Prop :=
  ∃ units : ℤ, amount = units * 10 ^ (-decimals : ℤ)

variable {decimals : ℕ}

theorem HasDecimals.mul {amount : ℚ} (short : HasDecimals decimals amount) (n : ℤ) :
    HasDecimals decimals (amount * n) := by
  obtain ⟨units, rfl⟩ := short
  exact ⟨units * n, by push_cast; ring⟩

theorem HasDecimals.add {x y : ℚ} (short : HasDecimals decimals x)
    (short' : HasDecimals decimals y) : HasDecimals decimals (x + y) := by
  obtain ⟨units, rfl⟩ := short
  obtain ⟨units', rfl⟩ := short'
  exact ⟨units + units', by push_cast; ring⟩

theorem hasDecimals_of_cents (two : 2 ≤ decimals) {amount : ℚ} (whole : amount ∈ cents) :
    HasDecimals decimals amount := by
  obtain ⟨n, rfl⟩ := mem_cents_iff.mp whole
  obtain ⟨more, rfl⟩ := Nat.exists_eq_add_of_le two
  refine ⟨n * 10 ^ more, ?_⟩
  have split : (10 : ℚ) ^ (-((2 + more : ℕ) : ℤ)) = 10 ^ (-(more : ℤ)) * 10 ^ (-2 : ℤ) := by
    rw [← zpow_add₀ (by norm_num)]
    congr 1
    push_cast
    ring
  have cancels : (10 : ℚ) ^ more * 10 ^ (-(more : ℤ)) = 1 := by
    rw [zpow_neg, zpow_natCast]
    exact mul_inv_cancel₀ (by positivity)
  calc (n / 100 : ℚ) = n * (10 ^ more * 10 ^ (-(more : ℤ))) * 10 ^ (-2 : ℤ) := by
        rw [cancels, mul_one, div_eq_mul_inv]
        norm_num
    _ = ((n * 10 ^ more : ℤ) : ℚ) * 10 ^ (-((2 + more : ℕ) : ℤ)) := by
        rw [split]
        push_cast
        ring

/-- **An amount of so many decimals whose rounding is within the digits is kept.** -/
theorem exact_of_hasDecimals {x : ℚ} (short : HasDecimals decimals x) (nonneg : 0 ≤ x)
    (below : roundContext x < 10 ^ (precision - decimals : ℤ)) : roundContext x = x := by
  obtain ⟨units, rfl⟩ := short
  have ten : (0 : ℚ) < 10 ^ (-decimals : ℤ) := zpow_pos (by norm_num) _
  have sign : 0 ≤ units := by
    have quotient := nonneg_of_mul_nonneg_left nonneg ten
    exact_mod_cast quotient
  have limit : (10 : ℚ) ^ (precision - decimals : ℤ) =
      ((10 ^ precision : ℤ) : ℚ) * 10 ^ (-decimals : ℤ) := by
    rw [sub_eq_add_neg, zpow_shift]
  apply roundContext_of_digits
  rw [abs_of_nonneg sign]
  by_contra huge
  have large : (10 : ℚ) ^ (precision - decimals : ℤ) ≤ units * 10 ^ (-decimals : ℤ) := by
    rw [limit]
    exact mul_le_mul_of_nonneg_right (by exact_mod_cast not_lt.mp huge) ten.le
  have power : roundContext ((10 : ℚ) ^ (precision - decimals : ℤ)) =
      10 ^ (precision - decimals : ℤ) := by
    have kept := roundContext_of_digits (m := 1) (k := precision - decimals) (by decide)
    simpa using kept
  have kept := roundContext_monotone large
  rw [power] at kept
  exact absurd below (not_lt.mpr kept)

/-- A context with room for the decimals keeps an amount. -/
theorem roundTo_of_hasDecimals {digits : ℕ} {x : ℚ} (short : HasDecimals decimals x)
    (small : |x| * 10 ^ decimals < 10 ^ digits) : roundTo digits x = x := by
  obtain ⟨units, rfl⟩ := short
  apply roundTo_of_digits
  have scale : |(units : ℚ) * 10 ^ (-decimals : ℤ)| * 10 ^ decimals = |(units : ℚ)| := by
    rw [abs_mul, abs_of_pos (zpow_pos (show (0 : ℚ) < 10 by norm_num) _), mul_assoc, zpow_neg, zpow_natCast,
      inv_mul_cancel₀ (by positivity), mul_one]
  rw [scale] at small
  exact_mod_cast small

/-- **A context with room for a sum of amounts adds them exactly.** -/
theorem foldl_roundTo {digits : ℕ} {amounts : List ℚ}
    (each : ∀ amount ∈ amounts, HasDecimals decimals amount ∧ 0 ≤ amount) {start : ℚ}
    (short : HasDecimals decimals start) (nonneg : 0 ≤ start)
    (small : (start + amounts.sum) * 10 ^ decimals < 10 ^ digits) :
    amounts.foldl (fun total amount => roundTo digits (total + amount)) start =
      start + amounts.sum := by
  induction amounts generalizing start with
  | nil => rw [List.foldl_nil, List.sum_nil, add_zero]
  | cons amount rest ih =>
    obtain ⟨⟨short', nonneg'⟩, later⟩ := List.forall_mem_cons.mp each
    have positive : 0 ≤ rest.sum := List.sum_nonneg fun amount member => (later amount member).2
    rw [List.sum_cons, ← add_assoc] at small
    have kept : roundTo digits (start + amount) = start + amount := by
      apply roundTo_of_hasDecimals (short.add short')
      rw [abs_of_nonneg (add_nonneg nonneg nonneg')]
      refine lt_of_le_of_lt (mul_le_mul_of_nonneg_right ?_ (by positivity)) small
      exact le_add_of_nonneg_right positive
    rw [List.foldl_cons, kept, ih later (short.add short') (add_nonneg nonneg nonneg') small,
      List.sum_cons, add_assoc]

end Exact

/-! ## Errors -/

theorem abs_roundHalfEven_sub_le (x : ℚ) : |(roundHalfEven x : ℚ) - x| ≤ 1 / 2 := by
  have low := Int.floor_le x
  have high := Int.lt_floor_add_one x
  rw [roundHalfEven, abs_le]
  split_ifs with below above even
  · constructor <;> linarith
  · push_cast
    constructor <;> linarith
  · constructor <;> linarith
  · push_cast
    constructor <;> linarith

theorem lastDigit_le (x : ℚ) (nonzero : x ≠ 0) : lastDigit x ≤ |x| / 10 ^ 27 := by
  have low : (10 : ℚ) ^ Int.log 10 |x| ≤ |x| := by
    exact_mod_cast Int.zpow_log_le_self (by norm_num) (abs_pos.mpr nonzero)
  have split : (Int.log 10 |x| + 1 - precision : ℤ) = Int.log 10 |x| + -27 := by
    rw [precision]
    ring
  rw [lastDigit, split, zpow_add₀ (by norm_num), div_eq_mul_inv]
  have power : (10 : ℚ) ^ (-27 : ℤ) = (10 ^ 27)⁻¹ := by norm_num
  rw [power]
  exact mul_le_mul_of_nonneg_right low (by positivity)

/-- **Rounding changes an amount by half a unit of its last digit at most.** -/
theorem abs_roundContext_sub_le (x : ℚ) : |roundContext x - x| ≤ |x| / (2 * 10 ^ 27) := by
  by_cases zero : x = 0
  · rw [zero, roundContext_zero]
    norm_num
  · have positive := lastDigit_pos x
    have scaled : roundContext x - x =
        (roundHalfEven (x / lastDigit x) - x / lastDigit x) * lastDigit x := by
      rw [sub_mul, div_mul_cancel₀ _ positive.ne', roundContext]
    rw [scaled, abs_mul, abs_of_pos positive]
    calc |(roundHalfEven (x / lastDigit x) : ℚ) - x / lastDigit x| * lastDigit x
        ≤ 1 / 2 * (|x| / 10 ^ 27) :=
          mul_le_mul (abs_roundHalfEven_sub_le _) (lastDigit_le x zero) positive.le (by norm_num)
      _ = |x| / (2 * 10 ^ 27) := by ring

/-! ## Reaching an amount -/

theorem roundHalfEven_sub_half {m : ℤ} (even : m % 2 = 0) :
    roundHalfEven (m - 1 / 2) = m := by
  have floor : ⌊(m - 1 / 2 : ℚ)⌋ = m - 1 := by
    rw [Int.floor_eq_iff]
    push_cast
    constructor <;> linarith
  rw [roundHalfEven, floor]
  push_cast
  rw [if_neg (by linarith), if_neg (by linarith), if_neg (by omega)]
  omega

theorem roundHalfEven_lt {x : ℚ} {m : ℤ} (below : x < m - 1 / 2) : roundHalfEven x < m := by
  have near := abs_le.mp (abs_roundHalfEven_sub_le x)
  have less : (roundHalfEven x : ℚ) < m := by linarith
  exact_mod_cast less

/-- Half a unit of the last digit that is kept of the amounts just below an amount. -/
def halfDigitBelow (amount : ℚ) : ℚ :=
  10 ^ (Int.clog 10 amount - precision) / 2

theorem halfDigitBelow_pos (amount : ℚ) : 0 < halfDigitBelow amount :=
  div_pos (zpow_pos (by norm_num) _) (by norm_num)

/-- An even number of units, with the amounts just below it in one decade, is reached from half a
unit below it on. -/
theorem le_roundContext_of_digits {m s : ℤ} {x : ℚ} (even : m % 2 = 0) (low : 10 ^ 27 < m)
    (high : m ≤ 10 ^ 28) :
    m * 10 ^ s ≤ roundContext x ↔ m * 10 ^ s - 10 ^ s / 2 ≤ x := by
  have unit : (0 : ℚ) < 10 ^ s := zpow_pos (by norm_num) s
  have decade : ∀ {y : ℚ}, 10 ^ (27 + s) ≤ y → y < m * 10 ^ s →
      roundContext y = roundHalfEven (y / 10 ^ s) * 10 ^ s := by
    intro y atLeast below
    have positive : 0 < y := (zpow_pos (by norm_num) _).trans_le atLeast
    have top : y < 10 ^ (27 + s + 1) := by
      refine below.trans_le ?_
      have exponent : (27 + s + 1 : ℤ) = (28 : ℕ) + s := by push_cast; ring
      rw [exponent, zpow_shift]
      exact mul_le_mul_of_nonneg_right (by exact_mod_cast high) unit.le
    have rounded := roundContext_eq y (by rwa [abs_of_pos positive]) (by rwa [abs_of_pos positive])
    have exponent : (27 + s + 1 - precision : ℤ) = s := by
      rw [precision]
      ring
    rwa [exponent] at rounded
  have bottom : (10 : ℚ) ^ (27 + s) = ((10 ^ 27 : ℤ) : ℚ) * 10 ^ s := by
    have shifted := zpow_shift 27 s
    exact_mod_cast shifted
  have more : ((10 ^ 27 : ℤ) : ℚ) + 1 ≤ m := by exact_mod_cast low
  constructor
  · intro reaches
    by_contra below
    have short : x < m * 10 ^ s - 10 ^ s / 2 := not_le.mp below
    by_cases atLeast : 10 ^ (27 + s) ≤ x
    · have rounded := decade atLeast (by linarith)
      have quotient : x / 10 ^ s < m - 1 / 2 := by
        rw [div_lt_iff₀ unit]
        linarith
      have less : ((roundHalfEven (x / 10 ^ s) : ℤ) : ℚ) < m := by
        exact_mod_cast roundHalfEven_lt quotient
      rw [rounded] at reaches
      exact absurd reaches (not_le.mpr (mul_lt_mul_of_pos_right less unit))
    · -- below the decade the rounding is at most its bottom
      have kept := roundContext_monotone (not_le.mp atLeast).le
      rw [bottom, roundContext_of_digits (by decide)] at kept
      have less : ((10 ^ 27 : ℤ) : ℚ) * 10 ^ s < m * 10 ^ s :=
        mul_lt_mul_of_pos_right (by linarith) unit
      linarith
  · intro near
    refine le_trans ?_ (roundContext_monotone near)
    have scaled : (m * 10 ^ s - 10 ^ s / 2 : ℚ) = (m - 1 / 2) * 10 ^ s := by ring
    have half : ((10 ^ 27 : ℤ) : ℚ) ≤ m - 1 / 2 :=
      le_sub_iff_add_le.mpr (le_trans (by norm_num) more)
    have atLeast : 10 ^ (27 + s) ≤ (m - 1 / 2 : ℚ) * 10 ^ s := by
      rw [bottom]
      exact mul_le_mul_of_nonneg_right half unit.le
    rw [scaled, decade atLeast (mul_lt_mul_of_pos_right (by linarith) unit),
      mul_div_cancel_right₀ _ unit.ne', roundHalfEven_sub_half even]

/-- **An amount of few decimals is reached from half a unit below it on.** -/
theorem le_roundContext_iff {amount x : ℚ} {decimals : ℕ} (short : HasDecimals decimals amount)
    (positive : 0 < amount) (small : amount ≤ 10 ^ (27 - decimals : ℤ)) :
    amount ≤ roundContext x ↔ amount - halfDigitBelow amount ≤ x := by
  obtain ⟨units, isAmount⟩ := short
  set top := Int.clog 10 amount with isTop
  have atMost : amount ≤ 10 ^ top := by
    exact_mod_cast Int.self_le_zpow_clog (by norm_num : 1 < 10) amount
  have above : 10 ^ (top - 1) < amount := by
    exact_mod_cast Int.zpow_pred_clog_lt_self (by norm_num : 1 < 10) positive
  have few : top ≤ 27 - decimals := by
    apply (Int.le_zpow_iff_clog_le (by norm_num : 1 < 10) positive).mp
    exact_mod_cast small
  obtain ⟨more, isMore⟩ := Int.eq_ofNat_of_zero_le (by omega : 0 ≤ 27 - decimals - top)
  have exponent : (-decimals : ℤ) = ((more + 1 : ℕ) : ℤ) + (top - precision) := by
    rw [precision, Nat.cast_succ, ← isMore]
    ring
  have digits : amount = ((units * 10 ^ (more + 1) : ℤ) : ℚ) * 10 ^ (top - precision : ℤ) := by
    rw [isAmount, exponent, zpow_shift]
    push_cast
    ring
  have unit : (0 : ℚ) < 10 ^ (top - precision : ℤ) := zpow_pos (by norm_num) _
  have even : (units * 10 ^ (more + 1) : ℤ) % 2 = 0 :=
    Int.emod_eq_zero_of_dvd ⟨units * 10 ^ more * 5, by ring⟩
  have low : (10 ^ 27 : ℤ) < units * 10 ^ (more + 1) := by
    have power : (10 : ℚ) ^ (top - 1) = ((10 ^ 27 : ℤ) : ℚ) * 10 ^ (top - precision : ℤ) := by
      rw [← zpow_shift]
      congr 1
      rw [precision]
      ring
    rw [power, digits] at above
    exact_mod_cast lt_of_mul_lt_mul_right above unit.le
  have high : (units * 10 ^ (more + 1) : ℤ) ≤ 10 ^ 28 := by
    have power : (10 : ℚ) ^ top = ((10 ^ 28 : ℤ) : ℚ) * 10 ^ (top - precision : ℤ) := by
      rw [← zpow_shift]
      congr 1
      rw [precision]
      ring
    rw [power, digits] at atMost
    exact_mod_cast le_of_mul_le_mul_right atMost unit
  have reaches := le_roundContext_of_digits (x := x) (s := top - precision) even low high
  rwa [← digits] at reaches

end TreeOptions.Decimal
