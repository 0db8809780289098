import Mathlib.Algebra.Group.Subgroup.ZPowers.Basic
import Mathlib.Data.Rat.Floor

/-!
# Decimal amounts with two places

Amounts are rational numbers, so that arithmetic on them is exact. The whole numbers
of cents are a subgroup (`cents`), closed under multiples. `quantize` rounds to the
nearest cent, ties to the even one, and leaves whole cents as they are
(`quantize_of_mem`).
-/

set_option autoImplicit false

namespace TreeOptions.Decimal

/-- The amounts that are a whole number of cents. -/
def cents : AddSubgroup ℚ :=
  AddSubgroup.zmultiples (1 / 100 : ℚ)

theorem mem_cents_iff {amount : ℚ} : amount ∈ cents ↔ ∃ n : ℤ, amount = n / 100 := by
  rw [cents, AddSubgroup.mem_zmultiples_iff]
  constructor
  · rintro ⟨n, rfl⟩
    exact ⟨n, by rw [zsmul_eq_mul]; ring⟩
  · rintro ⟨n, rfl⟩
    exact ⟨n, by rw [zsmul_eq_mul]; ring⟩

instance (amount : ℚ) : Decidable (amount ∈ cents) :=
  decidable_of_iff ((amount * 100).den = 1) <| by
    rw [mem_cents_iff]
    constructor
    · intro whole
      refine ⟨(amount * 100).num, ?_⟩
      rw [Rat.coe_int_num_of_den_eq_one whole]
      ring
    · rintro ⟨n, rfl⟩
      have whole : (n / 100 * 100 : ℚ) = n := by ring
      rw [whole, Rat.den_intCast]

/-- The nearest whole number, ties to the even one. -/
def roundHalfEven (x : ℚ) : ℤ :=
  if x - ⌊x⌋ < 1 / 2 then ⌊x⌋
  else if 1 / 2 < x - ⌊x⌋ then ⌊x⌋ + 1
  else if ⌊x⌋ % 2 = 0 then ⌊x⌋
  else ⌊x⌋ + 1

theorem roundHalfEven_intCast (n : ℤ) : roundHalfEven n = n := by
  rw [roundHalfEven, Int.floor_intCast, sub_self, if_pos (by norm_num)]

theorem roundHalfEven_of_lt {x : ℚ} {n : ℤ} (low : n ≤ x) (near : x < n + 1 / 2) :
    roundHalfEven x = n := by
  have floor : ⌊x⌋ = n := Int.floor_eq_iff.mpr ⟨low, by linarith⟩
  rw [roundHalfEven, floor, if_pos (by linarith)]

theorem floor_le_roundHalfEven (x : ℚ) : ⌊x⌋ ≤ roundHalfEven x := by
  rw [roundHalfEven]
  split_ifs <;> omega

theorem roundHalfEven_le_floor_add_one (x : ℚ) : roundHalfEven x ≤ ⌊x⌋ + 1 := by
  rw [roundHalfEven]
  split_ifs <;> omega

/-- **Rounding keeps the order.** -/
theorem roundHalfEven_mono {x y : ℚ} (le : x ≤ y) : roundHalfEven x ≤ roundHalfEven y := by
  rcases (Int.floor_le_floor le).lt_or_eq with less | same
  · exact (roundHalfEven_le_floor_add_one x).trans
      ((Int.add_one_le_of_lt less).trans (floor_le_roundHalfEven y))
  · -- between the same two numbers only the fraction decides
    rw [roundHalfEven, roundHalfEven, same]
    split_ifs <;> first | omega | (exfalso; linarith)

theorem roundHalfEven_neg (x : ℚ) : roundHalfEven (-x) = -roundHalfEven x := by
  by_cases whole : (⌊x⌋ : ℚ) = x
  · rw [← whole, ← Int.cast_neg, roundHalfEven_intCast, roundHalfEven_intCast]
  · have below : (⌊x⌋ : ℚ) < x := lt_of_le_of_ne (Int.floor_le x) whole
    have above := Int.lt_floor_add_one x
    have floor : ⌊-x⌋ = -⌊x⌋ - 1 := by
      rw [Int.floor_eq_iff]
      push_cast
      constructor <;> linarith
    have fraction : -x - ((-⌊x⌋ - 1 : ℤ) : ℚ) = 1 - (x - ⌊x⌋) := by
      push_cast
      ring
    rw [roundHalfEven, roundHalfEven, floor, fraction]
    -- a tie on one side is a tie on the other, between the same two numbers
    rcases lt_trichotomy (x - ⌊x⌋) (1 / 2) with less | tie | more
    · rw [if_pos less, if_neg (by linarith), if_pos (by linarith)]
      ring
    · rw [tie]
      norm_num
      split_ifs <;> omega
    · rw [if_pos (by linarith), if_neg (by linarith), if_pos more]
      ring

/-- The nearest whole number of cents. -/
def quantize (amount : ℚ) : ℚ :=
  roundHalfEven (amount * 100) / 100

theorem quantize_mem (amount : ℚ) : quantize amount ∈ cents :=
  mem_cents_iff.mpr ⟨_, rfl⟩

/-- **Whole cents stay as they are.** -/
theorem quantize_of_mem {amount : ℚ} (whole : amount ∈ cents) : quantize amount = amount := by
  obtain ⟨n, rfl⟩ := mem_cents_iff.mp whole
  have scaled : (n / 100 * 100 : ℚ) = n := by ring
  rw [quantize, scaled, roundHalfEven_intCast]

theorem mul_natCast_mem {amount : ℚ} (whole : amount ∈ cents) (n : ℕ) : amount * n ∈ cents := by
  rw [mul_comm, ← nsmul_eq_mul]
  exact nsmul_mem whole n

end TreeOptions.Decimal
