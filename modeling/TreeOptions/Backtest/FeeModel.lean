import TreeOptions.Foundations.DecimalContext
import TreeOptions.Ledger.Minting

/-!
# The fee model

Five basis points of the notional, rounded to cents with ties away from zero. The quantity
that a budget affords is estimated by a quotient and lowered until the price and the fees fit.
A smaller quantity fits as well (`cost_le_of_affordable`), and the fees of a sale are never more
than its proceeds (`orderFees_le`).

Amounts below `10 ^ 16` in whole cents are exact in the context.
-/

set_option autoImplicit false

namespace TreeOptions.Backtest

open Decimal

inductive FeeError where
  | valueError
  | invalidOperation

/-- The fee models: five basis points of filled notional on each side. -/
inductive FeeModel where
  | fiveBasisPoints

namespace FeeModel

def rate : FeeModel → ℚ
  | fiveBasisPoints => 5 / 10000

variable (model : FeeModel)

def orderFees (price : ℚ) (quantity : ℕ) : Except FeeError ℚ :=
  if price ≤ 0 ∨ quantity < 1 then .error .valueError
  else
    match quantizeCents roundHalfUp (mul (mul price quantity) model.rate) with
    | some fees => .ok fees
    | none => .error .invalidOperation

/-- Lower an estimate until the price and the fees fit the budget. -/
def lowerEstimate (budget price : ℚ) : ℕ → Except FeeError ℕ
  | 0 => .ok 0
  | smaller + 1 => do
      let fees ← model.orderFees price (smaller + 1)
      if budget < add (mul price (smaller + 1 : ℕ)) fees then lowerEstimate budget price smaller
      else return smaller + 1

def affordableQuantity (budget price : ℚ) : Except FeeError ℕ :=
  if budget ≤ 0 then .ok 0
  else
    match div? budget (mul price (add 1 model.rate)) with
    | some estimate => model.lowerEstimate budget price ⌊estimate⌋.toNat
    | none => .error .invalidOperation

/-! ## What is affordable -/

variable {model : FeeModel} {budget price : ℚ}

theorem orderFees_eq_ok {quantity : ℕ} {fees : ℚ}
    (isFees : model.orderFees price quantity = .ok fees) :
    (0 < price ∧ 1 ≤ quantity) ∧
      fees = roundHalfUp (mul (mul price quantity) model.rate * 100) / 100 := by
  rw [orderFees] at isFees
  split at isFees
  case isTrue => cases isFees
  case isFalse valid =>
    rw [not_or, not_le, Nat.not_lt] at valid
    split at isFees
    case h_1 amount quantized =>
      cases isFees
      exact ⟨valid, quantizeCents_eq_some quantized⟩
    case h_2 => cases isFees

theorem lowerEstimate_eq_ok {estimate quantity : ℕ}
    (lowered : model.lowerEstimate budget price estimate = .ok quantity) :
    quantity = 0 ∨ ∃ fees, model.orderFees price quantity = .ok fees ∧
      add (mul price quantity) fees ≤ budget := by
  induction estimate with
  | zero =>
    cases lowered
    exact .inl rfl
  | succ smaller ih =>
    rw [lowerEstimate] at lowered
    obtain ⟨fees, isFees, lowered⟩ := Checked.bind_eq_ok.mp lowered
    split at lowered
    case isTrue => exact ih lowered
    case isFalse fits =>
      cases lowered
      exact .inr ⟨fees, isFees, not_lt.mp fits⟩

theorem affordableQuantity_eq_ok {quantity : ℕ}
    (afforded : model.affordableQuantity budget price = .ok quantity) :
    quantity = 0 ∨ ∃ fees, model.orderFees price quantity = .ok fees ∧
      add (mul price quantity) fees ≤ budget := by
  rw [affordableQuantity] at afforded
  split at afforded
  case isTrue =>
    cases afforded
    exact .inl rfl
  case isFalse =>
    split at afforded
    case h_1 => exact lowerEstimate_eq_ok afforded
    case h_2 => cases afforded

theorem rate_pos (model : FeeModel) : 0 < model.rate := by
  cases model
  norm_num [rate]

theorem rate_le_one (model : FeeModel) : model.rate ≤ 1 := by
  cases model
  norm_num [rate]

theorem mul_nonneg' {x y : ℚ} (first : 0 ≤ x) (second : 0 ≤ y) : 0 ≤ mul x y := by
  have least := roundContext_mono le_rfl (mul_nonneg first second)
  rwa [roundContext_zero] at least

theorem mul_mono {x y z : ℚ} (nonneg : 0 ≤ x) (le : x ≤ y) (positive : 0 ≤ z) :
    mul x z ≤ mul y z :=
  roundContext_mono (mul_nonneg nonneg positive) (mul_le_mul_of_nonneg_right le positive)

theorem orderFees_mono {smaller quantity : ℕ} {less fees : ℚ} (le : smaller ≤ quantity)
    (isLess : model.orderFees price smaller = .ok less)
    (isFees : model.orderFees price quantity = .ok fees) : less ≤ fees := by
  obtain ⟨⟨positive, -⟩, rfl⟩ := orderFees_eq_ok isLess
  obtain ⟨-, rfl⟩ := orderFees_eq_ok isFees
  have amounts : mul price smaller ≤ mul price quantity := by
    refine roundContext_mono (mul_nonneg positive.le smaller.cast_nonneg) ?_
    exact mul_le_mul_of_nonneg_left (Nat.cast_le.mpr le) positive.le
  have nonneg := mul_nonneg' positive.le ((Nat.cast_nonneg smaller : (0 : ℚ) ≤ smaller))
  have rated := mul_mono nonneg amounts model.rate_pos.le
  have rounded := roundHalfUp_mono (x := mul (mul price smaller) model.rate * 100)
    (mul_nonneg (mul_nonneg' nonneg model.rate_pos.le) (by norm_num))
    (mul_le_mul_of_nonneg_right rated (by norm_num))
  exact div_le_div_of_nonneg_right (by exact_mod_cast rounded) (by norm_num)

/-- **A quantity up to an affordable one fits the budget.** -/
theorem cost_le_of_affordable {smaller quantity : ℕ} {less fees : ℚ} (le : smaller ≤ quantity)
    (isLess : model.orderFees price smaller = .ok less)
    (isFees : model.orderFees price quantity = .ok fees)
    (fits : add (mul price quantity) fees ≤ budget) (whole : price * smaller ∈ cents)
    (small : |price * smaller| < 10 ^ 16) (wholeFees : less ∈ cents)
    (smallFees : |less| < 10 ^ 16) : price * smaller + less ≤ budget := by
  obtain ⟨⟨positive, -⟩, feesAre⟩ := orderFees_eq_ok isLess
  have grown := orderFees_mono le isLess isFees
  have amount : mul price smaller = price * smaller :=
    roundContext_of_cents whole (small.trans (by norm_num))
  have amounts : price * smaller ≤ mul price quantity := by
    rw [← amount]
    refine roundContext_mono (mul_nonneg positive.le smaller.cast_nonneg) ?_
    exact mul_le_mul_of_nonneg_left (Nat.cast_le.mpr le) positive.le
  have feesNonneg : 0 ≤ less := by
    rw [feesAre]
    have nonneg := mul_nonneg' (mul_nonneg' positive.le ((Nat.cast_nonneg smaller : (0 : ℚ) ≤ smaller)))
      model.rate_pos.le
    have rounded := roundHalfUp_mono le_rfl (mul_nonneg nonneg (by norm_num : (0 : ℚ) ≤ 100))
    have zero : roundHalfUp 0 = 0 := by exact_mod_cast roundHalfUp_intCast 0
    rw [zero] at rounded
    exact div_nonneg (by exact_mod_cast rounded) (by norm_num)
  have sumNonneg : 0 ≤ price * smaller + less :=
    add_nonneg (mul_nonneg positive.le smaller.cast_nonneg) feesNonneg
  have total : |price * smaller + less| < 10 ^ 26 := by
    refine (abs_add_le _ _).trans_lt ((add_lt_add small smallFees).trans ?_)
    norm_num
  calc price * smaller + less
      = roundContext (price * smaller + less) :=
        (roundContext_of_cents (add_mem whole wholeFees) total).symm
    _ ≤ add (mul price quantity) fees := roundContext_mono sumNonneg (add_le_add amounts grown)
    _ ≤ budget := fits

/-- **The fees of a sale are no more than its proceeds.** -/
theorem orderFees_le {quantity : ℕ} {fees : ℚ} (isFees : model.orderFees price quantity = .ok fees)
    (whole : price * quantity ∈ cents) (small : |price * quantity| < 10 ^ 16) :
    fees ≤ price * quantity := by
  obtain ⟨⟨positive, -⟩, rfl⟩ := orderFees_eq_ok isFees
  have exact' := roundContext_of_cents whole (small.trans (by norm_num))
  have nonneg : 0 ≤ price * quantity := mul_nonneg positive.le quantity.cast_nonneg
  have rated : mul (mul price quantity) model.rate ≤ price * quantity := by
    have amount : mul price quantity = price * quantity := exact'
    rw [amount]
    conv_rhs => rw [← exact']
    exact roundContext_mono (mul_nonneg nonneg model.rate_pos.le)
      (mul_le_of_le_one_right nonneg model.rate_le_one)
  obtain ⟨n, isN⟩ := mem_cents_iff.mp whole
  have bound : roundHalfUp (mul (mul price quantity) model.rate * 100) ≤ n := by
    rw [← roundHalfUp_intCast n]
    refine roundHalfUp_mono (mul_nonneg (mul_nonneg' (mul_nonneg' positive.le quantity.cast_nonneg)
      model.rate_pos.le) (by norm_num)) ?_
    rw [isN] at rated
    linarith
  rw [isN]
  exact div_le_div_of_nonneg_right (by exact_mod_cast bound) (by norm_num)

end FeeModel

end TreeOptions.Backtest
