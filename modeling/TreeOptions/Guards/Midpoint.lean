import TreeOptions.Guards.FillEngine

/-!
# The price moved towards the midpoint

A taker pays the ask less a fraction of half the spread, or receives the bid and the same on
top (`exactPoint`). The code counts in half ticks and clamps twice. On the grid of whole
cents it comes to one rounding against the taker (`fractionCents_buy`, `fractionCents_sell`),
so the price is the nearest tick on the taker's bad side, stays between the midpoint and
the quote, and moves one way with the fraction.

The division by 100 and the last `quantize` are done in the decimal context. A quote of
10^26 and more does not fit there, and its price is an invalid operation; below that the
context keeps all digits (`conservative_iff`). The engine's check that a price
is not beyond the ask and the slippage refuses nothing, however large quote and slippage are.
-/

set_option autoImplicit false

namespace TreeOptions.Guards

open Checked Decimal

/-- The point of the spread that a fraction stands for, before any rounding. -/
def exactPoint (bid ask fraction : ℚ) : Side → ℚ
  | .buy => ask - fraction * (ask - bid) / 2
  | .sell => bid + fraction * (ask - bid) / 2

/-- A quote on the grid of whole cents that is neither crossed nor free. -/
structure OnGrid (bid ask : ℚ) : Prop where
  bid_mem : bid ∈ cents
  ask_mem : ask ∈ cents
  bid_pos : 0 < bid
  uncrossed : bid ≤ ask

/-- What the price of a quote has to be for every fraction. -/
structure Conservative (bid ask : ℚ) : Prop where
  buy : ∀ fraction : ℚ, 0 ≤ fraction → fraction ≤ 1 →
    ∃ price, fractionToMidpoint bid ask .buy fraction = .ok price ∧
      IsLeast {tick | tick ∈ cents ∧ exactPoint bid ask fraction .buy ≤ tick} price ∧
      (bid + ask) / 2 ≤ price ∧ price ≤ ask
  sell : ∀ fraction : ℚ, 0 ≤ fraction → fraction ≤ 1 →
    ∃ price, fractionToMidpoint bid ask .sell fraction = .ok price ∧
      IsGreatest {tick | tick ∈ cents ∧ tick ≤ exactPoint bid ask fraction .sell} price ∧
      bid ≤ price ∧ price ≤ (bid + ask) / 2
  sell_le_buy : ∀ fraction buy sell : ℚ, fractionToMidpoint bid ask .buy fraction = .ok buy →
    fractionToMidpoint bid ask .sell fraction = .ok sell → sell ≤ buy
  buy_falls : ∀ fraction fraction' price price' : ℚ, fraction ≤ fraction' →
    fractionToMidpoint bid ask .buy fraction = .ok price →
    fractionToMidpoint bid ask .buy fraction' = .ok price' → price' ≤ price
  sell_rises : ∀ fraction fraction' price price' : ℚ, fraction ≤ fraction' →
    fractionToMidpoint bid ask .sell fraction = .ok price →
    fractionToMidpoint bid ask .sell fraction' = .ok price' → price ≤ price'

/-! ## Counting in cents -/

section Cents

variable {bid ask : ℤ} {fraction : ℚ}

theorem part_le_spread (uncrossed : bid ≤ ask) (nonneg : 0 ≤ fraction) (le_one : fraction ≤ 1) :
    0 ≤ fraction * (ask - bid) / 2 ∧ fraction * (ask - bid) / 2 ≤ (ask - bid) / 2 := by
  have spread : (0 : ℚ) ≤ ask - bid := sub_nonneg.mpr (by exact_mod_cast uncrossed)
  constructor
  · positivity
  · have part : fraction * (ask - bid) ≤ 1 * (ask - bid) :=
      mul_le_mul_of_nonneg_right le_one spread
    linarith

/-- **A purchase in half ticks is one rounding up.** The two clamps never bind. -/
theorem fractionCents_buy (uncrossed : bid ≤ ask) (nonneg : 0 ≤ fraction)
    (le_one : fraction ≤ 1) :
    fractionCents bid ask fraction .buy = ⌈exactPoint bid ask fraction .buy⌉ := by
  obtain ⟨low, high⟩ := part_le_spread uncrossed nonneg le_one
  have spread : (0 : ℚ) ≤ ask - bid := sub_nonneg.mpr (by exact_mod_cast uncrossed)
  have halves : (2 * ask + fraction * (bid + ask - 2 * ask)) / 2 =
      exactPoint bid ask fraction .buy := by
    rw [exactPoint]
    ring
  have atMost : ⌈exactPoint bid ask fraction .buy⌉ ≤ ask := by
    apply Int.ceil_le.mpr
    rw [exactPoint]
    linarith
  have atLeast : bid ≤ ⌈exactPoint bid ask fraction .buy⌉ := by
    have point : (bid : ℚ) ≤ exactPoint bid ask fraction .buy := by
      rw [exactPoint]
      linarith
    exact_mod_cast point.trans (Int.le_ceil _)
  simp only [fractionCents, halves]
  omega

/-- **A sale in half ticks is one rounding down.** -/
theorem fractionCents_sell (uncrossed : bid ≤ ask) (nonneg : 0 ≤ fraction)
    (le_one : fraction ≤ 1) :
    fractionCents bid ask fraction .sell = ⌊exactPoint bid ask fraction .sell⌋ := by
  obtain ⟨low, high⟩ := part_le_spread uncrossed nonneg le_one
  have spread : (0 : ℚ) ≤ ask - bid := sub_nonneg.mpr (by exact_mod_cast uncrossed)
  have halves : (2 * bid + fraction * (bid + ask - 2 * bid)) / 2 =
      exactPoint bid ask fraction .sell := by
    rw [exactPoint]
    ring
  have atLeast : bid ≤ ⌊exactPoint bid ask fraction .sell⌋ := by
    apply Int.le_floor.mpr
    rw [exactPoint]
    linarith
  have atMost : ⌊exactPoint bid ask fraction .sell⌋ ≤ ask := by
    have point : exactPoint bid ask fraction .sell ≤ ask := by
      rw [exactPoint]
      linarith
    exact_mod_cast (Int.floor_le _).trans point
  simp only [fractionCents, halves]
  omega

end Cents

theorem exactPoint_cents (bid ask : ℤ) (fraction : ℚ) (side : Side) :
    exactPoint (bid / 100) (ask / 100) fraction side = exactPoint bid ask fraction side / 100 := by
  cases side with
  | buy =>
    simp only [exactPoint]
    ring
  | sell =>
    simp only [exactPoint]
    ring

/-- Whole cents are the hundredths of whole numbers. -/
theorem isLeast_ceil (x : ℚ) : IsLeast {tick | tick ∈ cents ∧ x / 100 ≤ tick} (⌈x⌉ / 100 : ℚ) := by
  constructor
  · exact ⟨mem_cents_iff.mpr ⟨⌈x⌉, rfl⟩,
      div_le_div_of_nonneg_right (Int.le_ceil x) (by norm_num)⟩
  · rintro tick ⟨whole, above⟩
    obtain ⟨n, rfl⟩ := mem_cents_iff.mp whole
    have units : x ≤ n := by linarith
    exact div_le_div_of_nonneg_right (by exact_mod_cast Int.ceil_le.mpr units) (by norm_num)

theorem isGreatest_floor (x : ℚ) :
    IsGreatest {tick | tick ∈ cents ∧ tick ≤ x / 100} (⌊x⌋ / 100 : ℚ) := by
  constructor
  · exact ⟨mem_cents_iff.mpr ⟨⌊x⌋, rfl⟩,
      div_le_div_of_nonneg_right (Int.floor_le x) (by norm_num)⟩
  · rintro tick ⟨whole, below⟩
    obtain ⟨n, rfl⟩ := mem_cents_iff.mp whole
    have units : n ≤ x := by linarith
    exact div_le_div_of_nonneg_right (by exact_mod_cast Int.le_floor.mpr units) (by norm_num)

/-! ## In the decimal context -/

theorem toCents_of_cents {n : ℤ} (small : |n| < 10 ^ precision) : toCents (n / 100) = n := by
  have whole : mul (n / 100) 100 = n := by
    have digits := roundContext_of_digits (m := n) (k := 0) small
    rw [zpow_zero, mul_one] at digits
    rw [mul, div_mul_cancel₀ _ (by norm_num), digits]
  rw [toCents, whole]
  simp

theorem priceTick_of_cents {n : ℤ} (small : |n| < 10 ^ precision) :
    priceTick (roundContext (n / 100)) = .ok (n / 100) := by
  have shifted : (n / 100 : ℚ) = n * 10 ^ (-2 : ℤ) := by
    norm_num
    ring
  rw [shifted, roundContext_of_digits small, ← shifted, priceTick, quantizeCents_of_cents small]

theorem lt_of_priceTick {x price : ℚ} (priced : priceTick x = .ok price) : price < 10 ^ 26 := by
  rw [priceTick] at priced
  split at priced
  case h_1 => cases priced
  case h_2 rounded quantized =>
    cases priced
    have value := quantizeCents_eq_some quantized
    rw [quantizeCents, Option.ite_none_right_eq_some] at quantized
    have units : (roundHalfEven (x * 100) : ℚ) < 10 ^ 28 := by
      exact_mod_cast (le_abs_self _).trans_lt quantized.1
    rw [value, div_lt_iff₀ (by norm_num)]
    refine units.trans_le ?_
    norm_num

theorem of_fractionToMidpoint {bid ask fraction price : ℚ} {side : Side}
    (moved : fractionToMidpoint bid ask side fraction = .ok price) :
    (0 ≤ fraction ∧ fraction ≤ 1) ∧ price < 10 ^ 26 := by
  obtain ⟨range, moved⟩ := refuse_bind_eq_ok.mp moved
  obtain ⟨-, moved⟩ := refuse_bind_eq_ok.mp moved
  exact ⟨not_not.mp range, lt_of_priceTick moved⟩

/-- **A price of a quote that fits.** -/
theorem fractionToMidpoint_of_cents {bid ask : ℤ} {fraction : ℚ} {side : Side}
    (positive : 0 < bid) (uncrossed : bid ≤ ask) (small : ask < 10 ^ precision)
    (nonneg : 0 ≤ fraction) (le_one : fraction ≤ 1) :
    fractionToMidpoint (bid / 100) (ask / 100) side fraction =
      .ok (fractionCents bid ask fraction side / 100) := by
  have bidFits : |bid| < 10 ^ precision := by
    rw [abs_of_pos positive]
    exact uncrossed.trans_lt small
  have askFits : |ask| < 10 ^ precision := by
    rw [abs_of_pos (positive.trans_le uncrossed)]
    exact small
  have fits : |fractionCents bid ask fraction side| < 10 ^ precision := by
    cases side with
    | buy =>
      simp only [fractionCents]
      rw [abs_lt]
      omega
    | sell =>
      simp only [fractionCents]
      rw [abs_lt]
      omega
  rw [fractionToMidpoint, toCents_of_cents bidFits, toCents_of_cents askFits]
  apply refuse_bind_eq_ok.mpr
  refine ⟨not_not.mpr ⟨nonneg, le_one⟩, ?_⟩
  apply refuse_bind_eq_ok.mpr
  exact ⟨by omega, priceTick_of_cents fits⟩

/-! ## Exact and conservative -/

section Fits

variable {bid ask : ℤ} {fraction price : ℚ} (positive : 0 < bid) (uncrossed : bid ≤ ask)
  (small : ask < 10 ^ precision)

include positive uncrossed small

theorem buy_of_cents
    (moved : fractionToMidpoint (bid / 100) (ask / 100) .buy fraction = .ok price) :
    (0 ≤ fraction ∧ fraction ≤ 1) ∧ price = ⌈exactPoint bid ask fraction .buy⌉ / 100 := by
  obtain ⟨⟨nonneg, le_one⟩, -⟩ := of_fractionToMidpoint moved
  rw [fractionToMidpoint_of_cents positive uncrossed small nonneg le_one,
    fractionCents_buy uncrossed nonneg le_one] at moved
  cases moved
  exact ⟨⟨nonneg, le_one⟩, rfl⟩

theorem sell_of_cents
    (moved : fractionToMidpoint (bid / 100) (ask / 100) .sell fraction = .ok price) :
    (0 ≤ fraction ∧ fraction ≤ 1) ∧ price = ⌊exactPoint bid ask fraction .sell⌋ / 100 := by
  obtain ⟨⟨nonneg, le_one⟩, -⟩ := of_fractionToMidpoint moved
  rw [fractionToMidpoint_of_cents positive uncrossed small nonneg le_one,
    fractionCents_sell uncrossed nonneg le_one] at moved
  cases moved
  exact ⟨⟨nonneg, le_one⟩, rfl⟩

theorem exists_buy (nonneg : 0 ≤ fraction) (le_one : fraction ≤ 1) :
    ∃ price, fractionToMidpoint (bid / 100) (ask / 100) .buy fraction = .ok price ∧
      IsLeast {tick | tick ∈ cents ∧ exactPoint (bid / 100) (ask / 100) fraction .buy ≤ tick}
        price ∧
      (bid / 100 + ask / 100 : ℚ) / 2 ≤ price ∧ price ≤ ask / 100 := by
  obtain ⟨low, high⟩ := part_le_spread uncrossed nonneg le_one
  refine ⟨⌈exactPoint bid ask fraction .buy⌉ / 100, ?_, ?_, ?_, ?_⟩
  · rw [fractionToMidpoint_of_cents positive uncrossed small nonneg le_one,
      fractionCents_buy uncrossed nonneg le_one]
  · rw [exactPoint_cents]
    exact isLeast_ceil _
  · have above := Int.le_ceil (exactPoint bid ask fraction .buy)
    have point : ((bid + ask) / 2 : ℚ) ≤ exactPoint bid ask fraction .buy := by
      rw [exactPoint]
      linarith
    linarith
  · have below : ⌈exactPoint bid ask fraction .buy⌉ ≤ ask := by
      apply Int.ceil_le.mpr
      rw [exactPoint]
      linarith
    exact div_le_div_of_nonneg_right (by exact_mod_cast below) (by norm_num)

theorem exists_sell (nonneg : 0 ≤ fraction) (le_one : fraction ≤ 1) :
    ∃ price, fractionToMidpoint (bid / 100) (ask / 100) .sell fraction = .ok price ∧
      IsGreatest {tick | tick ∈ cents ∧ tick ≤ exactPoint (bid / 100) (ask / 100) fraction .sell}
        price ∧
      (bid / 100 : ℚ) ≤ price ∧ price ≤ (bid / 100 + ask / 100) / 2 := by
  obtain ⟨low, high⟩ := part_le_spread uncrossed nonneg le_one
  refine ⟨⌊exactPoint bid ask fraction .sell⌋ / 100, ?_, ?_, ?_, ?_⟩
  · rw [fractionToMidpoint_of_cents positive uncrossed small nonneg le_one,
      fractionCents_sell uncrossed nonneg le_one]
  · rw [exactPoint_cents]
    exact isGreatest_floor _
  · have above : bid ≤ ⌊exactPoint bid ask fraction .sell⌋ := by
      apply Int.le_floor.mpr
      rw [exactPoint]
      linarith
    exact div_le_div_of_nonneg_right (by exact_mod_cast above) (by norm_num)
  · have below := Int.floor_le (exactPoint bid ask fraction .sell)
    have point : exactPoint bid ask fraction .sell ≤ ((bid + ask) / 2 : ℚ) := by
      rw [exactPoint]
      linarith
    linarith

/-- **A quote that fits has prices that are exact up to one rounding against the taker.** -/
theorem conservative_of_cents : Conservative (bid / 100) (ask / 100) where
  buy _ nonneg le_one := exists_buy positive uncrossed small nonneg le_one
  sell _ nonneg le_one := exists_sell positive uncrossed small nonneg le_one
  sell_le_buy := by
    intro fraction buy sell bought sold
    obtain ⟨⟨nonneg, le_one⟩, -⟩ := of_fractionToMidpoint bought
    obtain ⟨price, isBuy, -, above, -⟩ := exists_buy positive uncrossed small nonneg le_one
    obtain ⟨price', isSell, -, -, below⟩ := exists_sell positive uncrossed small nonneg le_one
    cases bought.symm.trans isBuy
    cases sold.symm.trans isSell
    exact below.trans above
  buy_falls := by
    intro fraction fraction' price price' le bought bought'
    obtain ⟨-, rfl⟩ := buy_of_cents positive uncrossed small bought
    obtain ⟨-, rfl⟩ := buy_of_cents positive uncrossed small bought'
    have spread : (0 : ℚ) ≤ ask - bid := sub_nonneg.mpr (by exact_mod_cast uncrossed)
    have points : exactPoint bid ask fraction' .buy ≤ exactPoint bid ask fraction .buy := by
      have moved := mul_le_mul_of_nonneg_right le spread
      simp only [exactPoint]
      linarith
    exact div_le_div_of_nonneg_right (by exact_mod_cast Int.ceil_le_ceil points) (by norm_num)
  sell_rises := by
    intro fraction fraction' price price' le sold sold'
    obtain ⟨-, rfl⟩ := sell_of_cents positive uncrossed small sold
    obtain ⟨-, rfl⟩ := sell_of_cents positive uncrossed small sold'
    have spread : (0 : ℚ) ≤ ask - bid := sub_nonneg.mpr (by exact_mod_cast uncrossed)
    have points : exactPoint bid ask fraction .sell ≤ exactPoint bid ask fraction' .sell := by
      have moved := mul_le_mul_of_nonneg_right le spread
      simp only [exactPoint]
      linarith
    exact div_le_div_of_nonneg_right (by exact_mod_cast Int.floor_le_floor points) (by norm_num)

end Fits

section Quotes

variable {bid ask : ℚ}

theorem OnGrid.exists_cents (grid : OnGrid bid ask) :
    ∃ low high : ℤ, bid = low / 100 ∧ ask = high / 100 ∧ 0 < low ∧ low ≤ high := by
  obtain ⟨low, isLow⟩ := mem_cents_iff.mp grid.bid_mem
  obtain ⟨high, isHigh⟩ := mem_cents_iff.mp grid.ask_mem
  have positive := grid.bid_pos
  have uncrossed := grid.uncrossed
  rw [isLow] at positive uncrossed
  rw [isHigh] at uncrossed
  have lowPos : (0 : ℚ) < low := by linarith
  have ordered : (low : ℚ) ≤ high := by linarith
  exact ⟨low, high, isLow, isHigh, by exact_mod_cast lowPos, by exact_mod_cast ordered⟩

theorem fits_iff (n : ℤ) : (n / 100 : ℚ) < 10 ^ 26 ↔ n < 10 ^ precision := by
  rw [div_lt_iff₀ (by norm_num)]
  have power : (10 ^ 26 * 100 : ℚ) = ((10 ^ precision : ℤ) : ℚ) := by
    rw [precision]
    norm_num
  rw [power, Int.cast_lt]

/-- No purchase is moved beyond the ask, however large the quote is. -/
theorem le_ask_of_fractionToMidpoint (grid : OnGrid bid ask) {fraction price : ℚ}
    (moved : fractionToMidpoint bid ask .buy fraction = .ok price) : price ≤ ask := by
  obtain ⟨⟨nonneg, le_one⟩, below⟩ := of_fractionToMidpoint moved
  by_cases fits : ask < 10 ^ 26
  case neg => exact below.le.trans (not_lt.mp fits)
  case pos =>
    obtain ⟨low, high, rfl, rfl, positive, uncrossed⟩ := grid.exists_cents
    obtain ⟨price', isBuy, -, -, atMost⟩ :=
      exists_buy positive uncrossed ((fits_iff high).mp fits) nonneg le_one
    cases moved.symm.trans isBuy
    exact atMost

/-- **The bound on the price of a purchase refuses nothing.** -/
theorem fillPrice_eq {call : Call} {quote : TradableQuote}
    (grid : OnGrid quote.quote.bid quote.quote.ask) :
    fillPrice call (.twoSided quote) =
      fractionToMidpoint quote.quote.bid quote.quote.ask call.order.side call.fractionToMidpoint >>=
        stressedPrice call.stress call.order.side := by
  rw [fillPrice]
  cases isMoved : fractionToMidpoint quote.quote.bid quote.quote.ask call.order.side
      call.fractionToMidpoint with
  | error error => rfl
  | ok moved =>
    cases isPrice : stressedPrice call.stress call.order.side moved with
    | error error => simp [isPrice, Bind.bind, Except.bind]
    | ok price =>
      obtain ⟨-, valued⟩ := refuse_bind_eq_ok.mp isPrice
      have within : ¬ (call.order.side = .buy ∧
          add (add quote.quote.ask (slippage call.stress.slippageTicksBuy)) (1 / 100) <
            price) := by
        rintro ⟨isBuy, beyond⟩
        rw [isBuy] at isMoved valued
        cases valued
        have atMost := le_ask_of_fractionToMidpoint grid isMoved
        -- the cent of tolerance is not even needed: what is kept once is kept
        have bound : stressed call.stress moved .buy ≤
            add quote.quote.ask (slippage call.stress.slippageTicksBuy) :=
          roundContext_monotone (add_le_add_left atMost _)
        have tolerance : add quote.quote.ask (slippage call.stress.slippageTicksBuy) ≤
            add (add quote.quote.ask (slippage call.stress.slippageTicksBuy)) (1 / 100) := by
          have more := roundContext_monotone
            (x := add quote.quote.ask (slippage call.stress.slippageTicksBuy))
            (le_add_of_nonneg_right (by norm_num : (0 : ℚ) ≤ 1 / 100))
          rw [add, roundContext_idem, ← add] at more
          exact more
        exact absurd beyond (not_lt.mpr (bound.trans tolerance))
      change stressedPrice call.stress call.order.side moved >>= _ =
        stressedPrice call.stress call.order.side moved
      rw [isPrice]
      change refuse _ _ >>= _ = Except.ok price
      exact refuse_bind_eq_ok.mpr ⟨within, rfl⟩

/-- **The price moved towards the midpoint is exact and conservative** for just the quotes on the
grid that are below 10^26, and the bound on a purchase is reached by none. -/
theorem conservative_iff (grid : OnGrid bid ask) :
    (Conservative bid ask ↔ ask < 10 ^ 26) ∧
      ∀ (call : Call) (quote : TradableQuote), quote.quote.bid = bid → quote.quote.ask = ask →
        fillPrice call (.twoSided quote) =
          fractionToMidpoint bid ask call.order.side call.fractionToMidpoint >>=
            stressedPrice call.stress call.order.side := by
  constructor
  · constructor
    · intro conservative
      -- the untouched ask is a price, so it fits
      obtain ⟨price, moved, least, -⟩ := conservative.buy 0 le_rfl zero_le_one
      have atAsk : ask ≤ price := by
        have point := least.1.2
        simp only [exactPoint] at point
        linarith
      exact atAsk.trans_lt (of_fractionToMidpoint moved).2
    · intro fits
      obtain ⟨low, high, rfl, rfl, positive, uncrossed⟩ := grid.exists_cents
      exact conservative_of_cents positive uncrossed ((fits_iff high).mp fits)
  · rintro call quote rfl rfl
    exact fillPrice_eq grid

theorem mem_cents_natCast (n : ℕ) : (n : ℚ) ∈ cents :=
  mem_cents_iff.mpr ⟨n * 100, by
    push_cast
    ring⟩

/-- A quote of a dollar and a dollar and one cent. -/
theorem conservative_iff_sample : Conservative 1 (101 / 100) :=
  ((conservative_iff ⟨mem_cents_natCast 1, mem_cents_iff.mpr ⟨101, by norm_num⟩, by norm_num,
    by norm_num⟩).1).mpr (by norm_num)

theorem no_price_of_huge_quote :
    OnGrid (10 ^ 26) (10 ^ 26) ∧
      fractionToMidpoint (10 ^ 26) (10 ^ 26) .buy 0 = .error .invalidOperation ∧
      ¬ Conservative (10 ^ 26) (10 ^ 26) := by
  have grid : OnGrid (10 ^ 26) (10 ^ 26) :=
    ⟨mem_cents_iff.mpr ⟨10 ^ 28, by norm_num⟩, mem_cents_iff.mpr ⟨10 ^ 28, by norm_num⟩,
      by norm_num, le_rfl⟩
  refine ⟨grid, ?_, ?_⟩
  · decide +kernel
  · intro conservative
    obtain ⟨price, moved, -, -, -⟩ := conservative.buy 0 le_rfl zero_le_one
    have failed : fractionToMidpoint (10 ^ 26) (10 ^ 26) .buy 0 = .error .invalidOperation := by
      decide +kernel
    cases moved.symm.trans failed

end Quotes

end TreeOptions.Guards
