import TreeOptions.Backtest.EquityReplay
import TreeOptions.Foundations.DecimalDigits
import TreeOptions.Ledger.Accepted

/-!
# What a ratio conversion leaves

A holding is converted by a quotient of twenty-eight digits. The quantity times that quotient is
rounded once more, and its whole part is bought. Where the exact result is a whole number of
shares, a quotient that was rounded down may miss it: a third of three shares is none.

The whole shares and the cash in lieu come out right just where neither rounding carries its
product across the number it should stay on the side of (`converts_exactly_iff`): the shares across
a whole number, the price of an old share across half a cent.
-/

set_option autoImplicit false

namespace TreeOptions.Backtest

open Checked Decimal Ledger

/-! ## The conversion of a holding -/

/-- All that is held of a security is converted, and the book applies what the engine mints. -/
def convertHolding (calendar : TradingCalendar) (state : EquityState) (securityId : String)
    (bar : BarRecord) (numerator denominator : ℕ) : Except EquityError EquityState := do
  let (minted, fills) ← conversion calendar state securityId (state.ledger.quantity securityId) bar
    numerator denominator
  fills.foldlM applyFill minted

/-- The whole shares that a quantity comes to in a ratio. -/
def wholeShares (quantity numerator denominator : ℕ) : ℕ :=
  quantity * numerator / denominator

/-- What the fraction of a share that remains is worth at a price. -/
def remainderValue (quantity numerator denominator : ℕ) (price : ℚ) : ℚ :=
  (quantity * (numerator / denominator) - wholeShares quantity numerator denominator) * price

/-- The whole shares are held afterwards, and the cash is that of the fraction, up to half a cent
for each old share. -/
structure ConvertsExactly (state next : EquityState) (securityId : String) (openPrice : ℚ)
    (numerator denominator : ℕ) : Prop where
  shares : next.ledger.quantity securityId =
    wholeShares (state.ledger.quantity securityId) numerator denominator
  cash : |next.ledger.cash - state.ledger.cash -
      remainderValue (state.ledger.quantity securityId) numerator denominator openPrice| ≤
    state.ledger.quantity securityId * (1 / 200)

/-- The quantity times the rounded quotient is not so far below the whole shares, and far enough
below one more, that rounding keeps it between them. -/
def SharesKept (quantity numerator denominator : ℕ) : Prop :=
  let whole : ℚ := wholeShares quantity numerator denominator
  let product : ℚ := quantity * roundContext (numerator / denominator)
  whole - halfDigitBelow whole ≤ product ∧ product < whole + 1 - halfDigitBelow (whole + 1)

def halfCentAbove (amount : ℚ) : ℚ :=
  (2 * ⌊amount * 100⌋ + 1) / 200

/-- The price times the rounded quotient is on the side of the half cent on which the exact price
of an old share is. -/
def PriceKept (openPrice : ℚ) (numerator denominator : ℕ) : Prop :=
  let price : ℚ := openPrice * (numerator / denominator)
  let tie : ℚ := halfCentAbove price
  let product : ℚ := openPrice * roundContext (numerator / denominator)
  (price < tie → product < tie - halfDigitBelow tie) ∧
    (tie < price → tie - halfDigitBelow tie ≤ product)

/-! ## The fills -/

section Fills

variable {calendar : TradingCalendar} {state next : EquityState} {securityId : String}
  {bar : BarRecord} {quantity numerator denominator : ℕ}

variable {price : ℚ} {fill : Fill}

theorem mint_contractId {purpose : String} {side : Side} {executionSession executionAt : ℤ}
    {chargeFee : Bool}
    (minted : mint state securityId side quantity price executionSession executionAt chargeFee
      purpose = .ok (next, fill)) : fill.contractId = securityId := by
  rw [mint] at minted
  simp only [bind_eq_ok] at minted
  obtain ⟨_, -, _, -, fees, -, made, isMade, minted⟩ := minted
  cases minted
  exact (Fill.mintedFrom (orRaise_eq_ok.mp isMade)).contractId_eq

/-- What an applied sale without fees changes. -/
theorem sold_of_applyFill (sound : state.ledger.Sound) (applied : applyFill state fill = .ok next)
    (trades : Trades fill .sell quantity price 0) (isSecurity : fill.contractId = securityId) :
    next.ledger.Sound ∧ next.ledger.cash = state.ledger.cash + price * quantity ∧
      next.ledger.quantity securityId + quantity = state.ledger.quantity securityId := by
  obtain ⟨book, ran, rfl⟩ := applyFill_eq_ok applied
  have paid := (LedgerBook.cash_of_apply sound ran).1
  obtain ⟨error, refused, -⟩ | ⟨next, ran', accepts⟩ := apply_accepts sound fill
  · rw [ran] at refused
    cases refused
  · rw [ran] at ran'
    cases ran'
    have closes : Event.closes (.fill fill) = some quantity := by
      simp only [Event.closes, trades.side_eq, trades.quantity_eq]
    have left := accepts.quantity_closed sound closes
    rw [Event.contractId, isSecurity] at left
    refine ⟨accepts.sound, ?_, left⟩
    rw [paid, trades.fees_eq, primitiveCash, trades.side_eq]
    rw [quantize_of_mem (fill.price.mul_mem ..), trades.price_eq, trades.quantity_eq,
      trades.multiplier_eq, Nat.cast_one, mul_one, sub_zero]

/-- What an applied purchase without fees changes. Its amount is small. -/
theorem bought_of_applyFill (sound : state.ledger.Sound) (applied : applyFill state fill = .ok next)
    (trades : Trades fill .buy quantity price 0) (isSecurity : fill.contractId = securityId) :
    next.ledger.Sound ∧ next.ledger.cash = state.ledger.cash - price * quantity ∧
      next.ledger.quantity securityId = state.ledger.quantity securityId + quantity ∧
      price * quantity < 10 ^ 16 := by
  obtain ⟨book, ran, rfl⟩ := applyFill_eq_ok applied
  have paid := LedgerBook.cash_of_apply sound ran
  have amount : primitiveCash fill = -(price * quantity) := by
    rw [primitiveCash, trades.side_eq]
    rw [quantize_of_mem (fill.price.mul_mem ..), trades.price_eq, trades.quantity_eq,
      trades.multiplier_eq, Nat.cast_one, mul_one]
  rw [amount, trades.fees_eq, abs_neg] at paid
  obtain ⟨error, refused, -⟩ | ⟨next, ran', accepts⟩ := apply_accepts sound fill
  · rw [ran] at refused
    cases refused
  · rw [ran] at ran'
    cases ran'
    have changed := accepts.quantity_eq sound securityId
    rw [Event.quantityDelta, if_pos isSecurity, trades.side_eq, trades.quantity_eq] at changed
    refine ⟨accepts.sound, ?_, Int.ofNat_inj.mp changed, (le_abs_self _).trans_lt paid.2⟩
    rw [paid.1]
    ring

/-- What a conversion of a holding changes. -/
structure Converted (state next : EquityState) (securityId : String) (openPrice : ℚ)
    (numerator denominator : ℕ) (price : ℚ) : Prop where
  numerator_pos : 0 < numerator
  denominator_pos : 0 < denominator
  price_eq : price = roundHalfUp
    (roundContext (openPrice * roundContext (numerator / denominator)) * 100) / 100
  price_lt : price < 10 ^ 10
  sound : next.ledger.Sound
  shares : next.ledger.quantity securityId =
    convertedQuantity (state.ledger.quantity securityId) (roundContext (numerator / denominator))
  cash : next.ledger.cash = state.ledger.cash + price * state.ledger.quantity securityId -
    openPrice * next.ledger.quantity securityId
  amount_lt : openPrice * next.ledger.quantity securityId < 10 ^ 16

/-- **What is held is sold at the equivalent price, and the converted quantity is bought.** -/
theorem converted_of_convertHolding (sound : state.ledger.Sound)
    (ran : convertHolding calendar state securityId bar numerator denominator = .ok next) :
    ∃ price, Converted state next securityId bar.openPrice.value numerator denominator price := by
  obtain ⟨⟨minted, fills⟩, made, applied⟩ := bind_eq_ok.mp ran
  rw [conversion] at made
  simp only [bind_eq_ok] at made
  obtain ⟨_, positive, ratio, isRatio, price, isPrice, ⟨sold, old⟩, isOld, made⟩ := made
  obtain ⟨positiveNumerator, positiveDenominator⟩ := not_or.mp (refuse_eq_ok.mp positive)
  have isQuotient := orRaise_eq_ok.mp isRatio
  rw [div?, Option.ite_none_left_eq_some] at isQuotient
  cases isQuotient.2
  have rounded := quantizeCents_eq_some (orRaise_eq_ok.mp isPrice)
  rw [mul] at rounded
  have ofOld := mint_contractId isOld
  obtain ⟨oldFees, sells, -, free, rfl⟩ := mint_eq_ok isOld
  rw [if_neg Bool.false_ne_true] at free
  subst free
  have priceSmall : price < 10 ^ 10 := by
    rw [← sells.price_eq]
    exact old.price.small
  dsimp only at made
  split at made
  case isTrue none' =>
    cases made
    obtain ⟨afterOld, isApplied, applied⟩ := bind_eq_ok.mp applied
    cases applied
    obtain ⟨soundNext, earned, left⟩ :=
      @sold_of_applyFill ((state.note _).keep old) _ _ _ _ _ sound isApplied sells ofOld
    have empty : next.ledger.quantity securityId = 0 :=
      Nat.add_eq_right.mp left
    refine ⟨price, by omega, by omega, rounded, priceSmall, soundNext, ?_, ?_, ?_⟩
    · rw [empty, none']
    · rw [empty, Nat.cast_zero, mul_zero, sub_zero]
      exact earned
    · rw [empty, Nat.cast_zero, mul_zero]
      norm_num
  case isFalse =>
    obtain ⟨⟨bought, new⟩, isNew, made⟩ := bind_eq_ok.mp made
    cases made
    have ofNew := mint_contractId isNew
    obtain ⟨newFees, buys, -, free, rfl⟩ := mint_eq_ok isNew
    rw [if_neg Bool.false_ne_true] at free
    subst free
    obtain ⟨afterOld, isApplied, applied⟩ := bind_eq_ok.mp applied
    obtain ⟨afterNew, isApplied', applied⟩ := bind_eq_ok.mp applied
    cases applied
    obtain ⟨soundSold, earned, left⟩ := @sold_of_applyFill
      (((state.note _).keep old).keep new) _ _ _ _ _ sound isApplied sells ofOld
    have empty : afterOld.ledger.quantity securityId = 0 :=
      Nat.add_eq_right.mp left
    obtain ⟨soundNext, cost, held, small⟩ := bought_of_applyFill soundSold isApplied' buys ofNew
    rw [empty, Nat.zero_add] at held
    refine ⟨price, by omega, by omega, rounded, priceSmall, soundNext, held, ?_, ?_⟩
    · rw [held, cost, earned]
      rfl
    · rw [held]
      exact small

end Fills

/-! ## Rounding twice -/

section Rounding

/-- No amount that is not negative is halved by rounding. -/
theorem le_two_mul_roundContext {x : ℚ} (nonneg : 0 ≤ x) : x ≤ 2 * roundContext x := by
  have near := abs_le.mp (abs_roundContext_sub_le x)
  rw [abs_of_nonneg nonneg] at near
  have small : x / (2 * 10 ^ 27) ≤ x / 2 :=
    div_le_div_of_nonneg_left nonneg (by norm_num) (by norm_num)
  linarith [near.1]

variable {amount ratio : ℚ}

/-- The two roundings change a product by little of its size. -/
theorem abs_product_sub_le (nonneg : 0 ≤ amount) (positive : 0 ≤ ratio) :
    |roundContext (amount * roundContext ratio) - amount * ratio| ≤
      4 * roundContext (amount * roundContext ratio) / 10 ^ 27 := by
  have kept := roundContext_nonneg positive
  have product : 0 ≤ amount * roundContext ratio := mul_nonneg nonneg kept
  have outer := abs_roundContext_sub_le (amount * roundContext ratio)
  rw [abs_of_nonneg product] at outer
  have inner := mul_le_mul_of_nonneg_left (abs_roundContext_sub_le ratio) nonneg
  rw [abs_of_nonneg positive] at inner
  have scaled : |amount * roundContext ratio - amount * ratio| =
      amount * |roundContext ratio - ratio| := by
    rw [← mul_sub, abs_mul, abs_of_nonneg nonneg]
  have doubled := le_two_mul_roundContext product
  have quadrupled : amount * ratio ≤ 4 * roundContext (amount * roundContext ratio) := by
    have twice := mul_le_mul_of_nonneg_left (le_two_mul_roundContext positive) nonneg
    linarith
  have triangle := abs_sub_le (roundContext (amount * roundContext ratio))
    (amount * roundContext ratio) (amount * ratio)
  have first : amount * roundContext ratio / (2 * 10 ^ 27) ≤
      2 * roundContext (amount * roundContext ratio) / (2 * 10 ^ 27) :=
    div_le_div_of_nonneg_right doubled (by norm_num)
  have second : amount * (ratio / (2 * 10 ^ 27)) ≤
      4 * roundContext (amount * roundContext ratio) / (2 * 10 ^ 27) := by
    rw [← mul_div_assoc]
    exact div_le_div_of_nonneg_right quadrupled (by norm_num)
  rw [scaled] at triangle
  linarith

end Rounding

/-! ## The shares -/

section Shares

variable {quantity numerator denominator : ℕ}

/-- The exact result lies between the whole shares and one more. -/
theorem wholeShares_le (positive : 0 < denominator) :
    (wholeShares quantity numerator denominator : ℚ) ≤ quantity * (numerator / denominator) ∧
      (quantity * (numerator / denominator) : ℚ) <
        wholeShares quantity numerator denominator + 1 := by
  have scale : (0 : ℚ) < denominator := by exact_mod_cast positive
  rw [← mul_div_assoc, le_div_iff₀ scale, div_lt_iff₀ scale, wholeShares]
  constructor
  · exact_mod_cast Nat.div_mul_le_self (quantity * numerator) denominator
  · exact_mod_cast Nat.lt_mul_of_div_lt (Nat.lt_succ_self _) positive

/-- **The shares that are bought are the whole shares** just where rounding keeps them. -/
theorem convertedQuantity_eq_iff (positive : 0 < denominator)
    (few : convertedQuantity quantity (roundContext (numerator / denominator)) < 10 ^ 18) :
    convertedQuantity quantity (roundContext (numerator / denominator)) =
      wholeShares quantity numerator denominator ↔ SharesKept quantity numerator denominator := by
  have ratioNonneg : (0 : ℚ) ≤ numerator / denominator := by positivity
  have productNonneg : 0 ≤ quantity * roundContext ((numerator : ℚ) / denominator) :=
    mul_nonneg quantity.cast_nonneg (roundContext_nonneg ratioNonneg)
  have roundedNonneg := roundContext_nonneg productNonneg
  -- so few shares are bought that a whole number has digits to spare
  have small : (wholeShares quantity numerator denominator : ℚ) + 1 ≤ 10 ^ 27 := by
    have below : roundContext (quantity * roundContext ((numerator : ℚ) / denominator)) <
        10 ^ 18 := by
      rw [convertedQuantity, mul, Int.floor_toNat] at few
      have floor := (Nat.floor_lt roundedNonneg).mp few
      exact_mod_cast floor
    have twice := le_two_mul_roundContext productNonneg
    have factor := mul_le_mul_of_nonneg_left (le_two_mul_roundContext ratioNonneg)
      (quantity.cast_nonneg : (0 : ℚ) ≤ quantity)
    have whole := (@wholeShares_le quantity numerator denominator positive).1
    linarith
  have reaches : ∀ n : ℕ, 0 < n → (n : ℚ) ≤ 10 ^ 27 →
      ((n : ℚ) ≤ roundContext (quantity * roundContext ((numerator : ℚ) / denominator)) ↔
        n - halfDigitBelow n ≤ quantity * roundContext ((numerator : ℚ) / denominator)) := by
    intro n some few
    exact @le_roundContext_iff n _ 0 ⟨n, by simp⟩ (by exact_mod_cast some)
      (by simpa using few)
  rw [convertedQuantity, mul, Int.floor_toNat, Nat.floor_eq_iff roundedNonneg, SharesKept]
  refine and_congr ?_ ?_
  · rcases Nat.eq_zero_or_pos (wholeShares quantity numerator denominator) with none | some
    · -- nothing is always reached
      rw [none, Nat.cast_zero]
      have half := halfDigitBelow_pos 0
      exact iff_of_true roundedNonneg (by linarith)
    · exact reaches _ some (by linarith)
  · have next := reaches (wholeShares quantity numerator denominator + 1) (Nat.succ_pos _)
      (by exact_mod_cast small)
    rw [Nat.cast_add, Nat.cast_one] at next
    rw [← not_le, next, not_le]

end Shares

/-! ## The price of an old share -/

theorem abs_cents_sub_le_iff {price rounded : ℚ} (nonneg : 0 ≤ rounded)
    (near : |rounded - price| ≤ 1 / 200) :
    |(roundHalfUp (rounded * 100) : ℚ) / 100 - price| ≤ 1 / 200 ↔
      (price < halfCentAbove price → rounded < halfCentAbove price) ∧
        (halfCentAbove price < price → halfCentAbove price ≤ rounded) := by
  obtain ⟨above, below⟩ := abs_le.mp near
  have low := Int.floor_le (price * 100)
  have high := Int.lt_floor_add_one (price * 100)
  have isRounded : roundHalfUp (rounded * 100) = ⌊rounded * 100 + 1 / 2⌋ := by
    rw [roundHalfUp, if_pos (by linarith)]
  rw [isRounded, halfCentAbove]
  have roundedLow := Int.floor_le (rounded * 100 + 1 / 2)
  have roundedHigh := Int.lt_floor_add_one (rounded * 100 + 1 / 2)
  set cents := ⌊price * 100⌋ with isCents
  set kept := ⌊rounded * 100 + 1 / 2⌋ with isKept
  -- what is rounded is one of the two cents around the amount
  have atLeast : cents ≤ kept := Int.le_floor.mpr (by linarith)
  have atMost : kept ≤ cents + 1 := by
    have less : kept < cents + 2 := Int.floor_lt.mpr (by push_cast; linarith)
    omega
  rcases atLeast.eq_or_lt with same | more
  · rw [← same]
    rw [← same] at roundedHigh
    constructor
    · intro within
      have bounds := abs_le.mp within
      refine ⟨fun _ => by linarith, fun beyond => ?_⟩
      linarith [bounds.1]
    · rintro ⟨-, reaches⟩
      rw [abs_le]
      constructor
      · by_contra far
        have reached := reaches (by linarith)
        linarith
      · linarith
  · have next : kept = cents + 1 := by omega
    rw [next] at roundedLow ⊢
    push_cast at roundedLow ⊢
    constructor
    · intro within
      have bounds := abs_le.mp within
      refine ⟨fun short => ?_, fun _ => by linarith⟩
      linarith [bounds.2]
    · rintro ⟨stays, -⟩
      rw [abs_le]
      constructor
      · linarith
      · by_contra far
        have stayed := stays (by linarith)
        linarith

/-- **The price of an old share is within half a cent** just where rounding keeps its side. -/
theorem abs_price_sub_le_iff {openPrice price : ℚ} {numerator denominator : ℕ}
    (positive : 0 < openPrice) (small : price < 10 ^ 10)
    (isPrice : price = roundHalfUp
      (roundContext (openPrice * roundContext (numerator / denominator)) * 100) / 100) :
    |price - openPrice * (numerator / denominator)| ≤ 1 / 200 ↔
      PriceKept openPrice numerator denominator := by
  have ratioNonneg : (0 : ℚ) ≤ numerator / denominator := by positivity
  have productNonneg : 0 ≤ openPrice * roundContext ((numerator : ℚ) / denominator) :=
    mul_nonneg positive.le (roundContext_nonneg ratioNonneg)
  have roundedNonneg := roundContext_nonneg productNonneg
  have exactNonneg : 0 ≤ openPrice * ((numerator : ℚ) / denominator) :=
    mul_nonneg positive.le ratioNonneg
  set rounded := roundContext (openPrice * roundContext ((numerator : ℚ) / denominator))
    with isRounded
  have below : rounded < 10 ^ 11 := by
    have floor := Int.lt_floor_add_one (rounded * 100 + 1 / 2)
    rw [roundHalfUp, if_pos (by linarith)] at isPrice
    linarith
  have error := abs_product_sub_le positive.le ratioNonneg
  have near : |rounded - openPrice * ((numerator : ℚ) / denominator)| ≤ 1 / 200 := by
    refine error.trans ?_
    rw [div_le_iff₀ (by norm_num)]
    linarith
  rw [isPrice, abs_cents_sub_le_iff roundedNonneg near, PriceKept]
  set exactPrice := openPrice * ((numerator : ℚ) / denominator) with isExact
  have reaches : halfCentAbove exactPrice ≤ rounded ↔
      halfCentAbove exactPrice - halfDigitBelow (halfCentAbove exactPrice) ≤
        openPrice * roundContext ((numerator : ℚ) / denominator) := by
    have floor : 0 ≤ ⌊exactPrice * 100⌋ := Int.floor_nonneg.mpr (by linarith)
    have sign : (0 : ℚ) ≤ ⌊exactPrice * 100⌋ := by exact_mod_cast floor
    refine @le_roundContext_iff _ _ 3 ⟨10 * ⌊exactPrice * 100⌋ + 5, ?_⟩ ?_ ?_
    · rw [halfCentAbove]
      push_cast
      norm_num
      ring
    · rw [halfCentAbove]
      positivity
    · have low := Int.floor_le (exactPrice * 100)
      have bound := (abs_le.mp near).1
      rw [halfCentAbove]
      norm_num
      linarith
  have stays : rounded < halfCentAbove exactPrice ↔
      openPrice * roundContext ((numerator : ℚ) / denominator) <
        halfCentAbove exactPrice - halfDigitBelow (halfCentAbove exactPrice) := by
    rw [← not_le, reaches, not_le]
  rw [stays, reaches]

/-! ## Conversions -/

section Conversions

variable {calendar : TradingCalendar} {state next last : EquityState} {securityId : String}
  {bar bar' : BarRecord} {quantity numerator denominator : ℕ}

/-- The shares that a conversion buys are fewer than 10^18: their amount was accepted. -/
theorem Converted.few {openPrice : Price} {price : ℚ}
    (converted : Converted state next securityId openPrice.value numerator denominator price) :
    next.ledger.quantity securityId < 10 ^ 18 := by
  obtain ⟨n, isCents⟩ := mem_cents_iff.mp openPrice.whole
  have cent : 1 / 100 ≤ openPrice.value := by
    have positive := openPrice.positive
    rw [isCents] at positive ⊢
    have sign : (0 : ℚ) < n := by linarith
    have least : 1 ≤ n := by exact_mod_cast sign
    have unit : (1 : ℚ) ≤ n := by exact_mod_cast least
    linarith
  have amount := converted.amount_lt
  have scaled := mul_le_mul_of_nonneg_right cent
    ((next.ledger.quantity securityId).cast_nonneg : (0 : ℚ) ≤ _)
  have below : ((next.ledger.quantity securityId : ℕ) : ℚ) < 10 ^ 18 := by linarith
  exact_mod_cast below

/-- **The whole shares are held afterwards** just where rounding keeps them. -/
theorem Converted.shares_iff {openPrice : Price} {price : ℚ}
    (converted : Converted state next securityId openPrice.value numerator denominator price) :
    next.ledger.quantity securityId =
      wholeShares (state.ledger.quantity securityId) numerator denominator ↔
      SharesKept (state.ledger.quantity securityId) numerator denominator := by
  have few := converted.few
  rw [converted.shares] at few
  rw [converted.shares]
  exact convertedQuantity_eq_iff converted.denominator_pos few

/-- **A conversion leaves the whole shares and the cash of the fraction** just where neither
rounding crosses. What is converted back then comes back whole just where rounding keeps it. -/
theorem converts_exactly_iff (sound : state.ledger.Sound)
    (held : 1 ≤ state.ledger.quantity securityId)
    (ran : convertHolding calendar state securityId bar numerator denominator = .ok next) :
    (ConvertsExactly state next securityId bar.openPrice.value numerator denominator ↔
      SharesKept (state.ledger.quantity securityId) numerator denominator ∧
        PriceKept bar.openPrice.value numerator denominator) ∧
    (SharesKept (state.ledger.quantity securityId) numerator denominator →
      denominator ∣ state.ledger.quantity securityId * numerator →
      ∀ (calendar' : TradingCalendar) (bar' : BarRecord) (last : EquityState),
        convertHolding calendar' next securityId bar' denominator numerator = .ok last →
        (last.ledger.quantity securityId = state.ledger.quantity securityId ↔
          SharesKept (state.ledger.quantity securityId * numerator / denominator) denominator
            numerator)) := by
  obtain ⟨price, converted⟩ := converted_of_convertHolding sound ran
  set quantity := state.ledger.quantity securityId with isQuantity
  have some : (0 : ℚ) < quantity := by exact_mod_cast held
  have priced := abs_price_sub_le_iff bar.openPrice.positive converted.price_lt converted.price_eq
  -- with the whole shares, the cash is off by what the price is, for each old share
  have cash : next.ledger.quantity securityId = wholeShares quantity numerator denominator →
      (|next.ledger.cash - state.ledger.cash -
          remainderValue quantity numerator denominator bar.openPrice.value| ≤
        quantity * (1 / 200) ↔ PriceKept bar.openPrice.value numerator denominator) := by
    intro whole
    have off : next.ledger.cash - state.ledger.cash -
        remainderValue quantity numerator denominator bar.openPrice.value =
          quantity * (price - bar.openPrice.value * (numerator / denominator)) := by
      rw [converted.cash, whole, remainderValue, ← isQuantity]
      ring
    rw [off, abs_mul, abs_of_pos some, mul_le_mul_iff_of_pos_left some]
    exact priced
  constructor
  · constructor
    · intro exact
      exact ⟨converted.shares_iff.mp exact.shares, (cash exact.shares).mp exact.cash⟩
    · rintro ⟨sharesKept, priceKept⟩
      have whole := converted.shares_iff.mpr sharesKept
      exact ⟨whole, (cash whole).mpr priceKept⟩
  · intro sharesKept divides calendar' bar' last back
    have whole := converted.shares_iff.mpr sharesKept
    obtain ⟨price', restored⟩ := converted_of_convertHolding converted.sound back
    have restores := restored.shares_iff
    rw [whole, wholeShares, wholeShares, Nat.div_mul_cancel divides,
      Nat.mul_div_cancel _ converted.numerator_pos] at restores
    exact restores

end Conversions

/-! ## Two holdings -/

/-- Some shares are bought at thirty dollars and converted. -/
def convertBought (quantity numerator denominator : ℕ) :
    Except EquityError (EquityState × EquityState × BarRecord) := do
  let bar ← orRaise .assertion (barAt 1 30)
  let (minted, fill) ← mint (.start 1000) "A" .buy quantity 30 0 0 false "rebalance"
  let state ← applyFill minted fill
  let next ← convertHolding week state "A" bar numerator denominator
  return (state, next, bar)

/-- What is held before a conversion and after it, and the cash that it leaves. -/
def shownConversion (run : Except EquityError (EquityState × EquityState × BarRecord)) :
    Option (ℕ × ℕ × ℚ) :=
  run.toOption.map fun (state, next, _) =>
    (state.ledger.quantity "A", next.ledger.quantity "A", next.ledger.cash - state.ledger.cash)

theorem shownConversion_samples :
    shownConversion (convertBought 3 1 3) = some (3, 0, 30) ∧
      shownConversion (convertBought 10 2 1) = some (10, 20, 0) := by
  decide +kernel

theorem exists_of_shownConversion {quantity numerator denominator : ℕ} {shown : ℕ × ℕ × ℚ}
    (isShown : shownConversion (convertBought quantity numerator denominator) = some shown) :
    ∃ state next bar, state.ledger.Sound ∧
      convertHolding week state "A" bar numerator denominator = .ok next ∧
      state.ledger.quantity "A" = shown.1 ∧ next.ledger.quantity "A" = shown.2.1 ∧
      next.ledger.cash - state.ledger.cash = shown.2.2 := by
  cases ran : convertBought quantity numerator denominator with
  | error error =>
    rw [ran] at isShown
    cases isShown
  | ok reached =>
    rw [ran] at isShown
    cases isShown
    obtain ⟨bar, -, ran⟩ := bind_eq_ok.mp ran
    obtain ⟨⟨minted, fill⟩, made, ran⟩ := bind_eq_ok.mp ran
    obtain ⟨state, applied, ran⟩ := bind_eq_ok.mp ran
    obtain ⟨next, converted, ran⟩ := bind_eq_ok.mp ran
    cases ran
    have ofFill := mint_contractId made
    obtain ⟨fees, buys, -, free, rfl⟩ := mint_eq_ok made
    rw [if_neg Bool.false_ne_true] at free
    subst free
    have sound := (@bought_of_applyFill ((EquityState.start 1000).keep fill) _ _ _ _ _
      (LedgerBook.sound_new 1000) applied buys ofFill).1
    exact ⟨state, next, bar, sound, converted, rfl, rfl, rfl⟩

/-- Ten shares become twenty. -/
theorem converts_exactly_iff_sample :
    ∃ (state next : EquityState) (bar : BarRecord), state.ledger.quantity "A" = 10 ∧
      (ConvertsExactly state next "A" bar.openPrice.value 2 1 ↔
        SharesKept 10 2 1 ∧ PriceKept bar.openPrice.value 2 1) := by
  obtain ⟨state, next, bar, sound, converted, held, -, -⟩ :=
    exists_of_shownConversion shownConversion_samples.2
  refine ⟨state, next, bar, held, ?_⟩
  have exact := (converts_exactly_iff sound (by omega) converted).1
  rwa [held] at exact

/-- A third of three shares is one. The quotient is 0.333 and so on, and nothing is bought. -/
theorem third_of_three_is_lost :
    ¬ ∀ (calendar : TradingCalendar) (state next : EquityState) (securityId : String)
        (bar : BarRecord) (numerator denominator : ℕ), state.ledger.Sound →
      1 ≤ state.ledger.quantity securityId →
      convertHolding calendar state securityId bar numerator denominator = .ok next →
      ConvertsExactly state next securityId bar.openPrice.value numerator denominator := by
  intro exact
  obtain ⟨state, next, bar, sound, converted, held, left, -⟩ :=
    exists_of_shownConversion shownConversion_samples.1
  have shares := (exact week state next "A" bar 1 3 sound (by omega) converted).shares
  rw [held, left] at shares
  cases shares

end TreeOptions.Backtest
