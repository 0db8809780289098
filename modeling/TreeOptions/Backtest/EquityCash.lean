import TreeOptions.Backtest.EquityMoves

/-!
# The cash of the equity backtest

A sale earns at least its fees, a purchase is limited by the cash, and a dividend earns what it
pays. A ratio conversion may cost: the price at which it sells is rounded to the cent for each
share. So the cash stays at zero or above after every fill exactly when every conversion is
covered by what it sells and the cash before it (`CashKept.iff`).
-/

set_option autoImplicit false

namespace TreeOptions.Backtest

open Checked Decimal Ledger

variable {session : ℤ} {state next : EquityState}

/-! ## The cash of one fill -/

variable {fill : Fill} {price fees : ℚ}

theorem Trades.amount_mem {side : Side} {quantity : ℕ}
    (trades : Trades fill side quantity price fees) : price * quantity ∈ cents := by
  rw [← trades.price_eq]
  exact mul_natCast_mem fill.price.whole quantity

/-- The amount of a fill for one unit a share. -/
theorem Trades.primitiveCash_eq {side : Side} {quantity : ℕ}
    (trades : Trades fill side quantity price fees) : primitiveCash fill = match side with
      | .buy => -(price * quantity)
      | .sell => price * quantity := by
  have magnitude : quantize (fill.price.value * fill.quantity * fill.multiplier) =
      price * quantity := by
    rw [quantize_of_mem (fill.price.mul_mem ..), trades.price_eq, trades.quantity_eq,
      trades.multiplier_eq, Nat.cast_one, mul_one]
  rw [primitiveCash, magnitude, trades.side_eq]
  cases side with
  | buy => rfl
  | sell => rfl

/-- A sale earns its amount less its fees. -/
theorem Filled.cash_sell {quantity : ℕ} (filled : Filled session state next fill)
    (sound : state.ledger.Sound) (trades : Trades fill .sell quantity price fees) :
    next.ledger.cash = state.ledger.cash + price * quantity - fees ∧
      |price * quantity| < 10 ^ 16 := by
  have paid := LedgerBook.cash_of_apply sound filled.ran
  rw [trades.primitiveCash_eq, trades.fees_eq] at paid
  exact paid

/-- A purchase costs its amount and its fees. -/
theorem Filled.cash_buy {quantity : ℕ} (filled : Filled session state next fill)
    (sound : state.ledger.Sound) (trades : Trades fill .buy quantity price fees) :
    next.ledger.cash = state.ledger.cash - price * quantity - fees ∧
      |price * quantity| < 10 ^ 16 := by
  have paid := LedgerBook.cash_of_apply sound filled.ran
  rw [trades.primitiveCash_eq, trades.fees_eq] at paid
  refine ⟨?_, ?_⟩
  · rw [paid.1]
    ring
  · rw [← abs_neg]
    exact paid.2

/-! ## The invariant -/

/-- The cash was at zero or above after every fill exactly when all conversions were covered. -/
structure CashKept (state : EquityState) : Prop where
  sound : state.ledger.Sound
  booksSound : ∀ book ∈ state.books, book.Sound
  covered : (∀ book ∈ state.books, 0 ≤ book.cash) →
    ∀ converted ∈ state.conversions, converted.Covered
  paid : (∀ converted ∈ state.conversions, converted.Covered) →
    ∀ book ∈ state.books, 0 ≤ book.cash
  solvent : (∀ converted ∈ state.conversions, converted.Covered) → 0 ≤ state.ledger.cash

namespace CashKept

theorem quiet (kept : CashKept state) (same : Quiet state next) : CashKept next := by
  obtain ⟨ledger, books, -, conversions⟩ := same
  refine ⟨?_, ?_, ?_, ?_, ?_⟩
  · rw [ledger]
    exact kept.sound
  · rw [books]
    exact kept.booksSound
  · rw [books, conversions]
    exact kept.covered
  · rw [books, conversions]
    exact kept.paid
  · rw [ledger, conversions]
    exact kept.solvent

variable {fill : Fill}

/-- A fill keeps the invariant when it leaves the cash at zero or above. -/
theorem filled (kept : CashKept state) (filled : Filled session state next fill)
    (pays : (∀ converted ∈ state.conversions, converted.Covered) → 0 ≤ next.ledger.cash) :
    CashKept next := by
  have sound := kept.sound.of_apply filled.ran
  refine ⟨sound, ?_, ?_, ?_, ?_⟩
  · rw [filled.books]
    exact List.forall_mem_append.mpr ⟨kept.booksSound, List.forall_mem_singleton.mpr sound⟩
  · rw [filled.books, filled.conversions]
    intro nonneg
    exact kept.covered fun book isMember => nonneg book (List.mem_append_left _ isMember)
  · rw [filled.books, filled.conversions]
    intro covered
    exact List.forall_mem_append.mpr
      ⟨kept.paid covered, List.forall_mem_singleton.mpr (pays covered)⟩
  · rw [filled.conversions]
    exact pays

variable {price : ℚ}

section

variable (kept : CashKept state)

include kept

theorem sale {quantity : ℕ} {fees : ℚ} (isFilled : Filled session state next fill)
    (trades : Trades fill .sell quantity price fees)
    (priced : (FeeModel.fiveBasisPoints).orderFees price quantity = .ok fees) : CashKept next := by
  obtain ⟨cash, small⟩ := isFilled.cash_sell kept.sound trades
  have atMost := FeeModel.orderFees_le priced trades.amount_mem small
  refine kept.filled isFilled ?_
  intro covered
  have solvent := kept.solvent covered
  rw [cash]
  linarith

theorem purchase {quantity affordable : ℕ} {fees most : ℚ}
    (isFilled : Filled session state next fill) (trades : Trades fill .buy quantity price fees)
    (priced : (FeeModel.fiveBasisPoints).orderFees price quantity = .ok fees)
    (le : quantity ≤ affordable)
    (bounded : (FeeModel.fiveBasisPoints).orderFees price affordable = .ok most)
    (fits : add (mul price affordable) most ≤ state.ledger.cash) : CashKept next := by
  obtain ⟨cash, small⟩ := isFilled.cash_buy kept.sound trades
  have wholeFees : fees ∈ cents := by
    rw [← trades.fees_eq]
    exact fill.fees.whole
  have smallFees : |fees| < 10 ^ 16 := by
    rw [← trades.fees_eq]
    exact fill.fees.small
  have cost := FeeModel.cost_le_of_affordable le priced bounded fits trades.amount_mem small
    wholeFees smallFees
  refine kept.filled isFilled ?_
  intro _
  rw [cash]
  linarith

theorem dividend {old new : Fill} {quantity : ℕ} {openPrice : ℚ} {sold : EquityState}
    (first : Filled session state sold old) (second : Filled session sold next new)
    (sells : Trades old .sell quantity price 0) (buys : Trades new .buy quantity openPrice 0)
    (le : openPrice ≤ price) : CashKept next := by
  have positive : 0 < price := by
    rw [← sells.price_eq]
    exact old.price.positive
  obtain ⟨earned, -⟩ := first.cash_sell kept.sound sells
  have afterSale : CashKept sold := by
    refine kept.filled first ?_
    intro covered
    have solvent := kept.solvent covered
    have amount : 0 ≤ price * quantity := mul_nonneg positive.le quantity.cast_nonneg
    rw [earned]
    linarith
  obtain ⟨cost, -⟩ := second.cash_buy afterSale.sound buys
  refine afterSale.filled second ?_
  rw [first.conversions]
  intro covered
  have solvent := kept.solvent covered
  have amounts : openPrice * quantity ≤ price * quantity :=
    mul_le_mul_of_nonneg_right le quantity.cast_nonneg
  rw [cost, earned]
  linarith

theorem conversion {noted sold : EquityState} {converted : RatioConversion} {ratio : ℚ} {old : Fill}
    (cash : converted.cash = state.ledger.cash)
    (isRatio : div? converted.numerator converted.denominator = some ratio)
    (isPrice : quantizeCents roundHalfUp (mul converted.openPrice ratio) = some price)
    (ledger : noted.ledger = state.ledger) (books : noted.books = state.books)
    (conversions : noted.conversions = state.conversions ++ [converted])
    (first : Filled session noted sold old) (sells : Trades old .sell converted.quantity price 0)
    (second : convertedQuantity converted.quantity ratio = 0 ∧ Quiet sold next ∨
      ∃ new, Filled session sold next new ∧
        Trades new .buy (convertedQuantity converted.quantity ratio) converted.openPrice 0) :
    CashKept next := by
  have positive : 0 < price := by
    rw [← sells.price_eq]
    exact old.price.positive
  have soundNoted : noted.ledger.Sound := by
    rw [ledger]
    exact kept.sound
  have earned : sold.ledger.cash = converted.cash + converted.quantity * price := by
    rw [(first.cash_sell soundNoted sells).1, ledger, cash]
    ring
  have soundSold := soundNoted.of_apply first.ran
  have isCovered : converted.Covered ↔
      convertedQuantity converted.quantity ratio * converted.openPrice ≤ sold.ledger.cash := by
    rw [earned]
    constructor
    · intro covered
      exact covered ratio isRatio price isPrice
    · intro le ratio' isRatio' price' isPrice'
      rw [Option.mem_def, isRatio] at isRatio'
      cases isRatio'
      rw [Option.mem_def, isPrice] at isPrice'
      cases isPrice'
      exact le
  have booksSold : sold.books = state.books ++ [sold.ledger] := by rw [first.books, books]
  have conversionsSold : sold.conversions = state.conversions ++ [converted] := by
    rw [first.conversions, conversions]
  have afterSale : 0 ≤ converted.cash → 0 ≤ sold.ledger.cash := by
    intro solvent
    have amount : 0 ≤ (converted.quantity : ℚ) * price :=
      mul_nonneg converted.quantity.cast_nonneg positive.le
    rw [earned]
    linarith
  rcases second with ⟨none', same⟩ | ⟨new, bought, buys⟩
  · -- nothing is bought, so the cash after the sale is what has to be covered
    rw [none', Nat.cast_zero, zero_mul] at isCovered
    suffices keptSold : CashKept sold from keptSold.quiet same
    refine ⟨soundSold, ?_, ?_, ?_, ?_⟩
    · rw [booksSold]
      exact List.forall_mem_append.mpr ⟨kept.booksSound, List.forall_mem_singleton.mpr soundSold⟩
    · rw [booksSold, conversionsSold]
      simp only [List.forall_mem_append, List.forall_mem_singleton]
      exact fun nonneg => ⟨kept.covered nonneg.1, isCovered.mpr nonneg.2⟩
    · rw [booksSold, conversionsSold]
      simp only [List.forall_mem_append, List.forall_mem_singleton]
      exact fun covered => ⟨kept.paid covered.1, isCovered.mp covered.2⟩
    · rw [conversionsSold]
      intro covered
      exact isCovered.mp (covered converted List.mem_concat_self)
  · have soundNext := soundSold.of_apply bought.ran
    have cost : next.ledger.cash =
        sold.ledger.cash - convertedQuantity converted.quantity ratio * converted.openPrice := by
      rw [(bought.cash_buy soundSold buys).1]
      ring
    have isPaid : converted.Covered ↔ 0 ≤ next.ledger.cash := by
      rw [isCovered, cost, sub_nonneg]
    have booksNext : next.books = state.books ++ [sold.ledger, next.ledger] := by
      rw [bought.books, booksSold, List.append_assoc]
      rfl
    have conversionsNext : next.conversions = state.conversions ++ [converted] := by
      rw [bought.conversions, conversionsSold]
    refine ⟨soundNext, ?_, ?_, ?_, ?_⟩
    · rw [booksNext]
      refine List.forall_mem_append.mpr ⟨kept.booksSound, ?_⟩
      exact List.forall_mem_cons.mpr ⟨soundSold, List.forall_mem_singleton.mpr soundNext⟩
    · rw [booksNext, conversionsNext]
      simp only [List.forall_mem_append, List.forall_mem_cons]
      exact fun nonneg => ⟨kept.covered nonneg.1, isPaid.mpr nonneg.2.2.1, nofun⟩
    · rw [booksNext, conversionsNext]
      simp only [List.forall_mem_append, List.forall_mem_cons]
      exact fun covered => ⟨kept.paid covered.1, afterSale (cash ▸ kept.solvent covered.1),
        isPaid.mp covered.2.1, nofun⟩
    · rw [conversionsNext]
      intro covered
      exact isPaid.mp (covered converted List.mem_concat_self)

/-- **Every move keeps the invariant.** -/
theorem move (moved : Move session state next) : CashKept next := by
  cases moved with
  | quiet same => exact kept.quiet same
  | sale fill quantity price fees filled trades priced => exact kept.sale filled trades priced
  | purchase fill quantity affordable price fees most filled trades priced le bounded fits =>
    exact kept.purchase filled trades priced le bounded fits
  | dividend old new quantity price openPrice sold first second sells buys le =>
    exact kept.dividend first second sells buys le
  | conversion noted sold converted ratio price old cash isRatio isPrice ledger books fills
      conversions first sells second =>
      exact kept.conversion cash isRatio isPrice ledger books conversions first sells second

theorem moves (moved : Moves session state next) : CashKept next := by
  induction moved with
  | refl => exact kept
  | tail _ move ih => exact ih.move move

theorem iff :
    (∀ book ∈ state.books, 0 ≤ book.cash) ↔ ∀ converted ∈ state.conversions, converted.Covered :=
  ⟨kept.covered, kept.paid⟩

end

end CashKept

end TreeOptions.Backtest
