import Mathlib.Data.Prod.Lex
import TreeOptions.Foundations.Checked
import TreeOptions.Foundations.DecimalContext
import TreeOptions.Foundations.Grouping
import TreeOptions.Foundations.Instant

/-!
# Quotes and what a fill may consume of them

A quote is a two-sided market (`QuoteEvent`) or a daily bar with one volume-weighted
price (`VwapQuoteEvent`). Reality may be crossed, stale or of no size; `asTradable` and
`asTradableVwap` are the only doors to a fill, and what passes them carries its checks
(`TradableQuote`, `VwapTradableQuote`).

`selectQuote` takes the quote received last at or before an instant. A tie between quotes
of the two kinds is refused, so the order of a stream decides nothing between them.

Instants are microseconds, dates are days, and prices are finite decimals; an age in
seconds is compared as the number it is.
-/

set_option autoImplicit false

namespace TreeOptions.Guards

open Checked Decimal

/-- The codes of a refusal of the engine, with the values their detail names. -/
inductive Rejection
  | duplicateOrderExecution (orderId : String)
  | orderRebound (orderId : String)
  | partialExceedsOrder (orderId : String) (filled quantity : ℤ)
  | sessionNotInCalendar (session : ℤ)
  | contractMismatch (order contract : String) (quotes : List String)
  | contractNotListed (contractId : String) (session : ℤ)
  | contractExpired (contractId : String) (session : ℤ)
  | contractUnknownAtDecision (contractId : String) (session : ℤ)
  | decisionCloseNotMapped (session : ℤ)
  | decisionInstantNotClose (decisionAt close : ℤ)
  | sameSessionExecution (effectiveAt session : ℤ)
  | executionInstantMismatch (effectiveAt session : ℤ)
  | barSessionNotInCalendar (session : ℤ)
  | barSessionStampMismatch (session : ℤ)
  | barNotMostRecent (session : ℤ)
  | nonstandardDeliverable (contractId : String)
  | invalidFractionToMidpoint (fraction : ℚ)
  | priceOutsideBounds (price : ℚ)
  | unmarketableLimit (limit price : ℚ)
  | noLiquidity (capacity displayed : ℤ)
deriving DecidableEq

/-- Whatever a call of the engine raises. -/
inductive EngineError
  | rejection (code : Rejection)
  | staleQuote
  | nonpositiveQuote
  | nonTickQuote
  | crossedQuote
  | lockedQuote
  | zeroSizeQuote
  | nonTradableCondition
  | zeroVolumeVwap
  | valueError (message : String)
  | validation (field : String)
  | notASession (session : ℤ)
  | overflow
  | invalidOperation
  | feeModel (message : String)
deriving DecidableEq

/-! ## The two kinds -/

structure QuoteEvent where
  contractId : String
  exchangeTimestamp : ℤ
  receivedTimestamp : ℤ
  bid : ℚ
  ask : ℚ
  bidSize : ℕ
  askSize : ℕ
  quoteCondition : String
  bid_nonneg : 0 ≤ bid
  ask_nonneg : 0 ≤ ask
  received_later : exchangeTimestamp ≤ receivedTimestamp

structure VwapQuoteEvent where
  contractId : String
  session : ℤ
  exchangeTimestamp : ℤ
  receivedTimestamp : ℤ
  vwap : ℚ
  volume : ℕ
  quoteCondition : String
  vwap_pos : 0 < vwap
  received_later : exchangeTimestamp ≤ receivedTimestamp

/-- A quote of either kind. -/
inductive Quote
  | twoSided (event : QuoteEvent)
  | vwap (event : VwapQuoteEvent)

namespace Quote

def contractId : Quote → String
  | twoSided event => event.contractId
  | vwap event => event.contractId

def exchangeTimestamp : Quote → ℤ
  | twoSided event => event.exchangeTimestamp
  | vwap event => event.exchangeTimestamp

def receivedTimestamp : Quote → ℤ
  | twoSided event => event.receivedTimestamp
  | vwap event => event.receivedTimestamp

def isVwap : Quote → Bool
  | twoSided _ => false
  | vwap _ => true

/-- The later of two keys is the quote to take. -/
def key (quote : Quote) : ℤ ×ₗ ℤ :=
  toLex (quote.receivedTimestamp, quote.exchangeTimestamp)

end Quote

/-- The latest quote received at or before an instant. -/
def selectQuote (quotes : List Quote) (executionAt : ℤ) : Except EngineError Quote :=
  match greatestBy Quote.key (quotes.filter fun quote => quote.receivedTimestamp ≤ executionAt) with
  | none => .error .staleQuote
  | some top => do
      refuse (quotes.any fun quote => quote.receivedTimestamp ≤ executionAt ∧
          quote.key = top.key ∧ quote.isVwap ≠ top.isVwap)
        (.valueError "ambiguous cross-kind quote tie")
      return top

/-! ## Tradable quotes -/

def tradableConditions : List String :=
  ["regular", "opening", "closing", "regular_trading"]

/-- The only two-sided quote a fill may consume. -/
structure TradableQuote where
  quote : QuoteEvent
  bid_pos : 0 < quote.bid
  uncrossed : quote.bid ≤ quote.ask
  bidSize_pos : 1 ≤ quote.bidSize
  askSize_pos : 1 ≤ quote.askSize
  condition : quote.quoteCondition ∈ tradableConditions

/-- The only bar a fill may consume. -/
structure VwapTradableQuote where
  quote : VwapQuoteEvent
  volume_pos : 1 ≤ quote.volume
  condition : quote.quoteCondition ∈ tradableConditions

/-- Prices on the grid of whole cents. -/
def OnTick (price : ℚ) : Prop :=
  (mul price 100).den = 1

instance (price : ℚ) : Decidable (OnTick price) :=
  inferInstanceAs (Decidable ((mul price 100).den = 1))

/-- The schema of a tradable quote. -/
def toTradable (quote : QuoteEvent) : Except EngineError TradableQuote :=
  if prices : 0 < quote.bid ∧ quote.bid ≤ quote.ask then
    if sizes : 1 ≤ quote.bidSize ∧ 1 ≤ quote.askSize then
      if condition : quote.quoteCondition ∈ tradableConditions then
        .ok ⟨quote, prices.1, prices.2, sizes.1, sizes.2, condition⟩
      else .error (.validation "quote")
    else .error (.validation "quote")
  else .error (.validation "quote")

def asTradable (quote : QuoteEvent) (executionAt maxQuoteAgeSeconds : ℤ) (rejectLocked : Bool) :
    Except EngineError TradableQuote := do
  refuse (executionAt < quote.receivedTimestamp) .staleQuote
  refuse (maxQuoteAgeSeconds * microseconds < executionAt - quote.receivedTimestamp) .staleQuote
  refuse (quote.bid ≤ 0 ∨ quote.ask ≤ 0) .nonpositiveQuote
  refuse (¬ OnTick quote.bid) .nonTickQuote
  refuse (¬ OnTick quote.ask) .nonTickQuote
  refuse (quote.ask < quote.bid) .crossedQuote
  refuse (rejectLocked = true ∧ quote.bid = quote.ask) .lockedQuote
  refuse (quote.bidSize < 1 ∨ quote.askSize < 1) .zeroSizeQuote
  refuse (quote.quoteCondition ∉ tradableConditions) .nonTradableCondition
  toTradable quote

/-- The schema of a tradable bar. -/
def toVwapTradable (quote : VwapQuoteEvent) : Except EngineError VwapTradableQuote :=
  if volume : 1 ≤ quote.volume then
    if condition : quote.quoteCondition ∈ tradableConditions then .ok ⟨quote, volume, condition⟩
    else .error (.validation "quote")
  else .error (.validation "quote")

/-- A bar has to be published. It has no age. -/
def asTradableVwap (quote : VwapQuoteEvent) (executionAt : ℤ) :
    Except EngineError VwapTradableQuote := do
  refuse (executionAt < quote.receivedTimestamp) .staleQuote
  refuse (quote.volume < 1) .zeroVolumeVwap
  refuse (quote.quoteCondition ∉ tradableConditions) .nonTradableCondition
  toVwapTradable quote

theorem asTradableVwap_quote {quote : VwapQuoteEvent} {executionAt : ℤ}
    {tradable : VwapTradableQuote} (passed : asTradableVwap quote executionAt = .ok tradable) :
    tradable.quote = quote := by
  obtain ⟨-, passed⟩ := refuse_bind_eq_ok.mp passed
  obtain ⟨-, passed⟩ := refuse_bind_eq_ok.mp passed
  obtain ⟨-, passed⟩ := refuse_bind_eq_ok.mp passed
  rw [toVwapTradable] at passed
  split at passed
  case isTrue =>
    split at passed
    case isTrue =>
      cases passed
      rfl
    case isFalse => cases passed
  case isFalse => cases passed

/-! ## Prices -/

inductive Side
  | buy
  | sell
deriving DecidableEq

def priceTick : ℚ → Except EngineError ℚ := fun price =>
  match quantizeCents roundHalfEven price with
  | none => .error .invalidOperation
  | some rounded => .ok rounded

/-- A price on the tick, rounded against the taker. -/
def conservativeTick (price : ℚ) : Side → Except EngineError ℚ
  | .buy => priceTick (roundContext (⌈mul price 100⌉ / 100))
  | .sell => priceTick (roundContext (⌊mul price 100⌋ / 100))

/-- Whole cents of a price, cut off. -/
def toCents (price : ℚ) : ℤ :=
  (mul price 100).num.tdiv (mul price 100).den

/-- The cents of a price that is moved by a fraction towards the midpoint. A half tick is
rounded against the taker, and the price stays between the bid and the ask. -/
def fractionCents (bid ask : ℤ) (fraction : ℚ) : Side → ℤ
  | .buy => ask - max 0 (min (ask - ⌈(2 * ask + fraction * (bid + ask - 2 * ask)) / 2⌉) (ask - bid))
  | .sell => bid + max 0 (min (⌊(2 * bid + fraction * (bid + ask - 2 * bid)) / 2⌋ - bid) (ask - bid))

def fractionToMidpoint (bid ask : ℚ) (side : Side) (fraction : ℚ) : Except EngineError ℚ := do
  refuse (¬ (0 ≤ fraction ∧ fraction ≤ 1)) (.valueError "fraction_to_midpoint not in [0, 1]")
  refuse (toCents bid ≤ 0 ∨ toCents ask < toCents bid) (.valueError "invalid quote")
  priceTick (roundContext (fractionCents (toCents bid) (toCents ask) fraction side / 100))

end TreeOptions.Guards
