import Mathlib.Data.Finset.Insert
import TreeOptions.Guards.Quotes

/-!
# The fill engine

`execute` mints a fill or raises. It reads what earlier calls have left (the executed
orders, the orders bound to their ids, what was filled of each, and what was taken from
each bar) at its start, checks the call against it (`mint`), and writes all of it at its
end (`commit`), once the fill has passed the checks of its own schema.

So a call that raises has written nothing (`outcome_eq`), and what a fill can be is
said by one lemma (`sound_of_mint`): its order is the one bound to the id, its quantity is at
most what remains of the order, and at most what remains of the bar it was filled from.

The calendar and the fee model are whatever the caller passes. A state is read through
functions; a key that is missing from a dictionary reads as zero.
-/

set_option autoImplicit false

namespace TreeOptions.Guards

open Checked Decimal

/-! ## Orders, contracts and fills -/

inductive Intent
  | openLong
  | closeLong
  | sellToOpen
deriving DecidableEq

inductive OrderType
  | market
  | limit
deriving DecidableEq

structure Order where
  orderId : String
  contractId : String
  side : Side
  intent : Intent
  quantity : ℤ
  orderType : OrderType
  limitPrice : Option ℚ
  budgetNotional : Option ℚ
  decisionAt : ℤ
  decisionSession : ℤ
  quantity_pos : 1 ≤ quantity
  permitted : (side = .buy ∧ intent = .openLong) ∨ (side = .sell ∧ intent = .closeLong)
  limitPriced : orderType = .limit ↔ limitPrice.isSome

def Order.terms (order : Order) :=
  ((order.orderId, order.contractId, order.side), (order.intent, order.quantity, order.orderType),
    (order.limitPrice, order.budgetNotional), order.decisionAt, order.decisionSession)

theorem Order.terms_injective : Function.Injective Order.terms := by
  rintro ⟨⟩ ⟨⟩ same
  cases same
  rfl

instance : DecidableEq Order := fun first second =>
  decidable_of_iff (first.terms = second.terms) Order.terms_injective.eq_iff

/-- What the engine reads of an option contract. -/
structure OptionContract where
  contractId : String
  expiration : ℤ
  multiplier : ℤ
  listingStart : ℤ
  listingEnd : ℤ
  sharesPerContract : ℚ
  standardContractFlag : Bool
  multiplier_pos : 1 ≤ multiplier
  shares_pos : 0 < sharesPerContract
  listed : listingStart ≤ listingEnd
  expires : listingStart ≤ expiration
  standard : standardContractFlag = true → sharesPerContract = 100 ∧ multiplier = 100

def OptionContract.ExistsOn (contract : OptionContract) (session : ℤ) : Prop :=
  contract.listingStart ≤ session ∧ session ≤ contract.listingEnd

instance (contract : OptionContract) (session : ℤ) : Decidable (contract.ExistsOn session) :=
  inferInstanceAs (Decidable (contract.listingStart ≤ session ∧ session ≤ contract.listingEnd))

/-- A price is positive, of whole cents, and has at most ten digits before the point. -/
def IsPrice (price : ℚ) : Prop :=
  0 < price ∧ price ∈ cents ∧ price < 10 ^ 10

instance (price : ℚ) : Decidable (IsPrice price) :=
  inferInstanceAs (Decidable (0 < price ∧ price ∈ cents ∧ price < 10 ^ 10))

/-- Fees are not negative, of whole cents, and have at most 16 digits before the point. -/
def IsFee (fees : ℚ) : Prop :=
  0 ≤ fees ∧ fees ∈ cents ∧ fees < 10 ^ 16

instance (fees : ℚ) : Decidable (IsFee fees) :=
  inferInstanceAs (Decidable (0 ≤ fees ∧ fees ∈ cents ∧ fees < 10 ^ 16))

/-- A minted execution. -/
structure Fill where
  fillId : String
  orderId : String
  contractId : String
  side : Side
  quantity : ℤ
  price : ℚ
  multiplier : ℤ
  deliverableSharesPerContract : ℚ
  fees : ℚ
  executionAt : ℤ
  executionSession : ℤ
  fractionToMidpoint : ℚ
  quantity_pos : 1 ≤ quantity
  isPrice : IsPrice price
  multiplier_pos : 1 ≤ multiplier
  shares_pos : 0 < deliverableSharesPerContract
  isFee : IsFee fees
  fraction : 0 ≤ fractionToMidpoint ∧ fractionToMidpoint ≤ 1

/-! ## The engine -/

/-- The calendar as the engine uses it. A date that is no session raises. -/
structure SessionCalendar where
  isSession : ℤ → Bool
  ordinal : ℤ → Except EngineError ℤ
  sessionClose : ℤ → Except EngineError ℤ
  containsInstant : ℤ → ℤ → Except EngineError Bool

/-- The fees of one filled order. -/
abbrev FeeModel :=
  ℤ → Except EngineError ℚ

/-- A scenario that makes an execution worse. -/
structure ExecutionStress where
  slippageTicksBuy : ℕ
  slippageTicksSell : ℕ
  extraFeePerContract : ℚ
  latencySeconds : ℕ
  fee_nonneg : 0 ≤ extraFeePerContract

/-- How an engine was built. -/
structure FillEngine where
  calendar : SessionCalendar
  feeModel : FeeModel
  maxQuoteAgeSeconds : ℤ
  rejectLockedQuotes : Bool
  fillSizeFraction : ℚ
  decisionCloses : Option (ℤ → Option ℤ)
  fraction_pos : 0 < fillSizeFraction
  fraction_le : fillSizeFraction ≤ 1

/-- What the calls of an engine leave. -/
structure EngineState where
  fillSeq : ℕ
  executedOrders : Finset String
  orders : String → Option Order
  filledQty : String → ℤ
  vwapConsumed : String × ℤ → ℤ

def EngineState.initial : EngineState where
  fillSeq := 0
  executedOrders := ∅
  orders := fun _ => none
  filledQty := fun _ => 0
  vwapConsumed := fun _ => 0

/-- The arguments of one call. -/
structure Call where
  order : Order
  quotes : List Quote
  contract : OptionContract
  executionSession : ℤ
  executionAt : ℤ
  fractionToMidpoint : ℚ
  stress : ExecutionStress
  partialSequence : Bool

def reject {Value : Type} (code : Rejection) : Except EngineError Value :=
  .error (.rejection code)

def orRaise {Value : Type} (error : EngineError) : Option Value → Except EngineError Value
  | none => .error error
  | some value => .ok value

/-- The instant of a call, shifted by its latency. -/
def Call.effectiveAt (call : Call) : Except EngineError ℤ :=
  orRaise .overflow (shiftInstant call.executionAt call.stress.latencySeconds)

/-! ## The checks -/

/-- The order against what its id has done so far. -/
def checkBinding (state : EngineState) (call : Call) : Except EngineError Unit := do
  refuse (call.order.orderId ∈ state.executedOrders ∧ call.partialSequence = false)
    (.rejection (.duplicateOrderExecution call.order.orderId))
  refuse ((state.orders call.order.orderId).any fun bound => bound ≠ call.order)
    (.rejection (.orderRebound call.order.orderId))
  refuse (call.partialSequence = true ∧
      call.order.quantity ≤ state.filledQty call.order.orderId)
    (.rejection (.partialExceedsOrder call.order.orderId (state.filledQty call.order.orderId)
      call.order.quantity))

/-- The contract exists, is named by everyone and was known when the order was decided. -/
def checkContract (engine : FillEngine) (call : Call) : Except EngineError Unit := do
  refuse (engine.calendar.isSession call.executionSession = false)
    (.rejection (.sessionNotInCalendar call.executionSession))
  refuse (call.contract.contractId ≠ call.order.contractId ∨
      ∃ quote ∈ call.quotes, quote.contractId ≠ call.order.contractId)
    (.rejection (.contractMismatch call.order.contractId call.contract.contractId
      (call.quotes.map Quote.contractId)))
  refuse (¬ call.contract.ExistsOn call.executionSession)
    (.rejection (.contractNotListed call.contract.contractId call.executionSession))
  refuse (call.contract.expiration < call.executionSession)
    (.rejection (.contractExpired call.contract.contractId call.executionSession))
  refuse (¬ call.contract.ExistsOn call.order.decisionSession)
    (.rejection (.contractUnknownAtDecision call.contract.contractId call.order.decisionSession))

/-- The close an order has to be decided at: the verified one where there is a map of them,
else that of the calendar. -/
def decisionClose (engine : FillEngine) (session : ℤ) : Except EngineError ℤ :=
  match engine.decisionCloses with
  | some closes => orRaise (.rejection (.decisionCloseNotMapped session)) (closes session)
  | none => engine.calendar.sessionClose session

/-- The execution comes strictly after the decision, within its session. Returns the ordinal
of the session. -/
def checkInstants (engine : FillEngine) (call : Call) (effectiveAt : ℤ) :
    Except EngineError ℤ := do
  let close ← decisionClose engine call.order.decisionSession
  refuse (call.order.decisionAt ≠ close)
    (.rejection (.decisionInstantNotClose call.order.decisionAt close))
  let execOrdinal ← engine.calendar.ordinal call.executionSession
  let decisionOrdinal ← engine.calendar.ordinal call.order.decisionSession
  refuse (¬ (call.order.decisionAt < effectiveAt ∧ decisionOrdinal < execOrdinal))
    (.rejection (.sameSessionExecution effectiveAt call.executionSession))
  let inside ← engine.calendar.containsInstant call.executionSession effectiveAt
  refuse (inside = false)
    (.rejection (.executionInstantMismatch effectiveAt call.executionSession))
  return execOrdinal

/-- A quote that was graded. -/
inductive Tradable
  | twoSided (quote : TradableQuote)
  | vwap (quote : VwapTradableQuote)

/-- A bar is stamped with the close of its session, the one before the execution. -/
def gradeVwap (engine : FillEngine) (execOrdinal effectiveAt : ℤ) (event : VwapQuoteEvent) :
    Except EngineError Tradable := do
  let tradable ← asTradableVwap event effectiveAt
  refuse (engine.calendar.isSession tradable.quote.session = false)
    (.rejection (.barSessionNotInCalendar tradable.quote.session))
  let close ← engine.calendar.sessionClose tradable.quote.session
  refuse (close ≠ tradable.quote.exchangeTimestamp)
    (.rejection (.barSessionStampMismatch tradable.quote.session))
  let barOrdinal ← engine.calendar.ordinal tradable.quote.session
  refuse (execOrdinal - barOrdinal ≠ 1) (.rejection (.barNotMostRecent tradable.quote.session))
  return .vwap tradable

def grade (engine : FillEngine) (execOrdinal effectiveAt : ℤ) :
    Quote → Except EngineError Tradable
  | .twoSided event =>
    Tradable.twoSided <$>
      asTradable event effectiveAt engine.maxQuoteAgeSeconds engine.rejectLockedQuotes
  | .vwap event => gradeVwap engine execOrdinal effectiveAt event

def allowedFractions : List ℚ :=
  [0, 1 / 4, 1 / 2, 3 / 4, 1]

def checkTerms (call : Call) : Except EngineError Unit := do
  refuse (call.contract.standardContractFlag = false)
    (.rejection (.nonstandardDeliverable call.contract.contractId))
  refuse (call.fractionToMidpoint ∉ allowedFractions)
    (.rejection (.invalidFractionToMidpoint call.fractionToMidpoint))

/-! ## Price, quantity and fees -/

/-- Slippage in dollars. -/
def slippage (ticks : ℕ) : ℚ :=
  roundContext (ticks / 100)

/-- A price made worse by the slippage of its side. -/
def stressed (stress : ExecutionStress) (price : ℚ) : Side → ℚ
  | .buy => add price (slippage stress.slippageTicksBuy)
  | .sell => sub price (slippage stress.slippageTicksSell)

/-- A stressed price that is still positive. -/
def stressedPrice (stress : ExecutionStress) (side : Side) (price : ℚ) : Except EngineError ℚ := do
  refuse (¬ 0 < stressed stress price side)
    (.rejection (.priceOutsideBounds (stressed stress price side)))
  return stressed stress price side

def fillPrice (call : Call) : Tradable → Except EngineError ℚ
  | .vwap quote => do
      refuse (call.fractionToMidpoint ≠ 0)
        (.rejection (.invalidFractionToMidpoint call.fractionToMidpoint))
      let benchmark ← conservativeTick quote.quote.vwap call.order.side
      stressedPrice call.stress call.order.side benchmark
  | .twoSided quote => do
      let moved ← fractionToMidpoint quote.quote.bid quote.quote.ask call.order.side
        call.fractionToMidpoint
      let price ← stressedPrice call.stress call.order.side moved
      refuse (call.order.side = .buy ∧
          add (add quote.quote.ask (slippage call.stress.slippageTicksBuy)) (1 / 100) < price)
        (.rejection (.priceOutsideBounds price))
      return price

def checkLimit (order : Order) (price : ℚ) : Except EngineError Unit :=
  match order.limitPrice with
  | none => return ⟨⟩
  | some limit => do
      refuse (order.orderType = .limit ∧ order.side = .buy ∧ limit < price)
        (.rejection (.unmarketableLimit limit price))
      refuse (order.orderType = .limit ∧ order.side = .sell ∧ price < limit)
        (.rejection (.unmarketableLimit limit price))

/-- The size a quote shows to a side. -/
def displayed (side : Side) : Tradable → ℕ
  | .twoSided quote =>
    match side with
    | .buy => quote.quote.askSize
    | .sell => quote.quote.bidSize
  | .vwap quote => quote.quote.volume

def participation (engine : FillEngine) (size : ℕ) : ℤ :=
  ⌊mul engine.fillSizeFraction size⌋

/-- The bar a participation is counted against. -/
def participationKey (event : VwapQuoteEvent) : String × ℤ :=
  (event.contractId, event.session)

/-- What may be filled from a quote, less what was taken from the same bar before. -/
def capacity (engine : FillEngine) (state : EngineState) (side : Side) (tradable : Tradable) : ℤ :=
  match tradable with
  | .twoSided _ => participation engine (displayed side tradable)
  | .vwap quote =>
    participation engine (displayed side tradable) -
      state.vwapConsumed (participationKey quote.quote)

def fillQuantity (engine : FillEngine) (state : EngineState) (order : Order)
    (tradable : Tradable) : Except EngineError ℤ := do
  refuse (min (order.quantity - state.filledQty order.orderId)
      (capacity engine state order.side tradable) < 1)
    (.rejection (.noLiquidity (capacity engine state order.side tradable)
      (displayed order.side tradable)))
  return min (order.quantity - state.filledQty order.orderId)
    (capacity engine state order.side tradable)

/-- The fees of the model, with a surcharge for each contract. -/
def stressedFees (base : FeeModel) (extra : ℚ) : FeeModel := fun quantity => do
  let fees ← base quantity
  priceTick (add fees (mul extra quantity))

def orderFees (engine : FillEngine) (stress : ExecutionStress) : FeeModel :=
  if 0 < stress.extraFeePerContract then
    stressedFees engine.feeModel stress.extraFeePerContract
  else engine.feeModel

/-! ## Minting -/

def fillId (orderId : String) (number : ℕ) : String :=
  orderId ++ "-F" ++ toString number

/-- The schema of a fill; the error names the first field that fails. -/
def toFill (state : EngineState) (call : Call) (effectiveAt quantity : ℤ) (price fees : ℚ) :
    Except EngineError Fill :=
  if quantity_pos : 1 ≤ quantity then
    if isPrice : IsPrice price then
      if isFee : IsFee fees then
        if fraction : 0 ≤ call.fractionToMidpoint ∧ call.fractionToMidpoint ≤ 1 then
          .ok {
            fillId := fillId call.order.orderId (state.fillSeq + 1)
            orderId := call.order.orderId
            contractId := call.order.contractId
            side := call.order.side
            quantity := quantity
            price := price
            multiplier := call.contract.multiplier
            deliverableSharesPerContract := call.contract.sharesPerContract
            fees := fees
            executionAt := effectiveAt
            executionSession := call.executionSession
            fractionToMidpoint := call.fractionToMidpoint
            quantity_pos := quantity_pos
            isPrice := isPrice
            multiplier_pos := call.contract.multiplier_pos
            shares_pos := call.contract.shares_pos
            isFee := isFee
            fraction := fraction }
        else .error (.validation "fraction_to_midpoint")
      else .error (.validation "fees")
    else .error (.validation "price")
  else .error (.validation "quantity")

/-- A fill and the quote it was filled from. -/
structure Minted where
  fill : Fill
  tradable : Tradable

/-- Everything a call checks and computes. It reads the state and writes nothing. -/
def mint (engine : FillEngine) (state : EngineState) (call : Call) :
    Except EngineError Minted := do
  let effectiveAt ← call.effectiveAt
  checkBinding state call
  checkContract engine call
  let execOrdinal ← checkInstants engine call effectiveAt
  let selected ← selectQuote call.quotes effectiveAt
  let tradable ← grade engine execOrdinal effectiveAt selected
  checkTerms call
  let price ← fillPrice call tradable
  checkLimit call.order price
  let quantity ← fillQuantity engine state call.order tradable
  let fees ← orderFees engine call.stress quantity
  let tick ← priceTick price
  let fill ← toFill state call effectiveAt quantity tick fees
  return ⟨fill, tradable⟩

/-- The part of the state that counts what was taken from bars. -/
def consume (quantity : ℤ) : Tradable → EngineState → EngineState
  | .twoSided _, state => state
  | .vwap quote, state =>
    { state with
      vwapConsumed := Function.update state.vwapConsumed (participationKey quote.quote)
        (state.vwapConsumed (participationKey quote.quote) + quantity) }

def write (call : Call) (before : EngineState) (minted : Minted) :
    ExceptT EngineError (StateM EngineState) Fill := do
  modify fun state => { state with fillSeq := state.fillSeq + 1 }
  modify fun state =>
    { state with executedOrders := insert call.order.orderId state.executedOrders }
  modify fun state =>
    { state with orders := Function.update state.orders call.order.orderId (some call.order) }
  modify fun state =>
    { state with
      filledQty := Function.update state.filledQty call.order.orderId
        (before.filledQty call.order.orderId + minted.fill.quantity) }
  modify (consume minted.fill.quantity minted.tradable)
  return minted.fill

def execute (engine : FillEngine) (call : Call) :
    ExceptT EngineError (StateM EngineState) Fill := do
  let before ← get
  let minted ← ExceptT.mk (pure (mint engine before call))
  write call before minted

/-- The result of a call and the state after it. -/
def outcome (engine : FillEngine) (state : EngineState) (call : Call) :
    Except EngineError Fill × EngineState :=
  (execute engine call).run state

/-- The state a fill leaves. -/
def commit (state : EngineState) (call : Call) (minted : Minted) : EngineState :=
  consume minted.fill.quantity minted.tradable
    { fillSeq := state.fillSeq + 1
      executedOrders := insert call.order.orderId state.executedOrders
      orders := Function.update state.orders call.order.orderId (some call.order)
      filledQty := Function.update state.filledQty call.order.orderId
        (state.filledQty call.order.orderId + minted.fill.quantity)
      vwapConsumed := state.vwapConsumed }

/-- A write goes on from the state it leaves. -/
theorem run_modify_bind (change : EngineState → EngineState)
    (next : PUnit → ExceptT EngineError (StateM EngineState) Fill) (state : EngineState) :
    (modify change >>= next).run state = (next ⟨⟩).run (change state) :=
  rfl

theorem run_write (state : EngineState) (call : Call) (minted : Minted) :
    (write call state minted).run state = (.ok minted.fill, commit state call minted) := by
  unfold write
  rw [run_modify_bind, run_modify_bind, run_modify_bind, run_modify_bind, run_modify_bind]
  rfl

theorem run_result_bind (result : Except EngineError Minted)
    (next : Minted → ExceptT EngineError (StateM EngineState) Fill) (state : EngineState) :
    (ExceptT.mk (pure result) >>= next).run state =
      match result with
      | .error error => (.error error, state)
      | .ok minted => (next minted).run state := by
  cases result with
  | error error => rfl
  | ok minted => rfl

theorem run_get_bind (next : EngineState → ExceptT EngineError (StateM EngineState) Fill)
    (state : EngineState) : (get >>= next).run state = (next state).run state :=
  rfl

/-- **A call either raises and leaves the state, or mints and commits.** -/
theorem outcome_eq (engine : FillEngine) (state : EngineState) (call : Call) :
    outcome engine state call =
      match mint engine state call with
      | .error error => (.error error, state)
      | .ok minted => (.ok minted.fill, commit state call minted) := by
  rw [outcome, execute, run_get_bind, run_result_bind]
  cases mint engine state call with
  | error error => rfl
  | ok minted => exact run_write state call minted

/-! ## What a fill can be -/

/-- The bar that was graded, if it was one. -/
def Tradable.bar : Tradable → Option VwapQuoteEvent
  | .twoSided _ => none
  | .vwap quote => some quote.quote

def Call.selectedBar (call : Call) : Option VwapQuoteEvent :=
  match call.effectiveAt >>= selectQuote call.quotes with
  | .ok (.vwap event) => some event
  | _ => none

structure Sound (engine : FillEngine) (state : EngineState) (call : Call) (minted : Minted) :
    Prop where
  bound : ∀ order, state.orders call.order.orderId = some order → order = call.order
  orderId : minted.fill.orderId = call.order.orderId
  fillId : minted.fill.fillId = fillId call.order.orderId (state.fillSeq + 1)
  remaining : minted.fill.quantity ≤ call.order.quantity - state.filledQty call.order.orderId
  bar : minted.tradable.bar = call.selectedBar
  participates : ∀ event, minted.tradable.bar = some event →
    minted.fill.quantity ≤
      participation engine event.volume - state.vwapConsumed (participationKey event)

variable {engine : FillEngine} {state : EngineState} {call : Call}

theorem orRaise_eq_ok {Value : Type} {error : EngineError} {result : Option Value}
    {value : Value} : orRaise error result = .ok value ↔ result = some value := by
  cases result <;> simp [orRaise]

theorem bound_of_checkBinding {done : Unit} (passed : checkBinding state call = .ok done)
    (order : Order) (isBound : state.orders call.order.orderId = some order) :
    order = call.order := by
  obtain ⟨-, passed⟩ := refuse_bind_eq_ok.mp passed
  obtain ⟨same, -⟩ := refuse_bind_eq_ok.mp passed
  simpa [isBound] using same

theorem bar_of_grade {execOrdinal effectiveAt : ℤ} {selected : Quote} {tradable : Tradable}
    (graded : grade engine execOrdinal effectiveAt selected = .ok tradable) :
    tradable.bar = match selected with
      | .twoSided _ => none
      | .vwap event => some event := by
  cases selected with
  | twoSided event =>
    obtain ⟨quote, -, rfl⟩ := map_eq_ok.mp graded
    rfl
  | vwap event =>
    obtain ⟨quote, passed, rest⟩ := bind_eq_ok.mp graded
    obtain ⟨-, rest⟩ := refuse_bind_eq_ok.mp rest
    obtain ⟨close, -, rest⟩ := bind_eq_ok.mp rest
    obtain ⟨-, rest⟩ := refuse_bind_eq_ok.mp rest
    obtain ⟨barOrdinal, -, rest⟩ := bind_eq_ok.mp rest
    obtain ⟨-, rest⟩ := refuse_bind_eq_ok.mp rest
    cases rest
    exact congrArg some (asTradableVwap_quote passed)

theorem fillQuantity_eq_ok {order : Order} {tradable : Tradable} {quantity : ℤ}
    (sized : fillQuantity engine state order tradable = .ok quantity) :
    quantity = min (order.quantity - state.filledQty order.orderId)
      (capacity engine state order.side tradable) := by
  obtain ⟨-, rest⟩ := refuse_bind_eq_ok.mp sized
  cases rest
  rfl

theorem toFill_eq_ok {effectiveAt quantity : ℤ} {price fees : ℚ} {fill : Fill}
    (valid : toFill state call effectiveAt quantity price fees = .ok fill) :
    (fill.orderId = call.order.orderId ∧ fill.fillId = fillId call.order.orderId (state.fillSeq + 1) ∧
        fill.contractId = call.order.contractId ∧ fill.side = call.order.side) ∧
      fill.executionAt = effectiveAt ∧ fill.quantity = quantity ∧ fill.price = price ∧
        fill.fees = fees := by
  revert valid
  fun_cases toFill state call effectiveAt quantity price fees with
  | case1 =>
    rintro ⟨⟩
    exact ⟨⟨rfl, rfl, rfl, rfl⟩, rfl, rfl, rfl, rfl⟩
  | _ => nofun

/-- What a minted execution went through. -/
theorem mint_eq_ok {minted : Minted} (checked : mint engine state call = .ok minted) :
    ∃ effectiveAt execOrdinal selected price,
      (call.effectiveAt = .ok effectiveAt ∧ checkBinding state call = .ok () ∧
        checkContract engine call = .ok () ∧
          checkInstants engine call effectiveAt = .ok execOrdinal) ∧
      (selectQuote call.quotes effectiveAt = .ok selected ∧
        grade engine execOrdinal effectiveAt selected = .ok minted.tradable ∧
          fillPrice call minted.tradable = .ok price) ∧
      fillQuantity engine state call.order minted.tradable = .ok minted.fill.quantity ∧
        orderFees engine call.stress minted.fill.quantity = .ok minted.fill.fees ∧
          priceTick price = .ok minted.fill.price ∧
            toFill state call effectiveAt minted.fill.quantity minted.fill.price minted.fill.fees =
              .ok minted.fill := by
  obtain ⟨effectiveAt, shifted, rest⟩ := bind_eq_ok.mp checked
  simp only [bind_eq_ok] at rest
  obtain ⟨_, binding, _, contract, execOrdinal, instants, selected, isSelected, tradable, graded, _,
    -, price, priced, _, -, quantity, sized, fees, charged, tick, ticked, fill, valid, rest⟩ := rest
  cases rest
  obtain ⟨-, -, rfl, rfl, rfl⟩ := toFill_eq_ok valid
  exact ⟨effectiveAt, execOrdinal, selected, price, ⟨shifted, binding, contract, instants⟩,
    ⟨isSelected, graded, priced⟩, sized, charged, ticked, valid⟩

/-- **A minted fill is sound.** -/
theorem sound_of_mint {minted : Minted} (checked : mint engine state call = .ok minted) :
    Sound engine state call minted := by
  obtain ⟨effectiveAt, execOrdinal, selected, price, ⟨shifted, binding, -⟩, ⟨isSelected, graded, -⟩,
    sized, -, -, valid⟩ := mint_eq_ok checked
  obtain ⟨⟨orderId, fillId, -⟩, -⟩ := toFill_eq_ok valid
  have size := fillQuantity_eq_ok sized
  have selection : call.selectedBar = minted.tradable.bar := by
    rw [bar_of_grade graded, Call.selectedBar,
      bind_eq_ok.mpr ⟨effectiveAt, shifted, isSelected⟩]
    cases selected <;> rfl
  refine ⟨bound_of_checkBinding binding, orderId, fillId, ?_, selection.symm, ?_⟩
  · rw [size]
    exact min_le_left _ _
  · intro event isBar
    rw [size]
    refine (min_le_right _ _).trans (le_of_eq ?_)
    cases isTradable : minted.tradable with
    | twoSided quote =>
      rw [isTradable] at isBar
      cases isBar
    | vwap quote =>
      rw [isTradable] at isBar
      cases isBar
      rfl

end TreeOptions.Guards
