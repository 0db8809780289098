import TreeOptions.Trex.Plan

/-!
# The desk engine

`decideStructure` maps a structure, its book, a snapshot of the market and the clock to
one action. `step` first drains the fills of the working order into the book and decides
on the drained book. What the source keeps in a process-wide configuration and in the
session calendar is an argument here, and an instant is its date and its time of day.

Where the source raises, the result is an error: no session before an expiry, an
operation on decimals without a result, and a credit kind without a width.
-/

set_option autoImplicit false

namespace TreeOptions.Trex

open Decimal

inductive EngineError where
  | noSession (firstExpiry : ℤ)
  | invalidOperation
  | widthMissing

/-- The result of a decimal operation, which raises where there is none. -/
def orRaise {α : Type} : Option α → Except EngineError α
  | some value => .ok value
  | none => .error .invalidOperation

/-- Whole cents, ties away from zero. -/
def cents (value : ℚ) : Except EngineError ℚ :=
  orRaise (quantizeCents roundHalfUp value)

/-! ## The book -/

inductive Status where
  | planned
  | enterWorking
  | opened
  | exitWorking
  | closed
  deriving DecidableEq

def entryLane : List Status :=
  [.planned, .enterWorking]

/-- The entry or the exit side of a book: its order, what was filled and at which
average, the checkpoint of the order and what is still without a price. -/
structure Lane where
  order : Option String := none
  fill : Option ℚ := none
  filledQty : ℤ := 0
  cycles : ℤ := 0
  orderSeen : ℤ := 0
  orderNotional : Option ℚ := none
  unpricedQty : ℤ := 0
  orderUnpriced : ℤ := 0

structure StructureState where
  status : Status := .planned
  entry : Lane := {}
  exit : Lane := {}
  exitReason : Option String := none
  stopTicks : ℤ := 0

namespace StructureState

variable (st : StructureState)

def filledQty : ℤ :=
  st.entry.filledQty

def exitFilledQty : ℤ :=
  st.exit.filledQty

/-- Packages still held. -/
def openQty : ℤ :=
  st.filledQty - st.exitFilledQty

end StructureState

/-! ## The market -/

/-- The quote of a package, in debit orientation. -/
structure ComboQuote where
  bid : ℚ
  ask : ℚ

def ComboQuote.mid (quote : ComboQuote) : Except EngineError ℚ := do
  let half ← orRaise (div? (add quote.bid quote.ask) 2)
  cents half

/-- The price of a ladder: the mid, and another price once the ladder is through with it. -/
def ComboQuote.ladder (quote : ComboQuote) (through : Bool) (other : ℚ) : Except EngineError ℚ :=
  if through then .ok other else quote.mid

structure DividendCalendar where
  exDate : ℤ
  prevSession : ℤ
  amount : Number

/-- One poll of the market. The mid of a short call is found under the structure, the
strike and the expiry. -/
structure Snapshot where
  date : ℤ
  time : ℤ
  spots : String → Option Number
  quotes : String → Option ComboQuote
  dividends : String → Option DividendCalendar
  shortCallMids : String → ℚ → ℤ → Option Number

structure EntryWindow where
  start : ℤ
  stop : ℤ
  ordered : start < stop

def EntryWindow.before (window : EntryWindow) (time : ℤ) : Bool :=
  time < window.start

def EntryWindow.after (window : EntryWindow) (time : ℤ) : Bool :=
  window.stop < time

/-- A time of day, in microseconds. -/
def timeOfDay (hour minute : ℤ) : ℤ :=
  (hour * 60 + minute) * 60 * 10 ^ 6

structure EngineConfig where
  entryWindow : EntryWindow
  entryMaxCycles : ℤ := 4
  exitMaxMidCycles : ℤ := 3
  timeStopTime : ℤ := timeOfDay 9 45
  exitForceTime : ℤ := timeOfDay 15 45

/-! ## Actions -/

inductive ExitReason where
  | touch
  | takeProfit
  | timeStop
  | expirySafety
  | flatten
  | assignmentRisk
  | breach
  | stopLoss

namespace ExitReason

def value : ExitReason → String
  | touch => "touch"
  | takeProfit => "take_profit"
  | timeStop => "time_stop"
  | expirySafety => "expiry_safety"
  | flatten => "flatten"
  | assignmentRisk => "assignment_risk"
  | breach => "breach"
  | stopLoss => "stop_loss"

def ofValue (text : String) : Option ExitReason :=
  [touch, takeProfit, timeStop, expirySafety, flatten, assignmentRisk, breach, stopLoss].find?
    fun reason => reason.value = text

end ExitReason

inductive DeskAction where
  | noAction (reason : String)
  | entryOrder (side : Action) (qty : ℤ) (limit : ℚ)
  | abortEntry (reason : String)
  | closeOrder (reason : ExitReason) (side : Action) (qty : ℤ) (limit : Option ℚ)

structure StructureDecision where
  action : DeskAction
  stopTicks : ℤ

inductive Role where
  | entry
  | exit
  deriving DecidableEq

/-- The broker's report on the working order: its fills so far and their average. -/
structure WorkingOrder where
  role : Role
  filled : ℤ
  avgFillPrice : Number
  orderId : String

def staleDeal : String :=
  "stale_deal"

def staleDealMove : ℚ :=
  1 / 4

def creditTakeProfitDefault : ℚ :=
  1 / 2

/-- The smallest orderable price. -/
def tick : ℚ :=
  1 / 100

/-! ## Entry -/

/-- The last session before an expiry, of sessions in ascending order. -/
def lastHoldSession (sessions : List ℤ) (firstExpiry : ℤ) : Except EngineError ℤ :=
  match (sessions.takeWhile fun session => session < firstExpiry).getLast? with
  | some session => .ok session
  | none => .error (.noSession firstExpiry)

variable (cfg : EngineConfig) (sessions : List ℤ) (spec : StructureFields)
  (st : StructureState) (snap : Snapshot)

/-- The mid moved too far from the mid the deal was priced at. -/
def isStale (quote : ComboQuote) : Except EngineError Bool :=
  match spec.refMid with
  | none => .ok false
  | some refMid => do
      let mid ← quote.mid
      return decide (mul staleDealMove refMid < |sub mid refMid|)

/-- Receive at least the floor, pay at most the cap. -/
def entryLimit (quote : ComboQuote) : Except EngineError ℚ :=
  let escalated : Bool := cfg.entryMaxCycles ≤ st.entry.cycles
  if spec.isCredit then do
    let price ← quote.ladder escalated quote.bid
    orRaise (quantizeCents Int.ceil (max price spec.limit))
  else do
    let price ← quote.ladder escalated quote.ask
    orRaise (quantizeCents Int.floor (min price spec.limit))

def quotedEntry (remaining : ℤ) (quote : ComboQuote) : Except EngineError DeskAction := do
  let stale ← isStale spec quote
  if stale then .ok (.abortEntry staleDeal)
  else do
    let limit ← entryLimit cfg spec st quote
    return if limit ≤ 0 then .noAction "no positive price"
      else .entryOrder spec.openSide remaining limit

/-- The entry on its date, given the last session any leg may be held. -/
def entryOnDate (last : ℤ) : Except EngineError DeskAction :=
  if last ≤ snap.date then .ok (.abortEntry "inside expiry safety")
  else if cfg.entryWindow.after snap.time then .ok (.abortEntry "entry window closed")
  else if cfg.entryWindow.before snap.time then .ok (.noAction "before entry window")
  else if spec.quantity - st.filledQty ≤ 0 then .ok (.noAction "entry filled")
  else match snap.quotes spec.id with
    | none => .ok (.noAction "no quote")
    | some quote => quotedEntry cfg spec st (spec.quantity - st.filledQty) quote

def deskEntry : Except EngineError DeskAction :=
  if spec.entryDate < snap.date then .ok (.abortEntry "entry date passed")
  else if snap.date < spec.entryDate then .ok (.noAction "before entry date")
  else do
    let last ← lastHoldSession sessions spec.firstExpiry
    entryOnDate cfg spec st snap last

/-! ## Exit -/

/-- Spot at the strike or past it in the option's money direction. -/
def atOrBeyond (right : Right) (spot : Number) (strike : ℚ) : Except EngineError Bool :=
  match right with
  | .put => orRaise (spot.le? strike)
  | .call => orRaise (spot.ge? strike)

/-- Spot at or beyond the strike of a leg with an action. -/
def anyAtOrBeyond (action : Action) (spot : Number) : Except EngineError Bool :=
  (spec.legs.filter fun leg => leg.action = action).anyM fun leg =>
    atOrBeyond leg.right spot leg.strike

def touchHit (spot : Number) : Except EngineError Bool :=
  if spec.exits.touch ∧ ¬ spec.isCredit then anyAtOrBeyond spec .buy spot else .ok false

def breachHit (spot : Number) : Except EngineError Bool :=
  if spec.exits.breach ∧ spec.isCredit then anyAtOrBeyond spec .sell spot else .ok false

/-- A short call in the money that is worth less beyond it than the dividend. -/
def assignmentLeg (spot amount : ℚ) (leg : Leg) : Bool :=
  if leg.action = .sell ∧ leg.right = .call ∧ leg.strike < spot then
    match snap.shortCallMids spec.id leg.strike leg.expiry with
    | some (.finite mid) => mid < 0 ∨ sub mid (sub spot leg.strike) < amount
    | some (.infinity _) | some .nan | none => true
  else false

/-- Today is the last session before the ex-dividend date. -/
def exDividendEve (dividend : DividendCalendar) : Bool :=
  dividend.prevSession < dividend.exDate ∧ snap.date = dividend.prevSession ∧
    sessions.reverse.find? (fun session => session < dividend.exDate) = some dividend.prevSession

def assignmentExit : Bool :=
  match snap.dividends spec.underlying with
  | none => false
  | some dividend =>
    match dividend.amount, snap.spots spec.underlying with
    | .finite amount, some (.finite spot) =>
      0 < amount ∧ exDividendEve sessions snap dividend ∧ 0 < spot ∧
        spec.legs.any (assignmentLeg spec snap spot amount)
    | _, _ => false

/-- The persisted reason of a working exit, a time stop where it is not known. -/
def workingReason (stored : Option String) : ExitReason :=
  (stored.bind ExitReason.ofValue).getD .timeStop

/-- The take-profit rule: the plan's, or the default of a credit kind. -/
def takeProfitRule : Option (TakeProfitBasis × ℚ) :=
  match spec.exits.takeProfit with
  | some takeProfit => some (takeProfit.basis, takeProfit.value)
  | none => if spec.isCredit then some (.creditFrac, creditTakeProfitDefault) else none

/-- The average entry price, where every package is priced. -/
def pricedEntry : Option ℚ :=
  if st.entry.unpricedQty = 0 then st.entry.fill else none

def takeProfitHit (mid : ℚ) : Except EngineError Bool :=
  match takeProfitRule spec with
  | none => .ok false
  | some (.widthFrac, value) =>
    match spec.width with
    | none => .ok false
    | some width => do
        let threshold ← cents (mul value width)
        return decide (threshold ≤ mid)
  | some (.gainFrac, value) =>
    .ok ((pricedEntry st).any fun entry => mul entry (add 1 value) ≤ mid)
  | some (.creditFrac, value) =>
    .ok ((pricedEntry st).any fun entry => mid ≤ mul entry (sub 1 value))

/-- The condition of a stop-loss. -/
def stopHit (stop : StopLoss) (entry mid : ℚ) : Bool :=
  match stop.basis with
  | .debitFrac => mid ≤ mul entry (sub 1 stop.value)
  | .creditMult => mul entry stop.value ≤ mid

/-- The stop-loss confirmation count after this tick. -/
def stopTicksAfter (quote : Option ComboQuote) : Except EngineError ℤ :=
  match spec.exits.stopLoss, quote, pricedEntry st with
  | some stop, some quote, some entry => do
      let mid ← quote.mid
      return if stopHit stop entry mid then st.stopTicks + 1 else 0
  | _, _, _ => .ok st.stopTicks

/-- At mid, or at the far side where the close is marketable, one tick at least and
within the width of a credit kind. -/
def deskCloseLimit (force : Bool) (quote : ComboQuote) : Except EngineError ℚ :=
  let marketable : Bool := force ∨ cfg.exitMaxMidCycles ≤ st.exit.cycles
  if spec.closeSide = .sell then do
    let price ← quote.ladder marketable quote.bid
    let rounded ← cents price
    return max rounded tick
  else
    match spec.width with
    | none => .error .widthMissing
    | some width => do
        let price ← quote.ladder marketable quote.ask
        let rounded ← cents price
        return min (max rounded tick) width

def close (reason : ExitReason) (force : Bool) (ticks : ℤ) : Except EngineError StructureDecision :=
  match snap.quotes spec.id with
  | none => .ok ⟨.closeOrder reason spec.closeSide st.openQty none, ticks⟩
  | some quote => do
      let limit ← deskCloseLimit cfg spec st force quote
      return ⟨.closeOrder reason spec.closeSide st.openQty (some limit), ticks⟩

/-- The touch or breach that closes, if any. -/
def spotExit : Except EngineError (Option ExitReason) :=
  match snap.spots spec.underlying with
  | none => .ok none
  | some spot => do
      let touched ← touchHit spec spot
      if touched then return some .touch
      else do
        let breached ← breachHit spec spot
        return if breached then some .breach else none

/-- The take-profit on the mid of a quote. -/
def takeProfitExit : Except EngineError Bool :=
  match snap.quotes spec.id with
  | none => .ok false
  | some quote => do
      let mid ← quote.mid
      takeProfitHit spec st mid

/-- Stop-loss and time stop, given the confirmation count after this tick. -/
def tickExit (ticks : ℤ) : Except EngineError StructureDecision :=
  if spec.exits.stopLoss.isSome ∧ spec.exits.stopConfirmTicks ≤ ticks then
    close cfg spec st snap .stopLoss false ticks
  else if spec.exitDeadline < snap.date ∨
      snap.date = spec.exitDeadline ∧ cfg.timeStopTime ≤ snap.time then
    close cfg spec st snap .timeStop false ticks
  else .ok ⟨.noAction "hold", ticks⟩

/-- The exits of a position that the spot does not close. -/
def quoteExit (profit : Bool) : Except EngineError StructureDecision :=
  if profit then close cfg spec st snap .takeProfit false st.stopTicks
  else do
    let ticks ← stopTicksAfter spec st (snap.quotes spec.id)
    tickExit cfg spec st snap ticks

/-- The exits of an open position, given what the spot closes. -/
def openExit (spotReason : Option ExitReason) : Except EngineError StructureDecision :=
  match spotReason with
  | some reason => close cfg spec st snap reason false st.stopTicks
  | none =>
    if assignmentExit sessions spec snap then
      close cfg spec st snap .assignmentRisk true st.stopTicks
    else do
      let profit ← takeProfitExit spec st snap
      quoteExit cfg spec st snap profit

/-- The exits of what is held, given the last session any leg may be held. -/
def heldExit (last : ℤ) : Except EngineError StructureDecision :=
  if last ≤ snap.date then close cfg spec st snap .expirySafety true st.stopTicks
  else if st.status = .exitWorking then
    close cfg spec st snap (workingReason st.exitReason)
      (spec.exitDeadline ≤ snap.date ∧ cfg.exitForceTime ≤ snap.time) st.stopTicks
  else do
    let spotReason ← spotExit spec snap
    openExit cfg sessions spec st snap spotReason

def deskExit : Except EngineError StructureDecision :=
  if st.openQty ≤ 0 then .ok ⟨.noAction "flat", st.stopTicks⟩
  else do
    let last ← lastHoldSession sessions spec.firstExpiry
    heldExit cfg sessions spec st snap last

/-- One structure, one tick, one decision. -/
def decideStructure : Except EngineError StructureDecision :=
  if st.status = .closed then .ok ⟨.noAction "closed", st.stopTicks⟩
  else if st.status ∈ entryLane then do
    let action ← deskEntry cfg sessions spec st snap
    return ⟨action, st.stopTicks⟩
  else deskExit cfg sessions spec st snap

/-! ## Draining fills -/

/-- The checkpoint belongs to one order: a report for another starts a fresh one. -/
def Lane.adopt (lane : Lane) (orderId : String) : Lane :=
  if lane.order = some orderId then lane
  else
    { lane with order := some orderId, orderSeen := 0, orderNotional := none, orderUnpriced := 0 }

/-- The average of a side with the whole cumulative fill of its order put back in. -/
def Lane.blend (lane : Lane) (filled : ℤ) (cumulative : ℚ) : Except EngineError ℚ :=
  let priced := lane.filledQty - lane.unpricedQty
  let others := if lane.fill.isSome then priced - (lane.orderSeen - lane.orderUnpriced) else 0
  let othersNotional :=
    match lane.fill with
    | some fill => if others ≠ 0 then sub (mul fill priced) (lane.orderNotional.getD 0) else 0
    | none => 0
  orRaise (div? (add othersNotional cumulative) (others + filled))

/-- The quantity now, its price when the broker reports one. -/
def Lane.recordUnpriced (lane : Lane) (filled : ℤ) : Lane × ℤ :=
  let new := filled - lane.orderSeen
  if new = 0 then (lane, 0)
  else
    ({ lane with
        filledQty := lane.filledQty + new
        orderSeen := filled
        unpricedQty := lane.unpricedQty + new
        orderUnpriced := lane.orderUnpriced + new }, new)

/-- The quantity and the price of everything the order filled. -/
def Lane.recordPriced (lane : Lane) (filled : ℤ) (avg : ℚ) : Except EngineError (Lane × ℤ) :=
  if filled - lane.orderSeen = 0 ∧ lane.orderUnpriced = 0 ∧
      lane.orderNotional = some (mul avg filled) then
    .ok (lane, 0)
  else do
    let fill ← lane.blend filled (mul avg filled)
    return ({ lane with
      filledQty := lane.filledQty + (filled - lane.orderSeen)
      fill := some fill
      orderSeen := filled
      orderNotional := some (mul avg filled)
      unpricedQty := lane.unpricedQty - lane.orderUnpriced
      orderUnpriced := 0 }, filled - lane.orderSeen)

/-- Record the fills of a report beyond the checkpoint, priced or not. -/
def Lane.record (lane : Lane) (filled : ℤ) (avgFillPrice : Number) :
    Except EngineError (Lane × ℤ) :=
  match avgFillPrice with
  | .finite avg =>
    if 0 < filled ∧ 0 < avg then lane.recordPriced filled avg
    else .ok (lane.recordUnpriced filled)
  | .infinity _ | .nan => .ok (lane.recordUnpriced filled)

/-- A report of fewer fills than recorded is stale and records nothing. -/
def Lane.drain (lane : Lane) (order : WorkingOrder) : Except EngineError (Lane × ℤ) :=
  let lane := lane.adopt order.orderId
  if order.filled < lane.orderSeen then .ok (lane, 0)
  else lane.record order.filled order.avgFillPrice

/-- Merge the report on the working order into its side of the book. The number is that
of the packages newly recorded. -/
def drain (order : WorkingOrder) : Except EngineError (StructureState × ℤ) :=
  match order.role with
  | .entry => do
      let (lane, new) ← st.entry.drain order
      return ({ st with entry := lane }, new)
  | .exit => do
      let (lane, new) ← st.exit.drain order
      return ({ st with exit := lane }, new)

/-- The book after the fills of the working order, where there is one. -/
def drained (order : Option WorkingOrder) : Except EngineError StructureState :=
  match order with
  | none => .ok st
  | some order => Prod.fst <$> drain st order

/-- One desk tick: drain the working order, then decide. The book comes back drained. -/
def step (order : Option WorkingOrder) :
    Except EngineError (StructureState × StructureDecision) := do
  let book ← drained st order
  let decision ← decideStructure cfg sessions spec book snap
  return (book, decision)

end TreeOptions.Trex
