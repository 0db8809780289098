import TreeOptions.Options.Settlement

/-!
# The options backtest

Two arms share all machinery and differ in the holding rule. Each session closes what a ratio
action was announced for, elects what to exercise, sells what is due and buys what was ordered, then
settles what ends with the session, marks what is held by the file of the session before, and
orders what the close decides for the next session.

A rejected sale is tried again on the next session. A fill may be smaller than its order.

Beside what the code keeps, a state notes what the engine showed at each sale that was filled, the
elections that were settled, and the contracts that were open when a session began.
-/

set_option autoImplicit false

namespace TreeOptions.Options

open Backtest Checked Decimal Ledger

/-! ## Positions -/

structure OpenPosition where
  contractId : String
  underlyingId : String
  callPut : CallPut
  score : Number
  label : Option Number
  entryFillId : String
  entryPrice : ℚ
  entrySession : ℤ
  contractExpiration : ℤ
  strike : Option ℚ
  absDelta : Option ℚ
  dteAtEntry : Option ℤ
  decisionSession : ℤ

inductive ExitKind where
  | sell
  | earlyExercise
  | expiry
  | terminal

structure Exit where
  kind : ExitKind
  fillId : Option String
  price : ℚ
  session : ℤ

/-- One round trip, or a position that is still open. -/
structure PositionRow where
  position : OpenPosition
  exit : Option Exit
  premiumReturn : Option ℚ

def rowOf (position : OpenPosition) (exit : Option Exit) : PositionRow where
  position := position
  exit := exit
  premiumReturn := exit.bind fun exit =>
    if 0 < position.entryPrice then
      (div? exit.price position.entryPrice).map fun growth => sub growth 1
    else none

structure FillAudit where
  fillId : String
  decisionSession : ℤ
  decisionAt : ℤ
  quoteReceivedAt : ℤ
  executionAt : ℤ
  executionSession : ℤ
  quoteSession : Option ℤ
  quoteVolume : Option ℕ

structure OptionsCounters where
  entriesCancelled : ℕ
  entriesSkippedOpen : ℕ
  entryFillRejections : DefaultDict String 0
  exitFillRejections : DefaultDict String 0
  forceCloses : ℕ
  forceCloseRejections : DefaultDict String 0
  earlyExercises : ℕ
  expiries : ℕ
  terminals : ℕ
  exitRetries : ℕ
  markMisses : ℕ
  conservationChecks : ℕ

def OptionsCounters.empty : OptionsCounters :=
  ⟨0, 0, .empty, .empty, 0, .empty, 0, 0, 0, 0, 0, 0⟩

def bump (bucket : DefaultDict String 0) (code : String) : DefaultDict String 0 :=
  bucket.set code (bucket.get code + 1)

structure EntryFacts where
  strike : ℚ
  absDelta : ℚ
  dte : ℤ
  decisionSession : ℤ

/-! ## The state -/

/-- What a step found before it did something. -/
inductive Note where
  /-- A sale was filled by an engine from a quote. -/
  | sale (engine : Guards.FillEngine) (state : Guards.EngineState) (call : Guards.Call)
  /-- An election is settled. -/
  | election (elected held : ℕ)
  /-- A session begins with an open contract. -/
  | overnight (session expiration : ℤ)

structure OptionsState where
  engine : Guards.EngineState
  ledger : LedgerBook
  counters : OptionsCounters
  audit : CandidateAudit
  openPositions : List OpenPosition
  entryFacts : String → Option EntryFacts
  closedRows : List PositionRow
  fills : List Guards.Fill
  fillAudit : List FillAudit
  pendingEntries : ℤ → List Guards.Order
  pendingExits : ℤ → List Guards.Order
  orderSignals : String → Option OptionSignal
  contractUnderlying : String → Option String
  tradedNotional : ℚ
  labelHits : List Bool
  previousEquity : ℚ
  lastWindowInstant : Option ℤ
  notes : List Note

def OptionsState.start (initialCash : ℚ) : OptionsState where
  engine := .initial
  ledger := .new initialCash
  counters := .empty
  audit := .empty
  openPositions := []
  entryFacts := fun _ => none
  closedRows := []
  fills := []
  fillAudit := []
  pendingEntries := fun _ => []
  pendingExits := fun _ => []
  orderSignals := fun _ => none
  contractUnderlying := fun _ => none
  tradedNotional := 0
  labelHits := []
  previousEquity := (LedgerBook.new initialCash).initialCash
  lastWindowInstant := none
  notes := []

namespace OptionsState

variable (state : OptionsState)

def isOpen (contractId : String) : Bool :=
  state.openPositions.any fun position => position.contractId = contractId

def position? (contractId : String) : Option OpenPosition :=
  state.openPositions.find? fun position => position.contractId = contractId

/-- The open contracts in order. -/
def openIds : List String :=
  sortedBy String.toList (state.openPositions.map OpenPosition.contractId)

def note (note : Note) : OptionsState :=
  { state with notes := state.notes ++ [note] }

def count (change : OptionsCounters → OptionsCounters) : OptionsState :=
  { state with counters := change state.counters }

def closePositionRow (contractId : String) (exit : Exit) : OptionsState :=
  match state.position? contractId with
  | none => state
  | some position =>
    { state with
      openPositions :=
        state.openPositions.filter fun position => position.contractId ≠ contractId
      closedRows := state.closedRows ++ [rowOf position (some exit)] }

end OptionsState

/-! ## The inputs of a run -/

structure OptionsInput (Snapshot : Type) where
  calendar : MarketCalendar
  surface : OptionSurface Snapshot
  bars : List PublishedBar
  actions : List PublishedAction
  candidateFilter : Snapshot → CandidateDecision
  signals : List OptionSignal
  initialCash : ℚ
  config : OptionsStrategyConfig
  arm : Arm
  endSession : Option ℤ
  feeModel : PerContractFeeModel
  maxQuoteAgeSeconds : ℤ
  executionCalendar : Option MarketCalendar

section Run

variable {Snapshot : Type} (input : OptionsInput Snapshot)

theorem wholeSize_pos : (0 : ℚ) < 1 :=
  one_pos

theorem wholeSize_le : (1 : ℚ) ≤ 1 :=
  le_rfl

/-- The engine runs on the execution calendar, with the closes of the grid where there are two. -/
def engineOf : Guards.FillEngine where
  calendar := (input.executionCalendar.getD input.calendar).forEngine
  feeModel := input.feeModel.orderFees
  maxQuoteAgeSeconds := input.maxQuoteAgeSeconds
  rejectLockedQuotes := true
  fillSizeFraction := 1
  decisionCloses := input.executionCalendar.map fun _ session =>
    if session ∈ input.calendar.sessions then some (input.calendar.sessionClose session) else none
  fraction_pos := wholeSize_pos
  fraction_le := wholeSize_le

theorem noExtraFee : (0 : ℚ) ≤ 0 :=
  le_rfl

def zeroStress : Guards.ExecutionStress :=
  ⟨0, 0, 0, 0, noExtraFee⟩

def actionsOf (underlyingId : String) : List PublishedAction :=
  sortedBy (fun action => toLex (action.availableAt, action.sourceRecordId.toList))
    (input.actions.filter fun action => action.securityId = underlyingId)

/-- The bar of an underlying on a session, the last one that was given. -/
def barAt (underlyingId : String) (session : ℤ) : Option PublishedBar :=
  input.bars.reverse.find? fun bar => bar.securityId = underlyingId ∧ bar.session = session

/-- The latest bar of an underlying up to a session. -/
def lastBarAtOrBefore (underlyingId : String) (session : ℤ) : Option PublishedBar :=
  greatestBy (fun bar => bar.session) (input.bars.reverse.filter fun bar =>
    bar.securityId = underlyingId ∧ bar.session ≤ session)

/-! ## Fills -/

/-- A fill as the book takes it. -/
def bookFill (fill : Guards.Fill) : Fill where
  fillId := fill.fillId
  orderId := fill.orderId
  contractId := fill.contractId
  side :=
    match fill.side with
    | .buy => .buy
    | .sell => .sell
  quantity := fill.quantity.toNat
  quantity_pos := Int.toNat_le_toNat fill.quantity_pos
  price := ⟨fill.price, fill.isPrice.1, fill.isPrice.2.1, fill.isPrice.2.2⟩
  multiplier := fill.multiplier.toNat
  multiplier_pos := Int.toNat_le_toNat fill.multiplier_pos
  fees := ⟨fill.fees, fill.isFee.2.1, (abs_of_nonneg fill.isFee.1).trans_lt fill.isFee.2.2⟩
  fees_nonneg := fill.isFee.1
  executionAt := fill.executionAt
  executionSession := fill.executionSession

/-- The code of an error that is counted as a rejection. Every other error ends the run. -/
def rejectionCode : Guards.EngineError → Option String
  | .rejection code =>
    some (match code with
      | .duplicateOrderExecution _ => "DUPLICATE_ORDER_EXECUTION"
      | .orderRebound _ => "ORDER_REBOUND"
      | .partialExceedsOrder .. => "PARTIAL_EXCEEDS_ORDER"
      | .sessionNotInCalendar _ => "SESSION_NOT_IN_CALENDAR"
      | .contractMismatch .. => "CONTRACT_MISMATCH"
      | .contractNotListed .. => "CONTRACT_NOT_LISTED"
      | .contractExpired .. => "CONTRACT_EXPIRED"
      | .contractUnknownAtDecision .. => "CONTRACT_UNKNOWN_AT_DECISION"
      | .decisionCloseNotMapped _ => "DECISION_CLOSE_NOT_MAPPED"
      | .decisionInstantNotClose .. => "DECISION_INSTANT_NOT_CLOSE"
      | .sameSessionExecution .. => "SAME_SESSION_EXECUTION"
      | .executionInstantMismatch .. => "EXECUTION_INSTANT_MISMATCH"
      | .barSessionNotInCalendar _ => "BAR_SESSION_NOT_IN_CALENDAR"
      | .barSessionStampMismatch _ => "BAR_SESSION_STAMP_MISMATCH"
      | .barNotMostRecent _ => "BAR_NOT_MOST_RECENT"
      | .nonstandardDeliverable _ => "NONSTANDARD_DELIVERABLE"
      | .invalidFractionToMidpoint _ => "INVALID_FRACTION_TO_MIDPOINT"
      | .priceOutsideBounds _ => "PRICE_OUTSIDE_BOUNDS"
      | .unmarketableLimit .. => "UNMARKETABLE_LIMIT"
      | .noLiquidity .. => "NO_LIQUIDITY")
  | .crossedQuote => some "CrossedQuoteError"
  | .lockedQuote => some "LockedQuoteError"
  | .nonpositiveQuote => some "NonpositiveQuoteError"
  | .nonTickQuote => some "NonTickQuoteError"
  | .nonTradableCondition => some "NonTradableConditionError"
  | .staleQuote => some "StaleQuoteError"
  | .zeroSizeQuote => some "ZeroSizeQuoteError"
  | .zeroVolumeVwap | .valueError _ | .validation _ | .notASession _ | .overflow
  | .invalidOperation | .feeModel _ => none

/-- What became of an order. -/
inductive Executed where
  | filled (fill : Guards.Fill)
  | rejected (code : String)

def rejectOrRaise (error : Guards.EngineError) : Except StrategyError Executed :=
  match rejectionCode error with
  | some code => .ok (.rejected code)
  | none => .error (.engine error)

def auditOf (order : Guards.Order) (fill : Guards.Fill) (selected : Guards.Quote) :
    FillAudit where
  fillId := fill.fillId
  decisionSession := order.decisionSession
  decisionAt := order.decisionAt
  quoteReceivedAt := selected.receivedTimestamp
  executionAt := fill.executionAt
  executionSession := fill.executionSession
  quoteSession :=
    match selected with
    | .twoSided _ => none
    | .vwap event => some event.session
  quoteVolume :=
    match selected with
    | .twoSided _ => none
    | .vwap event => some event.volume

def callOf (order : Guards.Order) (quotes : List Guards.Quote) (contract : OptionContract)
    (session instant : ℤ) : Guards.Call where
  order := order
  quotes := quotes
  contract := contract.toOptionContract
  executionSession := session
  executionAt := instant
  fractionToMidpoint := 0
  stress := zeroStress
  partialSequence := false

def sessionCall (session instant : ℤ) (order : Guards.Order) (contract : OptionContract) :
    Guards.Call :=
  callOf order (input.surface.visibleQuotesAsOf order.contractId instant) contract session instant

/-- What an execution leaves. A fill is audited with the quote that it was filled from. -/
def concludeFill (instant : ℤ) (state : OptionsState) (call : Guards.Call) :
    Except Guards.EngineError Guards.Fill × Guards.EngineState →
      Except StrategyError (OptionsState × Executed)
  | (.error error, engine) => do
      let rejected ← rejectOrRaise error
      return ({ state with engine }, rejected)
  | (.ok fill, engine) =>
    match Guards.selectQuote call.quotes instant with
    | .error error => do
        let rejected ← rejectOrRaise error
        return ({ state with engine }, rejected)
    | .ok selected =>
      return ({ state with
        engine := engine
        fillAudit := state.fillAudit ++ [auditOf call.order fill selected] }, .filled fill)

/-- Execute an order against the quotes that are visible. -/
def executeFill (session instant : ℤ) (state : OptionsState) (order : Guards.Order) :
    Except StrategyError (OptionsState × Executed) := do
  let contract ← input.surface.contract order.contractId
  let call := sessionCall input session instant order contract
  concludeFill instant state call (Guards.outcome (engineOf input) state.engine call)

/-- A fill is applied to the book, and its notional is counted. -/
def settleFill (state : OptionsState) (fill : Guards.Fill) : Except OptionsError OptionsState :=
  match (Ledger.apply (bookFill fill)).run state.ledger with
  | .error error _ => .error (.ledger error)
  | .ok _ book => do
      let notional ← lift (roundCents (mul (mul fill.price fill.quantity) fill.multiplier))
      return { state with
        ledger := book
        fills := state.fills ++ [fill]
        tradedNotional := add state.tradedNotional notional }

/-! ## Sales -/

/-- A rejected sale is ordered again for the next session, if there is one. -/
def retrySell (contractId : String) (quantity : ℕ) (decided : ℤ) (state : OptionsState) :
    Except StrategyError OptionsState :=
  match input.calendar.toTradingCalendar.nthAfter decided 1 with
  | none => .ok state
  | some retry => do
      let decisionAt ← input.calendar.closeOf decided
      let order ← closeLong ("OPT-R" ++ longDate retry ++ "-" ++ contractId) contractId quantity
        decisionAt decided
      return { state with
        pendingExits := Function.update state.pendingExits retry
          (state.pendingExits retry ++ [order]) }

/-- Sell what is held of a contract, or try again. -/
def sellHeld (session instant : ℤ) (rejected : String → OptionsCounters → OptionsCounters)
    (filled : OptionsCounters → OptionsCounters) (order : Guards.Order) (held : ℕ)
    (state : OptionsState) : Except OptionsError OptionsState := do
  let (executed, outcome) ← lift (executeFill input session instant state order)
  match outcome with
  | .rejected code =>
    lift (retrySell input order.contractId held session (executed.count (rejected code)))
  | .filled fill => do
      let contract ← lift (input.surface.contract order.contractId)
      let settled ← settleFill (executed.note (.sale (engineOf input) state.engine
        (sessionCall input session instant order contract))) fill
      return (settled.count filled).closePositionRow order.contractId
        ⟨.sell, some fill.fillId, fill.price, session⟩

/-- A ratio action that was announced since the last window. -/
def forceCloseTrigger (state : OptionsState) (instant : ℤ) (underlyingId : String) :
    Option PublishedAction :=
  (actionsOf input underlyingId).find? fun action =>
    classifyAction action.kind = .ratio ∧ action.availableAt ≤ instant ∧
      state.lastWindowInstant.all fun last => decide (last < action.availableAt)

def forceCloseOrder (session : ℤ) (contractId : String) (held : ℕ) :
    Except StrategyError Guards.Order := do
  let decided ← input.calendar.previousSession session
  let decisionAt ← input.calendar.closeOf decided
  closeLong ("OPT-F" ++ longDate session ++ "-" ++ contractId) contractId held decisionAt decided

def forceClose (session instant : ℤ) (state : OptionsState) (contractId : String) :
    Except OptionsError OptionsState := do
  let position ← lift (orRaise (.keyError contractId) (state.position? contractId))
  let held := state.ledger.quantity contractId
  if forceCloseTrigger input state instant position.underlyingId = none ∨ held < 1 then
    return state
  else
    let order ← lift (forceCloseOrder input session contractId held)
    sellHeld input session instant
      (fun code counters =>
        { counters with forceCloseRejections := bump counters.forceCloseRejections code })
      (fun counters => { counters with forceCloses := counters.forceCloses + 1 })
      order held state

def forceCloses (session instant : ℤ) (state : OptionsState) : Except OptionsError OptionsState :=
  if input.config.allowForceClose = false then .ok state
  else state.openIds.foldlM (forceClose input session instant) state

/-- An exit that is due, for whatever is held. -/
def scheduledExit (session instant : ℤ) (state : OptionsState) (order : Guards.Order) :
    Except OptionsError OptionsState :=
  if held : 1 ≤ state.ledger.quantity order.contractId then
    sellHeld input session instant
      (fun code counters =>
        { counters with
          exitFillRejections := bump counters.exitFillRejections code
          exitRetries := counters.exitRetries + 1 })
      id (withQuantity order (state.ledger.quantity order.contractId) held)
      (state.ledger.quantity order.contractId) state
  else .ok state

def scheduledExits (session instant : ℤ) (state : OptionsState) :
    Except OptionsError OptionsState :=
  (state.pendingExits session).foldlM (scheduledExit input session instant)
    { state with pendingExits := Function.update state.pendingExits session [] }

/-! ## Elections -/

def visibleEntry (underlyingId : String) (asOf : ℤ) (contractId : String) :
    Except StrategyError (Option ChainEntry) :=
  match input.surface.entryAsOf underlyingId asOf contractId with
  | .error (.noOptionFile _ _) => .ok none
  | answer => answer

/-- The inputs of an election, unless the visible file does not have the contract. -/
def electionInputs (session instant : ℤ) (position : OpenPosition) (contract : OptionContract) :
    Except StrategyError (Option ExerciseElectionInputs) :=
  let inputs : Except StrategyError (Option ExerciseElectionInputs) := do
    let entry ← input.surface.entryAsOf position.underlyingId instant position.contractId
    let spot ← input.surface.spotMidAsOf position.underlyingId instant
    return entry.map fun entry =>
      { exerciseStyle := contract.exerciseStyle
        callPut := contract.callPut
        expirationSeen := true
        midPremium := roundContext (add entry.bid entry.ask / 2)
        bid := entry.bid
        intrinsic :=
          match contract.callPut with
          | .call => max (sub spot contract.strike.value) 0
          | .put => max (sub contract.strike.value spot) 0
        pendingDividendPerShare := pendingDividendPerShare
          (actionsOf input position.underlyingId) position.underlyingId instant session
          contract.expiration }
  match inputs with
  | .error (.noOptionFile _ _) => .ok none
  | answer => answer

def elect (session instant : ℤ) (state : OptionsState) (elected : List (String × ℕ))
    (contractId : String) : Except StrategyError (List (String × ℕ)) := do
  let position ← orRaise (.keyError contractId) (state.position? contractId)
  let contract ← input.surface.contract contractId
  if contract.expiration ≤ session then return elected
  else
    let inputs ← electionInputs input session instant position contract
    return if inputs.any shouldElectExercise then
      elected ++ [(contractId, state.ledger.quantity contractId)]
    else elected

def elections (session instant : ℤ) (state : OptionsState) :
    Except StrategyError (List (String × ℕ)) :=
  match input.arm with
  | .a => .ok []
  | .b => state.openIds.foldlM (elect input session instant state) []

/-! ## Entries -/

/-- The contracts of an order that every budget affords. -/
def clampQuantity (order : Guards.Order) (cash ask : ℚ) (multiplier : ℤ) :
    Except StrategyError ℕ :=
  ([cash] ++ order.budgetNotional.toList).foldlM (fun clamped budget => do
    let affordable ← affordableContracts input.feeModel budget ask multiplier clamped
    return min clamped affordable) order.quantity.toNat

/-- The exit of an entry, ordered when it is entered. -/
def scheduleExit (session : ℤ) (fill : Guards.Fill) (state : OptionsState) :
    Except StrategyError OptionsState :=
  match input.arm with
  | .b => .ok state
  | .a => do
      let exitSession ← input.calendar.nthAfter session input.config.exitSessionsAfterEntry
      let decision ← exitDecisionSession input.calendar session input.config
      let decisionAt ← input.calendar.closeOf decision
      let order ← closeLong ("OPT-S" ++ longDate decision ++ "-" ++ fill.contractId)
        fill.contractId fill.quantity decisionAt decision
      return { state with
        pendingExits := Function.update state.pendingExits exitSession
          (state.pendingExits exitSession ++ [order]) }

def hitsOf : Option Number → List Bool
  | some (.finite label) => [decide (0 < label)]
  | some (.infinity negative) => [!negative]
  | some .nan => [false]
  | none => []

def positionOf (session : ℤ) (state : OptionsState) (order : Guards.Order) (fill : Guards.Fill)
    (underlyingId : String) (contract : OptionContract) : OpenPosition :=
  let signal := state.orderSignals order.orderId
  let facts := state.entryFacts order.contractId
  { contractId := order.contractId
    underlyingId
    callPut := contract.callPut
    score := (signal.map BacktestSignal.score).getD (.finite 0)
    label := signal.bind BacktestSignal.label
    entryFillId := fill.fillId
    entryPrice := fill.price
    entrySession := session
    contractExpiration := contract.expiration
    strike := facts.map EntryFacts.strike
    absDelta := facts.map EntryFacts.absDelta
    dteAtEntry := facts.map EntryFacts.dte
    decisionSession := (facts.map EntryFacts.decisionSession).getD order.decisionSession }

def rejectEntry (state : OptionsState) (code : String) : OptionsState :=
  state.count fun counters =>
    { counters with entryFillRejections := bump counters.entryFillRejections code }

/-- Buy a quantity, and open a position. -/
def buyEntry (session instant : ℤ) (state : OptionsState) (order : Guards.Order)
    (underlyingId : String) (contract : OptionContract) : Except OptionsError OptionsState := do
  let (executed, outcome) ← lift (executeFill input session instant state order)
  match outcome with
  | .rejected code => return rejectEntry executed code
  | .filled fill => do
      let settled ← settleFill executed fill
      let position := positionOf session settled order fill underlyingId contract
      let opened ← lift (scheduleExit input session fill
        { settled with openPositions := settled.openPositions ++ [position] })
      return { opened with labelHits := opened.labelHits ++ hitsOf position.label }

def enter (session instant : ℤ) (cancelled : List String) (state : OptionsState)
    (order : Guards.Order) : Except OptionsError OptionsState :=
  if order.orderId ∈ cancelled then
    .ok (state.count fun counters =>
      { counters with entriesCancelled := counters.entriesCancelled + 1 })
  else if state.isOpen order.contractId then
    .ok (state.count fun counters =>
      { counters with entriesSkippedOpen := counters.entriesSkippedOpen + 1 })
  else do
    let underlyingId ← lift (orRaise (.keyError order.contractId)
      (state.contractUnderlying order.contractId))
    let contract ← lift (input.surface.contract order.contractId)
    let entry ← lift (visibleEntry input underlyingId instant order.contractId)
    match entry with
    | none => return rejectEntry state "NO_VISIBLE_QUOTE"
    | some entry => do
        let clamped ← lift
          (clampQuantity input order state.ledger.cash entry.ask contract.multiplier)
        if affords : 1 ≤ clamped then
          buyEntry input session instant state (withQuantity order clamped affords) underlyingId
            contract
        else return rejectEntry state "UNAFFORDABLE_AT_EXECUTION"

def entries (session instant : ℤ) (state : OptionsState) : Except OptionsError OptionsState :=
  let due := state.pendingEntries session
  let cancelled := (cancellationsAtExecution due input.actions instant state.contractUnderlying
    input.config).map Guards.Order.orderId
  due.foldlM (enter input session instant cancelled)
    { state with pendingEntries := Function.update state.pendingEntries session [] }

/-! ## Settlements -/

inductive DueKind where
  | earlyExercise
  | expiry
  | terminal
  | terminalSilent
  deriving DecidableEq

/-- The kinds in the order of their names. -/
def DueKind.rank : DueKind → ℕ
  | earlyExercise => 0
  | expiry => 1
  | terminal => 2
  | terminalSilent => 3

def DueKind.settles : DueKind → SettlementKind
  | earlyExercise => .earlyExercise
  | expiry => .expiry
  | terminal | terminalSilent => .terminal

/-- A settlement that is due, with the action that ends its contract if there is one. -/
structure Due where
  kind : DueKind
  contractId : String
  quantity : ℕ
  action : Option PublishedAction

/-- The end of what is known on a session: the open of the next one, or the close of the last. -/
def horizon (session : ℤ) : Except StrategyError ℤ :=
  match input.calendar.toTradingCalendar.nthAfter session 1 with
  | some next => input.calendar.openOf next
  | none => input.calendar.closeOf session

/-- A delisting or a merger that has taken effect, announced by the horizon. -/
def terminalAction (session horizon : ℤ) (underlyingId : String) : Option PublishedAction :=
  (actionsOf input underlyingId).find? fun action =>
    classifyAction action.kind = .terminal ∧ action.effectiveSession ≤ session ∧
      action.availableAt ≤ horizon

/-- The contracts whose underlying ends by an action. -/
def terminalDues (session horizon : ℤ) (state : OptionsState) : List Due :=
  state.openIds.filterMap fun contractId =>
    (state.position? contractId).bind fun position =>
      (terminalAction input session horizon position.underlyingId).map fun action =>
        { kind := .terminal, contractId, quantity := state.ledger.quantity contractId
          action := some action }

/-- An underlying with bars before, and none on the session. -/
def DiedSilently (session : ℤ) (underlyingId : String) : Prop :=
  barAt input underlyingId session = none ∧
    lastBarAtOrBefore input underlyingId session ≠ none

instance (session : ℤ) (underlyingId : String) :
    Decidable (DiedSilently input session underlyingId) :=
  decidable_of_iff ((barAt input underlyingId session).isNone ∧
    (lastBarAtOrBefore input underlyingId session).isSome)
    (and_congr Option.isNone_iff_eq_none Option.isSome_iff_ne_none)

def silentDues (session : ℤ) (state : OptionsState) (claimed : List String) : List Due :=
  state.openIds.filterMap fun contractId =>
    (state.position? contractId).bind fun position =>
      if DiedSilently input session position.underlyingId ∧ contractId ∉ claimed then
        some { kind := .terminalSilent, contractId
               quantity := state.ledger.quantity contractId, action := none }
      else none

def electedDues (state : OptionsState) (claimed : List String) (elected : List (String × ℕ)) :
    List Due :=
  elected.filterMap fun election =>
    if election.1 ∈ claimed ∨ election.2 < 1 ∨ state.ledger.quantity election.1 < 1 then none
    else
      some { kind := .earlyExercise, contractId := election.1
             quantity := min election.2 (state.ledger.quantity election.1), action := none }

def expiryDue (session : ℤ) (state : OptionsState) (claimed : List String) (dues : List Due)
    (contractId : String) : Except StrategyError (List Due) := do
  let contract ← input.surface.contract contractId
  return if contract.expiration = session ∧ 1 ≤ state.ledger.quantity contractId ∧
      contractId ∉ claimed then
    dues ++ [{ kind := .expiry, contractId, quantity := state.ledger.quantity contractId
               action := none }]
  else dues

/-- What is due at the close of a session, in the order in which it is settled. -/
def settlementsDue (session : ℤ) (state : OptionsState) (elected : List (String × ℕ)) :
    Except StrategyError (List Due) := do
  let until' ← horizon input session
  let terminal := terminalDues input session until' state
  let silent := silentDues input session state (terminal.map Due.contractId)
  let exercised := electedDues state ((terminal ++ silent).map Due.contractId) elected
  let dues := terminal ++ silent ++ exercised
  let all ← state.openIds.foldlM
    (expiryDue input session state (dues.map Due.contractId)) dues
  return sortedBy
    (fun due => toLex (due.kind.rank, toLex (due.contractId.toList, due.quantity))) all

/-- The bar and the detection of a settlement. -/
def referenceOf (session instant : ℤ) (underlyingId : String) (due : Due) :
    Except StrategyError (PublishedBar × Option ℤ) :=
  match due.action with
  | some action => do
      let bar ← orRaise (.missingSettlementBar underlyingId action.effectiveSession)
        ((barAt input underlyingId action.effectiveSession).or
          (lastBarAtOrBefore input underlyingId action.effectiveSession))
      return (bar, some (max (max action.availableAt bar.availableAt) instant))
  | none => do
      let bar ← orRaise (.missingSettlementBar underlyingId session)
        ((barAt input underlyingId session).or
          (if due.kind.settles = .terminal then lastBarAtOrBefore input underlyingId session
            else none))
      return (bar, if due.kind = .terminalSilent then some (hourOf session 23) else none)

def settlementLetter : SettlementKind → String
  | .expiry => "E"
  | .earlyExercise => "E"
  | .terminal => "T"

def exitKindOf : SettlementKind → ExitKind
  | .expiry => .expiry
  | .earlyExercise => .earlyExercise
  | .terminal => .terminal

/-- The session that a settlement is minted for. -/
def mintSession (session : ℤ) (reference : PublishedBar × Option ℤ) : ℤ :=
  if reference.2.isSome then session else reference.1.session

def settlementFor (session instant : ℤ) (due : Due) :
    Except StrategyError ExerciseSettlement := do
  let contract ← input.surface.contract due.contractId
  let reference ← referenceOf input session instant contract.underlyingSecurityId due
  mintSettlement contract
    ("STL-" ++ settlementLetter due.kind.settles ++ "-" ++ contract.contractId ++ "-" ++
      longDate session)
    due.kind.settles due.quantity (mintSession session reference) reference.1 reference.2

def countSettlement (kind : DueKind) (counters : OptionsCounters) : OptionsCounters :=
  match kind with
  | .earlyExercise => { counters with earlyExercises := counters.earlyExercises + 1 }
  | .expiry => { counters with expiries := counters.expiries + 1 }
  | .terminal | .terminalSilent => { counters with terminals := counters.terminals + 1 }

/-- The price of a settlement for one share. -/
def exitPrice (settlement : ExerciseSettlement) : Except StrategyError ℚ := do
  let share ← orRaise .divisionByZero
    (div? settlement.cash.value (settlement.quantity * settlement.multiplier : ℕ))
  roundCents share

/-- An election is noted before it is settled. -/
def noteElection (state : OptionsState) (due : Due) : OptionsState :=
  if due.kind = .earlyExercise then
    state.note (.election due.quantity (state.ledger.quantity due.contractId))
  else state

def settleDue (session instant : ℤ) (state : OptionsState) (due : Due) :
    Except OptionsError OptionsState := do
  let settlement ← lift (settlementFor input session instant due)
  match (Ledger.applySettlement settlement).run state.ledger with
  | .error error _ => .error (.ledger error)
  | .ok _ book => do
      let price ← lift (exitPrice settlement)
      let settled := { noteElection state due with ledger := book }
      return (settled.closePositionRow settlement.contractId
        ⟨exitKindOf due.kind.settles, none, price, settlement.session⟩).count
          (countSettlement due.kind)

/-! ## The mark -/

/-- What an open position is marked at: the bid of the file of the session before, or nothing. -/
def markOne (closeAt previous : ℤ) (mark : ℚ × OptionsState) (contractId : String) :
    Except StrategyError (ℚ × OptionsState) := do
  let position ← orRaise (.keyError contractId) (mark.2.position? contractId)
  let missed := mark.2.count fun counters =>
    { counters with markMisses := counters.markMisses + 1 }
  if input.surface.visibleFileSession position.underlyingId closeAt ≠ some previous then
    return (mark.1, missed)
  else
    let entry ← visibleEntry input position.underlyingId closeAt contractId
    match entry with
    | none => return (mark.1, missed)
    | some entry => do
        let value ← roundCents (mul (mul entry.bid (mark.2.ledger.quantity contractId)) 100)
        return (add mark.1 value, mark.2)

/-- What a session shows at its close. The return and the turnover are not floats yet; there is no
return without an equity before it. -/
structure SessionEquity where
  session : ℤ
  equity : ℚ
  sessionReturn : Option ℚ
  turnover : ℚ

/-- The equity at the close. -/
def equityOf (session : ℤ) (state : OptionsState) :
    Except StrategyError (OptionsState × ℚ) := do
  let closeAt ← input.calendar.closeOf session
  let previous ← input.calendar.previousSession session
  let (value, marked) ← state.openIds.foldlM (markOne input closeAt previous) ((0 : ℚ), state)
  let equity ← roundCents (add marked.ledger.cash value)
  return (marked, equity)

def equityRow (session : ℤ) (state : OptionsState) (equity : ℚ) :
    Except StrategyError SessionEquity :=
  if 0 < state.previousEquity then do
    let growth ← orRaise .divisionByZero (div? equity state.previousEquity)
    let turnover ← orRaise .divisionByZero (div? state.tradedNotional state.previousEquity)
    return ⟨session, equity, some (sub growth 1), turnover⟩
  else .ok ⟨session, equity, none, 0⟩

def markSession (session instant : ℤ) (state : OptionsState) :
    Except OptionsError (OptionsState × SessionEquity) := do
  let (marked, equity) ← lift (equityOf input session state)
  let row ← lift (equityRow session marked equity)
  let _ ← marked.ledger.assertConservation.mapError OptionsError.ledger
  let counted := marked.count fun counters =>
    { counters with conservationChecks := counters.conservationChecks + 1 }
  return ({ counted with previousEquity := equity, lastWindowInstant := some instant }, row)

/-! ## Decisions -/

def noteCandidate (state : OptionsState) (candidate : OptionCandidate) : OptionsState :=
  { state with
    contractUnderlying := Function.update state.contractUnderlying candidate.contract.contractId
      (some candidate.contract.underlyingSecurityId)
    entryFacts := Function.update state.entryFacts candidate.contract.contractId
      (some ⟨candidate.strike, candidate.absDelta,
        candidate.expiration - candidate.signal.decisionSession,
        candidate.signal.decisionSession⟩) }

def noteSignal (orders : List Guards.Order) (signals : String → Option OptionSignal)
    (candidate : OptionCandidate) : String → Option OptionSignal :=
  (orders.filter fun order => order.contractId = candidate.contract.contractId).foldl
    (fun signals order => Function.update signals order.orderId (some candidate.signal)) signals

/-- Order the candidates of a decision for the next session. -/
def scheduleEntries (decision : ℤ) (state : OptionsState) : Except StrategyError OptionsState :=
  let rows := input.signals.filter fun signal => signal.decisionSession = decision
  if rows = [] then .ok state
  else do
    let (audit, candidates) ← buildCandidates input.surface input.config input.candidateFilter
      decision rows input.actions state.audit
    let noted := candidates.foldl noteCandidate { state with audit }
    let orders ← planOrders input.calendar candidates noted.ledger.cash input.config input.feeModel
    let scheduled ←
      if orders = [] then pure noted
      else do
        let next ← input.calendar.nthAfter decision 1
        pure { noted with pendingEntries := Function.update noted.pendingEntries next orders }
    return { scheduled with
      orderSignals := candidates.foldl (noteSignal orders) scheduled.orderSignals }

/-! ## One session -/

/-- 10:00, half an hour after the open. -/
def executionInstant (session : ℤ) : Except StrategyError ℤ := do
  let openAt ← input.calendar.openOf session
  orRaise .overflow (shiftInstant openAt 1800)

def beginSession (session : ℤ) (state : OptionsState) : OptionsState :=
  { state with
    tradedNotional := 0
    notes := state.notes ++ state.openPositions.map fun position =>
      .overnight session position.contractExpiration }

/-- Everything that is traded at 10:00. -/
def tradeSession (session instant : ℤ) (state : OptionsState) :
    Except OptionsError (OptionsState × List (String × ℕ)) := do
  let closed ← forceCloses input session instant (beginSession session state)
  let elected ← lift (elections input session instant closed)
  let sold ← scheduledExits input session instant closed
  let bought ← entries input session instant sold
  return (bought, elected)

/-- Everything that a session does before its close decides the next. -/
def playSession (session : ℤ) (state : OptionsState) :
    Except OptionsError (OptionsState × SessionEquity) := do
  let instant ← lift (executionInstant input session)
  let (traded, elected) ← tradeSession input session instant state
  let dues ← lift (settlementsDue input session traded elected)
  let settled ← dues.foldlM (settleDue input session instant) traded
  markSession input session instant settled

def runSession (session : ℤ) (state : OptionsState) :
    Except OptionsError (OptionsState × SessionEquity) := do
  let (played, row) ← playSession input session state
  let scheduled ← lift (scheduleEntries input session played)
  return (scheduled, row)

/-! ## The run -/

def checkSignal (seen : List (ℤ × String)) (signal : OptionSignal) :
    Except StrategyError (List (ℤ × String)) := do
  let key := (signal.decisionSession, signal.securityId)
  refuse (seen.any fun other => other = key) (.duplicateSignal signal.decisionSession signal.securityId)
  refuse (Backtest.isFinite signal = false)
    (.nonFiniteSignal signal.decisionSession signal.securityId)
  return seen ++ [key]

/-- Everything that is checked of the inputs. -/
def checkInput : Except StrategyError Unit := do
  let snapshot := input.bars.head?.map fun bar => bar.snapshotId
  refuse (input.surface.snapshotId ≠ snapshot) (.crossWorld input.surface.snapshotId snapshot)
  refuse (input.signals = []) .noSignals
  let _ ← input.signals.foldlM checkSignal []
  return ⟨⟩

/-- The first decision of a run, and its sessions. -/
def runBounds : Except StrategyError (ℤ × List ℤ) := do
  let earliest ← orRaise .noSignals (input.signals.map BacktestSignal.decisionSession).min?
  let latest ← orRaise .noSignals (input.signals.map BacktestSignal.decisionSession).max?
  let first ← input.calendar.nthAfter earliest 1
  let terminal ← match input.endSession with
    | some session => pure session
    | none => input.calendar.nthAfter latest 1
  let terminalAt ← input.calendar.ordinal terminal
  let firstAt ← input.calendar.ordinal first
  refuse (terminalAt < firstAt) .endBeforeFirst
  return (earliest, runSessionsOf input.calendar.toTradingCalendar first terminal)

/-- The state before the first session: the earliest decision has been made. -/
def beforeFirst (earliest : ℤ) : Except StrategyError OptionsState :=
  scheduleEntries input earliest (.start input.initialCash)

end Run

structure OptionsBacktestResult (Real Summary : Type) where
  summary : Summary
  sessions : List ℤ
  turnovers : List Real
  equities : List ℚ
  positions : List PositionRow
  fills : List Guards.Fill
  fillAudit : List FillAudit
  labelHits : List Bool
  counters : OptionsCounters
  audit : CandidateAudit
  terminalCash : ℚ
  terminalMarketValue : ℚ
  terminalEquity : ℚ
  openPositions : List String

/-- The floats, and the summary of a run. -/
structure OptionsStatistics (Real Summary : Type) where
  float : ℚ → Real
  backtestSummary : List Real → List Real → List Bool → Except StrategyError Summary

def runOptionsBacktest {Real Summary Snapshot : Type} (statistics : OptionsStatistics Real Summary)
    (input : OptionsInput Snapshot) :
    Except OptionsError (OptionsBacktestResult Real Summary) := do
  lift (checkInput input)
  let (earliest, sessions) ← lift (runBounds input)
  let before ← lift (beforeFirst input earliest)
  let (state, rows) ← runSessions (runSession input) sessions before
  let equities := rows.map SessionEquity.equity
  let turnovers := rows.map fun row => statistics.float row.turnover
  let returns := rows.filterMap fun row => row.sessionReturn.map statistics.float
  let summary ← lift (statistics.backtestSummary returns turnovers state.labelHits)
  let stillOpen := state.openPositions.map fun position => rowOf position none
  return {
    summary, sessions, turnovers, equities
    positions := sortedBy
      (fun row => toLex (row.position.entrySession, row.position.contractId.toList))
      (state.closedRows ++ stillOpen)
    fills := state.fills
    fillAudit := state.fillAudit
    labelHits := state.labelHits
    counters := state.counters
    audit := state.audit
    terminalCash := state.ledger.cash
    terminalMarketValue := (equities.getLast?.map fun last => sub last state.ledger.cash).getD 0
    terminalEquity := equities.getLast?.getD state.ledger.cash
    openPositions := state.openIds }

end TreeOptions.Options
