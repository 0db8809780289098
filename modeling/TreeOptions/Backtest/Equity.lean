import TreeOptions.Backtest.Calendar
import TreeOptions.Backtest.FeeModel
import TreeOptions.Foundations.Grouping
import TreeOptions.Foundations.Sessions
import Mathlib.Data.Char
import Mathlib.Data.List.Lex
import Mathlib.Data.Prod.Lex

/-!
# The equity backtest

Signals decided at the close of a session are executed at the open of the next one. Each
session first converts what is held by the corporate actions of the session, then rebalances
into the top fifth of the signals that are due, then closes what is delisted, and values the
account at the close.

A ratio action and a dividend sell what is held at an equivalent price and buy it back at the
open, without fees. Ordinary purchases are limited to what the cash affords.

Identifiers were checked when the records were built. Floats are whatever the statistics make
of the decimals they are computed from. Beside what the code keeps, a state notes the book after
every fill and the ratio conversions that were made.
-/

set_option autoImplicit false

namespace TreeOptions.Backtest

open Decimal Ledger

/-! ## Records -/

inductive ActionKind where
  | split
  | reverseSplit
  | cashDividend
  | stockDividend
  | merger
  | spinoff
  | symbolChange
  | delisting
  deriving DecidableEq

structure BarRecord where
  securityId : String
  session : ℤ
  openPrice : Price
  closePrice : Price
  source : String
  snapshotId : String

structure CorporateActionRecord where
  securityId : String
  kind : ActionKind
  effectiveSession : ℤ
  ratioNumerator : Option ℕ
  ratioDenominator : Option ℕ
  cashAmount : Option Money
  sourceRecordId : String
  snapshotId : String

structure SecurityMasterRecord where
  securityId : String
  listingEnd : Option ℤ

structure BacktestSignal where
  decisionSession : ℤ
  securityId : String
  score : Number
  label : Option Number

structure EquityInput where
  bars : List BarRecord
  master : List SecurityMasterRecord
  actions : List CorporateActionRecord
  signals : List BacktestSignal
  initialCash : ℚ
  endSession : Option ℤ

inductive EquityError where
  | duplicateBar (securityId : String) (session : ℤ)
  | foreignSource
  | manySnapshots
  | duplicateMasterRecord (securityId : String)
  | foreignSnapshot (snapshotId : String)
  | duplicateSignal (decisionSession : ℤ) (securityId : String)
  | nonFiniteSignal (decisionSession : ℤ) (securityId : String)
  | missingFromMaster (securityId : String)
  | noSignals
  | endBeforeFirst
  | missingActionBar (securityId : String) (session : ℤ) (kind : ActionKind)
  | missingHeldBar (securityId : String) (session : ℤ)
  | missingExecutionBar (securityId : String) (session : ℤ)
  | missingDelistingBar (securityId : String) (session : ℤ)
  | nonPositiveRatio
  | negativeDividend
  | nonPositiveQuantity
  | nonPositivePrice
  | nonPositiveEquity (session : ℤ) (equity : ℚ)
  | notNextSessionOpen (decision session : ℤ)
  | notASession
  | assertion
  | keyError (securityId : String)
  | invalidFill
  | invalidOperation
  | divisionByZero
  | fees (error : FeeError)
  | ledger (error : LedgerError)
  | statistics

def datasetProvenance : String :=
  "synthetic/v1"

def orRaise {Value : Type} (error : EquityError) : Option Value → Except EquityError Value
  | some value => .ok value
  | none => .error error

/-- Rounding to cents, with ties away from zero. -/
def roundFees (amount : ℚ) : Except EquityError ℚ :=
  orRaise .invalidOperation (quantizeCents roundHalfUp amount)

def quotient (x y : ℚ) : Except EquityError ℚ :=
  orRaise .divisionByZero (div? x y)

/-! ## The state -/

structure RatioConversion where
  cash : ℚ
  quantity : ℕ
  openPrice : ℚ
  numerator : ℕ
  denominator : ℕ

structure EquityState where
  ledger : LedgerBook
  sequence : ℕ
  fills : List Fill
  openIds : List String
  previousEquity : ℚ
  tradedNotional : ℚ
  labelHits : List Bool
  books : List LedgerBook
  conversions : List RatioConversion

def EquityState.start (initialCash : ℚ) : EquityState where
  ledger := .new initialCash
  sequence := 0
  fills := []
  openIds := []
  previousEquity := (LedgerBook.new initialCash).initialCash
  tradedNotional := 0
  labelHits := []
  books := []
  conversions := []

/-- Add to a set that is kept as a list. -/
def addId (ids : List String) (securityId : String) : List String :=
  if securityId ∈ ids then ids else ids ++ [securityId]

def sortedIds (ids : List String) : List String :=
  sortedBy String.toList ids

/-! ## The fill engine -/

def eightDigits (number : ℕ) : String :=
  String.ofList ((Nat.toDigits 10 number).leftpad 8 '0')

/-- The engine keeps a fill that it minted. -/
def EquityState.keep (state : EquityState) (fill : Fill) : EquityState :=
  { state with sequence := state.sequence + 1, fills := state.fills ++ [fill] }

def EquityState.note (state : EquityState) (converted : RatioConversion) : EquityState :=
  { state with conversions := state.conversions ++ [converted] }

/-- The fees of a fill. Only ordinary trades pay any. -/
def fillFees (chargeFee : Bool) (price : ℚ) (quantity : ℕ) : Except EquityError ℚ :=
  if chargeFee then
    ((FeeModel.fiveBasisPoints).orderFees price quantity).mapError EquityError.fees
  else .ok 0

def mint (state : EquityState) (securityId : String) (side : Side) (quantity : ℕ) (price : ℚ)
    (executionSession executionAt : ℤ) (chargeFee : Bool) (purpose : String) :
    Except EquityError (EquityState × Fill) := do
  Checked.refuse (quantity < 1) .nonPositiveQuantity
  Checked.refuse (price ≤ 0) .nonPositivePrice
  let fees ← fillFees chargeFee price quantity
  let number := eightDigits (state.sequence + 1)
  let fill ← orRaise .invalidFill (Fill.mint? ("EQF-" ++ number)
    ("EQO-" ++ purpose ++ "-" ++ number) securityId side quantity price 1 fees executionAt
    executionSession)
  return (state.keep fill, fill)

/-- Apply a fill to the book. -/
def applyFill (state : EquityState) (fill : Fill) : Except EquityError EquityState :=
  match (Ledger.apply fill).run state.ledger with
  | .ok _ book => .ok { state with ledger := book, books := state.books ++ [book] }
  | .error error _ => .error (.ledger error)

/-- The price at which a conversion sells, equivalent to the opening price. -/
def equivalentPrice (openPrice ratio : ℚ) : Except EquityError ℚ :=
  roundFees (mul openPrice ratio)

/-- The whole shares that a conversion buys. -/
def convertedQuantity (quantity : ℕ) (ratio : ℚ) : ℕ :=
  ⌊mul quantity ratio⌋.toNat

section Session

variable (calendar : TradingCalendar)

/-- Sell the old units at the equivalent price, and buy the new whole shares at the open. -/
def conversion (state : EquityState) (securityId : String) (quantity : ℕ) (bar : BarRecord)
    (numerator denominator : ℕ) : Except EquityError (EquityState × List Fill) := do
  Checked.refuse (numerator < 1 ∨ denominator < 1) .nonPositiveRatio
  let ratio ← quotient numerator denominator
  let price ← equivalentPrice bar.openPrice.value ratio
  let noted := state.note
    ⟨state.ledger.cash, quantity, bar.openPrice.value, numerator, denominator⟩
  let (sold, old) ← mint noted securityId .sell quantity price bar.session
    (calendar.sessionOpen bar.session) false "action-out"
  if convertedQuantity quantity ratio = 0 then return (sold, [old])
  else
    let (bought, new) ← mint sold securityId .buy (convertedQuantity quantity ratio)
      bar.openPrice.value bar.session (calendar.sessionOpen bar.session) false "action-in"
    return (bought, [old, new])

/-- Sell at the open with the dividend, and buy back at the open. -/
def cashDividend (state : EquityState) (securityId : String) (quantity : ℕ) (bar : BarRecord)
    (cashAmount : ℚ) : Except EquityError (EquityState × List Fill) := do
  Checked.refuse (cashAmount < 0) .negativeDividend
  let price ← roundFees (add bar.openPrice.value cashAmount)
  let (sold, old) ← mint state securityId .sell quantity price bar.session
    (calendar.sessionOpen bar.session) false "dividend-out"
  let (bought, new) ← mint sold securityId .buy quantity bar.openPrice.value bar.session
    (calendar.sessionOpen bar.session) false "dividend-in"
  return (bought, [old, new])

/-! ## Corporate actions -/

/-- What a session is run from. -/
structure SessionView where
  bar : String → Option BarRecord
  actions : List CorporateActionRecord
  selected : Option (ℤ × List BacktestSignal)

def convert (state : EquityState) (quantity : ℕ) (bar : BarRecord)
    (action : CorporateActionRecord) : Except EquityError (EquityState × List Fill) :=
  match action.kind with
  | .split | .reverseSplit | .stockDividend => do
      let numerator ← orRaise .assertion action.ratioNumerator
      let denominator ← orRaise .assertion action.ratioDenominator
      conversion calendar state action.securityId quantity bar numerator denominator
  | .cashDividend => do
      let amount ← orRaise .assertion action.cashAmount
      cashDividend calendar state action.securityId quantity bar amount.value
  | .merger | .spinoff | .symbolChange | .delisting => .ok (state, [])

/-- A security is open while something of it is held. -/
def reopen (state : EquityState) (securityId : String) : EquityState :=
  { state with
    openIds :=
      if state.ledger.quantity securityId = 0 then state.openIds.erase securityId
      else addId state.openIds securityId }

def applyAction (view : SessionView) (session : ℤ) (state : EquityState)
    (action : CorporateActionRecord) : Except EquityError EquityState :=
  let quantity := state.ledger.quantity action.securityId
  if quantity = 0 then .ok state
  else do
    let bar ← orRaise (.missingActionBar action.securityId session action.kind)
      (view.bar action.securityId)
    let (minted, converted) ← convert calendar state quantity bar action
    let applied ← converted.foldlM applyFill minted
    return if converted.isEmpty then applied else reopen applied action.securityId

/-! ## Valuation -/

/-- The value of what is held at the open or at the close. -/
def marketValue (view : SessionView) (session : ℤ) (price : BarRecord → Price)
    (state : EquityState) : Except EquityError ℚ := do
  let value ← (sortedIds state.openIds).foldlM (fun value securityId => do
    let bar ← orRaise (.missingHeldBar securityId session) (view.bar securityId)
    return add value (mul (price bar).value (state.ledger.quantity securityId))) (0 : ℚ)
  roundFees value

/-- The cash and the value of what is held. -/
def equity (view : SessionView) (session : ℤ) (price : BarRecord → Price) (state : EquityState) :
    Except EquityError ℚ := do
  let value ← marketValue view session price state
  roundFees (add state.ledger.cash value)

/-! ## Trades -/

def notional (fill : Fill) : Except EquityError ℚ :=
  orRaise .invalidOperation (quantizeCents roundHalfEven
    (mul (mul fill.price.value fill.quantity) fill.multiplier))

/-- A fill is applied, and its notional is counted. -/
def settle (state : EquityState) (fill : Fill) : Except EquityError EquityState := do
  let applied ← applyFill state fill
  let traded ← notional fill
  return { applied with tradedNotional := add applied.tradedNotional traded }

/-- An ordinary trade at the open of the session after the decision. -/
def nextOpen (state : EquityState) (securityId : String) (side : Side) (quantity : ℕ)
    (decision : ℤ) (bar : BarRecord) : Except EquityError (EquityState × Fill) := do
  let expected ← orRaise .notASession (calendar.nthAfter decision 1)
  Checked.refuse (bar.session ≠ expected) (.notNextSessionOpen decision bar.session)
  mint state securityId side quantity bar.openPrice.value bar.session
    (calendar.sessionOpen bar.session) true "rebalance"

/-- What is wanted of the selected securities that trade, and which labels hit. A security without
a bar keeps its slice in cash. -/
def desire (view : SessionView) (budget : ℚ) (wanted : List (String × ℕ) × List Bool)
    (row : BacktestSignal) : Except EquityError (List (String × ℕ) × List Bool) :=
  match view.bar row.securityId with
  | none => .ok wanted
  | some bar => do
      let quantity ← ((FeeModel.fiveBasisPoints).affordableQuantity budget
        bar.openPrice.value).mapError EquityError.fees
      let hits := match row.label with
        | some (.finite label) => wanted.2 ++ [decide (0 < label)]
        | some (.infinity negative) => wanted.2 ++ [!negative]
        | some .nan => wanted.2 ++ [false]
        | none => wanted.2
      return (wanted.1 ++ [(row.securityId, quantity)], hits)

def wantedOf (desired : List (String × ℕ)) (securityId : String) : ℕ :=
  (desired.lookup securityId).getD 0

/-- Sell what is held beyond what is wanted. -/
def sellDown (view : SessionView) (session decision : ℤ) (desired : List (String × ℕ))
    (state : EquityState) (securityId : String) : Except EquityError EquityState :=
  let held := state.ledger.quantity securityId
  let wanted := wantedOf desired securityId
  if held ≤ wanted then .ok state
  else do
    let bar ← orRaise (.missingExecutionBar securityId session) (view.bar securityId)
    let (minted, fill) ← nextOpen calendar state securityId .sell (held - wanted) decision bar
    let settled ← settle minted fill
    return { settled with
      openIds := if wanted = 0 then settled.openIds.erase securityId else settled.openIds }

/-- Buy what is wanted beyond what is held, as far as the cash affords it. -/
def buyUp (view : SessionView) (session decision : ℤ) (desired : List (String × ℕ))
    (state : EquityState) (securityId : String) : Except EquityError EquityState :=
  let held := state.ledger.quantity securityId
  let wanted := wantedOf desired securityId
  if wanted ≤ held then .ok state
  else do
    let bar ← orRaise (.missingExecutionBar securityId session) (view.bar securityId)
    let affordable ← ((FeeModel.fiveBasisPoints).affordableQuantity state.ledger.cash
      bar.openPrice.value).mapError EquityError.fees
    let quantity := min (wanted - held) affordable
    if quantity = 0 then return state
    else
      let (minted, fill) ← nextOpen calendar state securityId .buy quantity decision bar
      let settled ← settle minted fill
      return { settled with openIds := addId settled.openIds securityId }

/-- The union of two sets, in order. -/
def unionIds (first second : List String) : List String :=
  sortedIds (second.foldl addId first)

/-- Hold the selected securities with equal weights, as far as the cash reaches. -/
def rebalance (view : SessionView) (session : ℤ) (pretrade : ℚ) (state : EquityState) :
    Except EquityError EquityState :=
  match view.selected with
  | none => .ok state
  | some (decision, selected) => do
      let budget ← quotient pretrade selected.length
      let (desired, hits) ← selected.foldlM (desire view budget) ([], state.labelHits)
      let targets := desired.map Prod.fst
      let hit := { state with labelHits := hits }
      let sold ← (unionIds hit.openIds targets).foldlM
        (sellDown calendar view session decision desired) hit
      (sortedIds targets).foldlM (buyUp calendar view session decision desired) sold

def closeDelisted (master : List SecurityMasterRecord) (view : SessionView) (session : ℤ)
    (state : EquityState) (securityId : String) : Except EquityError EquityState := do
  let record ← orRaise (.keyError securityId)
    (master.find? fun record => record.securityId = securityId)
  if record.listingEnd ≠ some session then return state
  else
    let bar ← orRaise (.missingDelistingBar securityId session) (view.bar securityId)
    let (minted, fill) ← mint state securityId .sell (state.ledger.quantity securityId)
      bar.closePrice.value bar.session (calendar.sessionClose bar.session) true "delisting"
    let settled ← settle minted fill
    return { settled with openIds := settled.openIds.erase securityId }

/-! ## One session -/

/-- The return and the turnover of a session, before they are made floats. -/
structure SessionRow where
  session : ℤ
  sessionReturn : ℚ
  turnover : ℚ

def runSession (master : List SecurityMasterRecord) (view : ℤ → SessionView) (session : ℤ)
    (state : EquityState) : Except EquityError (EquityState × SessionRow) := do
  let converted ← (view session).actions.foldlM (applyAction calendar (view session) session) state
  let pretrade ← equity (view session) session BarRecord.openPrice converted
  Checked.refuse (pretrade ≤ 0) (.nonPositiveEquity session pretrade)
  let traded ← rebalance calendar (view session) session pretrade
    { converted with tradedNotional := 0 }
  let closed ← (sortedIds traded.openIds).foldlM
    (closeDelisted calendar master (view session) session) traded
  let value ← equity (view session) session BarRecord.closePrice closed
  let growth ← quotient value closed.previousEquity
  let turnover ← quotient closed.tradedNotional pretrade
  let _ ← closed.ledger.assertConservation.mapError EquityError.ledger
  return ({ closed with previousEquity := value }, ⟨session, sub growth 1, turnover⟩)

/-! ## The inputs of a run -/

def checkBar (seen : List (String × ℤ)) (bar : BarRecord) :
    Except EquityError (List (String × ℤ)) := do
  Checked.refuse ((bar.securityId, bar.session) ∈ seen) (.duplicateBar bar.securityId bar.session)
  Checked.refuse (bar.source ≠ datasetProvenance) .foreignSource
  return seen ++ [(bar.securityId, bar.session)]

def checkMaster (seen : List String) (record : SecurityMasterRecord) :
    Except EquityError (List String) := do
  Checked.refuse (record.securityId ∈ seen) (.duplicateMasterRecord record.securityId)
  return seen ++ [record.securityId]

def checkSnapshot (snapshots : List String) (action : CorporateActionRecord) :
    Except EquityError Unit :=
  Checked.refuse (snapshots ≠ [] ∧ action.snapshotId ∉ snapshots)
    (.foreignSnapshot action.snapshotId)

def isFinite (signal : BacktestSignal) : Bool :=
  signal.score.isFinite && signal.label.all Number.isFinite

def checkSignal (master : List String) (seen : List (ℤ × String)) (signal : BacktestSignal) :
    Except EquityError (List (ℤ × String)) := do
  let key := (signal.decisionSession, signal.securityId)
  Checked.refuse (key ∈ seen) (.duplicateSignal signal.decisionSession signal.securityId)
  Checked.refuse (isFinite signal = false)
    (.nonFiniteSignal signal.decisionSession signal.securityId)
  Checked.refuse (signal.securityId ∉ master) (.missingFromMaster signal.securityId)
  return seen ++ [key]

/-- Everything that is checked of the records. -/
def checkInput (input : EquityInput) : Except EquityError Unit := do
  let _ ← input.bars.foldlM checkBar []
  let snapshots := (input.bars.map BarRecord.snapshotId).dedup
  Checked.refuse (1 < snapshots.length) .manySnapshots
  let master ← input.master.foldlM checkMaster []
  input.actions.forM (checkSnapshot snapshots)
  let _ ← input.signals.foldlM (checkSignal master) []
  Checked.refuse (input.signals = []) .noSignals

def scoreValue : Number → ℚ
  | .finite value => value
  | .infinity _ | .nan => 0

/-- The top fifth of the signals of one decision, at least one of them. -/
def topQuintile (rows : List BacktestSignal) : List BacktestSignal :=
  (sortedBy (fun row => toLex (-scoreValue row.score, row.securityId.toList)) rows).take
    (max 1 ((rows.length + 4) / 5))

/-- The sessions on which signals are executed, with their decisions. -/
def schedule (signals : List BacktestSignal) : Except EquityError (List (ℤ × ℤ)) :=
  (firstSeen (signals.map BacktestSignal.decisionSession)).mapM fun decision => do
    let execution ← orRaise .notASession (calendar.nthAfter decision 1)
    return (execution, decision)

/-- The decision that is executed on a session. -/
def scheduledDecision (scheduled : List (ℤ × ℤ)) (session : ℤ) : Option ℤ :=
  (scheduled.reverse.find? fun entry => entry.1 = session).map Prod.snd

def sessionView (input : EquityInput) (scheduled : List (ℤ × ℤ)) (session : ℤ) : SessionView where
  bar securityId := input.bars.find? fun bar => bar.securityId = securityId ∧ bar.session = session
  actions :=
    sortedBy (fun action => toLex (action.securityId.toList, action.sourceRecordId.toList))
      (input.actions.filter fun action => action.effectiveSession = session)
  selected := (scheduledDecision scheduled session).map fun decision =>
    (decision, topQuintile (input.signals.filter fun signal => signal.decisionSession = decision))

/-- The sessions from the first execution to the last. -/
def runSessionsOf (first terminal : ℤ) : List ℤ :=
  calendar.sessions.filter fun session =>
    calendar.sessions.idxOf first ≤ calendar.sessions.idxOf session ∧
      calendar.sessions.idxOf session ≤ calendar.sessions.idxOf terminal

/-- The first execution and the end of a run. -/
def runBounds (input : EquityInput) (scheduled : List (ℤ × ℤ)) : Except EquityError (ℤ × ℤ) := do
  let first ← orRaise .noSignals (scheduled.map Prod.fst).min?
  let latest ← orRaise .noSignals (scheduled.map Prod.fst).max?
  let terminal := input.endSession.getD latest
  let terminalAt ← orRaise .notASession (calendar.position terminal)
  let firstAt ← orRaise .notASession (calendar.position first)
  Checked.refuse (terminalAt < firstAt) .endBeforeFirst
  return (first, terminal)

end Session

/-! ## The run -/

/-- The floats, and the summary of a run. -/
structure Statistics (Real Summary : Type) where
  float : ℚ → Real
  backtestSummary : List Real → List Real → List Bool → Except EquityError Summary

structure EquityBacktestResult (Real Summary : Type) where
  summary : Summary
  sessions : List ℤ
  returns : List Real
  turnovers : List Real
  labelHits : List Bool
  fills : List Fill
  positions : List (String × ℕ)
  terminalCash : ℚ
  terminalMarketValue : ℚ
  terminalEquity : ℚ
  /-- The book after every fill. -/
  books : List LedgerBook
  /-- The ratio conversions that were made. -/
  conversions : List RatioConversion

def runEquityBacktest {Real Summary : Type} (statistics : Statistics Real Summary)
    (calendar : TradingCalendar) (input : EquityInput) :
    Except EquityError (EquityBacktestResult Real Summary) := do
  checkInput input
  let scheduled ← schedule calendar input.signals
  let (first, terminal) ← runBounds calendar input scheduled
  let sessions := runSessionsOf calendar first terminal
  let view := sessionView input scheduled
  let (state, rows) ← runSessions (runSession calendar input.master view) sessions
    (.start input.initialCash)
  let terminalMarketValue ← marketValue (view terminal) terminal BarRecord.closePrice state
  let terminalEquity ← roundFees (add state.ledger.cash terminalMarketValue)
  let returns := rows.map fun row => statistics.float row.sessionReturn
  let turnovers := rows.map fun row => statistics.float row.turnover
  let summary ← statistics.backtestSummary returns turnovers state.labelHits
  return {
    summary := summary
    sessions := sessions
    returns := returns
    turnovers := turnovers
    labelHits := state.labelHits
    fills := state.fills
    positions := (sortedIds state.openIds).map fun securityId =>
      (securityId, state.ledger.quantity securityId)
    terminalCash := state.ledger.cash
    terminalMarketValue := terminalMarketValue
    terminalEquity := terminalEquity
    books := state.books
    conversions := state.conversions }

end TreeOptions.Backtest
