import TreeOptions.Backtest.Equity
import TreeOptions.Foundations.Dates
import TreeOptions.Guards.FillEngine

/-!
# Records of the options backtest

The contracts, signals, bars and actions that a run is given, its calendars, and the surface that
it asks for quotes. A surface is whatever the caller passes: it answers queries as of an instant,
and it knows the contracts and the strikes of an expiry.

The sessions of a calendar open at 09:30 and close at 16:00 of the exchange's clock, or at 13:00 on
early closes. So 10:00 comes no later than the close, the close no later than 23:00 UTC of the date,
and that before the open of a later date.

Identifiers were checked when the records were built. Floats are whatever the statistics make of the
decimals that they are computed from.
-/

set_option autoImplicit false

namespace TreeOptions.Options

open Backtest Decimal Ledger

/-! ## Errors -/

/-- Whatever is raised beside the ledger. -/
inductive StrategyError where
  | crossWorld (world snapshot : Option String)
  | noSignals
  | duplicateSignal (decisionSession : ℤ) (securityId : String)
  | nonFiniteSignal (decisionSession : ℤ) (securityId : String)
  | endBeforeFirst
  | missingSettlementBar (underlyingId : String) (session : ℤ)
  | notASession
  | noOptionFile (underlyingId : String) (asOf : ℤ)
  | unknown (name : String)
  | keyError (contractId : String)
  | indexError
  | settlementMint (contractId : String)
  | decisionSessionsDiffer
  | validation (field : String)
  | invalidOperation
  | divisionByZero
  | overflow
  | engine (error : Guards.EngineError)
  | statistics

/-- Whatever a run raises. -/
inductive OptionsError where
  | strategy (error : StrategyError)
  | ledger (error : LedgerError)

/-- A step that does not touch the ledger, as a step of a run. -/
def lift {Value : Type} (step : Except StrategyError Value) : Except OptionsError Value :=
  step.mapError OptionsError.strategy

theorem lift_eq_ok {Value : Type} {step : Except StrategyError Value} {value : Value} :
    lift step = .ok value ↔ step = .ok value :=
  Checked.mapError_eq_ok

def orRaise {Value : Type} (error : StrategyError) : Option Value → Except StrategyError Value
  | some value => .ok value
  | none => .error error

theorem orRaise_eq_ok {Value : Type} {error : StrategyError} {value? : Option Value}
    {value : Value} : orRaise error value? = .ok value ↔ value? = some value := by
  cases value? with
  | none => simp [orRaise]
  | some other => simp [orRaise]

/-! ## Calendars -/

structure MarketCalendar extends TradingCalendar where
  window_le_close : ∀ session ∈ sessions,
    sessionOpen session + 1800 * microseconds ≤ sessionClose session
  close_le_wall : ∀ session ∈ sessions, sessionClose session ≤ hourOf session 23
  wall_lt_open : ∀ date, ∀ session ∈ sessions, date < session →
    hourOf date 23 < sessionOpen session

namespace MarketCalendar

variable (calendar : MarketCalendar)

/-- The position of a session. A date that is no session raises. -/
def ordinal (session : ℤ) : Except StrategyError ℕ :=
  orRaise .notASession (calendar.position session)

/-- The session some positions after another. Behind the last one there is none. -/
def nthAfter (session : ℤ) (n : ℕ) : Except StrategyError ℤ :=
  orRaise .notASession (calendar.toTradingCalendar.nthAfter session n)

def openOf (session : ℤ) : Except StrategyError ℤ := do
  let _ ← calendar.ordinal session
  return calendar.sessionOpen session

def closeOf (session : ℤ) : Except StrategyError ℤ := do
  let _ ← calendar.ordinal session
  return calendar.sessionClose session

/-- `calendar.sessions()[calendar.ordinal(session) - 1]`: before the first session comes the last
of the list. -/
def previousSession (session : ℤ) : Except StrategyError ℤ := do
  let position ← calendar.ordinal session
  orRaise .indexError
    (if position = 0 then calendar.sessions.getLast? else calendar.sessions[position - 1]?)

/-- A calendar as the fill engine uses it. -/
def forEngine : Guards.SessionCalendar where
  isSession session := session ∈ calendar.sessions
  ordinal session :=
    Guards.orRaise (.notASession session) ((calendar.position session).map Int.ofNat)
  sessionClose session :=
    Guards.orRaise (.notASession session)
      ((calendar.position session).map fun _ => calendar.sessionClose session)
  containsInstant session instant :=
    Guards.orRaise (.notASession session) ((calendar.position session).map fun _ =>
      decide (calendar.sessionOpen session ≤ instant ∧ instant ≤ calendar.sessionClose session))

end MarketCalendar

/-! ## Bars, actions and signals -/

/-- A bar with the instant at which it was published. -/
structure PublishedBar extends BarRecord where
  sourceRecordId : String
  availableAt : ℤ

/-- An action with the instant at which it was announced. -/
structure PublishedAction extends CorporateActionRecord where
  availableAt : ℤ

/-- A score of an underlying at one decision. -/
abbrev OptionSignal :=
  BacktestSignal

/-! ## Contracts -/

inductive ExerciseStyle where
  | american
  | european
  deriving DecidableEq

structure OptionContract extends Guards.OptionContract where
  underlyingSecurityId : String
  strike : Price
  callPut : CallPut
  exerciseStyle : ExerciseStyle

def callPutText : CallPut → String
  | .call => "C"
  | .put => "P"

/-- The name of a contract. -/
def contractIdOf (underlyingId : String) (expiration : ℤ) (callPut : CallPut) (strike : ℚ) :
    String :=
  "OPT-" ++ underlyingId ++ "-" ++ shortDate expiration ++ "-" ++ callPutText callPut ++ "-" ++
    digits 8 (mul strike 100).floor.toNat

/-- What a file says of a contract at the end of a day. -/
structure ChainEntry where
  bid : ℚ
  ask : ℚ
  absDelta : ℚ

/-! ## The surface and the filter -/

/-- What option data is read through. Queries as of an instant see the files published by then. -/
structure OptionSurface (Snapshot : Type) where
  snapshotId : Option String
  decisionCalendar : MarketCalendar
  visibleFileSession : String → ℤ → Option ℤ
  entryAsOf : String → ℤ → String → Except StrategyError (Option ChainEntry)
  liveExpiriesAsOf : String → ℤ → List ℤ
  strikeLadder : String → ℤ → Except StrategyError (List ℚ)
  visibleQuotesAsOf : String → ℤ → List Guards.Quote
  contract : String → Except StrategyError OptionContract
  candidateSnapshot : OptionContract → ℤ → Except StrategyError Snapshot
  eligibleAsOf : ℤ → List String
  spotMidAsOf : String → ℤ → Except StrategyError ℚ

/-- The instant at which the decision of a session is made. -/
def OptionSurface.decisionClose {Snapshot : Type} (surface : OptionSurface Snapshot)
    (session : ℤ) : Except StrategyError ℤ :=
  surface.decisionCalendar.closeOf session

inductive RuleStatus where
  | pass
  | fail
  | notEvaluable
  | notApplicable
  deriving DecidableEq

structure RuleResult where
  rule : String
  status : RuleStatus

/-- The decision of a candidate filter, with the outcome of each of its rules. -/
structure CandidateDecision where
  accepted : Bool
  results : List RuleResult

/-! ## Fees -/

structure PerContractFeeModel where
  feePerContract : ℚ
  minimumPerOrder : ℚ
  feePerContract_nonneg : 0 ≤ feePerContract
  minimumPerOrder_nonneg : 0 ≤ minimumPerOrder

def PerContractFeeModel.orderFees (model : PerContractFeeModel) : Guards.FeeModel :=
  fun quantity => do
    Checked.refuse (quantity < 1) (.valueError "quantity must be >= 1")
    Guards.priceTick (max (mul model.feePerContract quantity) model.minimumPerOrder)

/-! ## Configuration -/

structure OptionsStrategyConfig where
  targetAbsDelta : ℚ
  absDeltaMin : ℚ
  absDeltaMax : ℚ
  targetDte : ℤ
  dteMin : ℤ
  dteMax : ℤ
  premiumBudgetFraction : ℚ
  maxContractsPerCandidate : ℕ
  exitSessionsAfterEntry : ℕ
  allowCancellation : Bool
  allowForceClose : Bool
  fraction : 0 < premiumBudgetFraction ∧ premiumBudgetFraction ≤ 1
  contracts_pos : 1 ≤ maxContractsPerCandidate
  exit_pos : 1 ≤ exitSessionsAfterEntry
  deltas : 0 < absDeltaMin ∧ absDeltaMin ≤ targetAbsDelta ∧ targetAbsDelta ≤ absDeltaMax ∧
    absDeltaMax < 1
  dtes : 0 < dteMin ∧ dteMin ≤ targetDte ∧ targetDte ≤ dteMax

/-- Sell some sessions after the entry, or hold to the end of the contract. -/
inductive Arm where
  | a
  | b

end TreeOptions.Options
