import Mathlib.Algebra.Order.Field.Rat
import Mathlib.Data.Char
import Mathlib.Data.List.Lex
import TreeOptions.Foundations.Grouping

/-!
# The evidence of an option chain

A chain may become the record of a session only when all evidence in it points at that session:
when its underlying and its options last traded, when the vendor stamped it, and whether it looks
complete. What else is published is not yet this session (`stale`, `incomplete`: fetch again) or no
longer this session (`missing`).
-/

set_option autoImplicit false

namespace TreeOptions.ChainStore

/-- The settled snapshot of a session, the one of its evening, or the one at a clock. -/
inductive Tier
  | eod
  | evening
  | at (hour minute : ℕ)
deriving DecidableEq

inductive Status
  | ok
  | existed
  | conflict
  | stale
  | incomplete
  | missing
  | invalid
  | error
deriving DecidableEq

/-- The statuses of a symbol that has a recorded chain. -/
def Status.recorded (status : Status) : Bool :=
  status = .ok || status = .existed || status = .conflict

/-- The statuses that leave a line in the list of gaps. -/
def Status.isGap (status : Status) : Bool :=
  status = .missing || status = .invalid || status = .error || status = .conflict

/-- A stamp with its date in New York and its instant in seconds. -/
structure TradeTime where
  day : ℤ
  instant : ℤ

inductive Right
  | call
  | put
deriving DecidableEq

/-- The columns of an option row that are checked. -/
structure OptionRow where
  right : Right
  expiry : ℤ
  bid : Option ℚ
  lastTime : Option TradeTime

structure ParsedChain where
  underlying : String
  sourceAsOf : ℤ
  lastTradeTime : Option TradeTime
  rows : List OptionRow
  skipped : ℕ

inductive Detail
  | none
  | noLastTrade
  | tradedBefore (last session : ℤ)
  | movedPast (session last : ℤ)
  | predatesClock (asOf : ℤ) (hour minute : ℕ)
  | pastWindow (asOf : ℤ) (hour minute : ℕ)
  | optionsAfter (session last : ℤ)
  | mostlyBefore (last session : ℤ)
  | beforeSessionClose (asOf session cutoff : ℤ)
  | beforeOptionsClose (asOf session cutoff : ℤ)
  | predatesSettle (last close : ℤ)
  | noRows
  | fewContracts (right : Right) (count : ℕ)
  | fewBids (bids rows : ℕ)
  | fewExpiries (bids expiries : ℕ)
  | unreadable
  | fetchFailed
  | notAChain (reason : String)
  | repairFetchFailed
  | recheckFetchFailed
  | writeFailed
  | dryRun
  | repaired
  | identical
  | recheckPayload (status : Status) (lost : Bool)
  | differs (known : String) (lost : Bool)
  | neverRecorded (last : Status)
  | noRun
deriving DecidableEq

structure Verdict where
  status : Status
  detail : Detail
  payloadSession : Option ℤ

/-- When a session closes, when a clock is on it, and the classes whose options stop trading at
the close. -/
structure SessionTimes where
  close : ℤ → ℤ
  clockInstant : ℤ → ℕ → ℕ → ℤ
  regularClose : List String

def clockWindow : ℤ := 600

def lateClose : ℤ := 15 * 60

def closeTolerance : ℤ := 5 * 60

def minPerRight : ℕ := 10

def minBidFraction : ℚ := 1 / 2

def minExpiryBidFraction : ℚ := 1 / 2

def ParsedChain.n (chain : ParsedChain) : ℕ :=
  chain.rows.length

/-- The dates of the rows' last trades. -/
def ParsedChain.tradeDays (chain : ParsedChain) : List ℤ :=
  chain.rows.filterMap fun row => row.lastTime.map TradeTime.day

def underlyingSession (chain : ParsedChain) : Option ℤ :=
  chain.lastTradeTime.map TradeTime.day

/-- The more frequent of two dates, or the later one. -/
def laterMode (days : List ℤ) (first second : ℤ) : ℤ :=
  if days.count first < days.count second ∨ (days.count first = days.count second ∧ first ≤ second)
  then second else first

/-- The modal date of the rows' last trades, and else the date of the underlying's. -/
def payloadSession (chain : ParsedChain) : Option ℤ :=
  match chain.tradeDays with
  | [] => underlyingSession chain
  | day :: days => some (days.foldl (laterMode (day :: days)) day)

def hasBid (row : OptionRow) : Bool :=
  row.bid.any fun bid => 0 < bid

/-- Why the chain may be a part of one, or nothing. -/
def completeness (chain : ParsedChain) : Detail :=
  let count right := chain.rows.countP fun row => row.right = right
  let bids := chain.rows.countP hasBid
  let expiries := (chain.rows.map OptionRow.expiry).dedup.length
  let withBid := ((chain.rows.filter hasBid).map OptionRow.expiry).dedup.length
  if count .call < minPerRight then .fewContracts .call (count .call)
  else if count .put < minPerRight then .fewContracts .put (count .put)
  else if (bids : ℚ) / chain.n < minBidFraction then .fewBids bids chain.n
  else if (withBid : ℚ) / expiries < minExpiryBidFraction then .fewExpiries withBid expiries
  else .none

/-- Only a class listed for the regular close, with no option printed after it, has it. -/
def hasLateClose (times : SessionTimes) (chain : ParsedChain) (close : ℤ) : Bool :=
  if chain.underlying ∈ times.regularClose then
    chain.rows.any fun row => row.lastTime.any fun last => close < last.instant
  else true

def optionsClose (close : ℤ) (late : Bool) : ℤ :=
  if late then close + lateClose else close

def completeVerdict (chain : ParsedChain) (last : ℤ) : Verdict :=
  if chain.n = 0 then ⟨.incomplete, .noRows, some last⟩
  else if completeness chain = .none then ⟨.ok, .none, some last⟩
  else ⟨.incomplete, completeness chain, some last⟩

/-- Fresh for its clock: stamped within the window of it. -/
def validateAtClock (times : SessionTimes) (chain : ParsedChain) (session : ℤ) (hour minute : ℕ)
    (last : ℤ) : Verdict :=
  let instant := times.clockInstant session hour minute
  if chain.sourceAsOf < instant then
    ⟨.stale, .predatesClock chain.sourceAsOf hour minute, some last⟩
  else if instant + clockWindow ≤ chain.sourceAsOf then
    ⟨.stale, .pastWindow chain.sourceAsOf hour minute, some last⟩
  else completeVerdict chain last

/-- Settled: stamped after the close, by an underlying that traded until the close. -/
def validateSettled (times : SessionTimes) (chain : ParsedChain) (session : ℤ) (tier : Tier)
    (trade : TradeTime) : Verdict :=
  let later := chain.tradeDays.filter fun day => trade.day < day
  match later.max?, payloadSession chain with
  | some day, _ => ⟨.missing, .optionsAfter session day, some trade.day⟩
  | none, payload =>
    if payload.any fun day => day < session then
      ⟨.stale, .mostlyBefore (payload.getD session) session, payload⟩
    else
      let close := times.close session
      let cutoff :=
        if tier = .evening then close else optionsClose close (hasLateClose times chain close)
      if chain.sourceAsOf < cutoff then
        ⟨.stale,
          if tier = .evening then .beforeSessionClose chain.sourceAsOf session cutoff
          else .beforeOptionsClose chain.sourceAsOf session cutoff,
          some trade.day⟩
      else if trade.instant < close - closeTolerance then
        ⟨.stale, .predatesSettle trade.instant close, some trade.day⟩
      else completeVerdict chain trade.day

/-- Every piece of evidence must point at the session, and the chain must look complete. -/
def validate (times : SessionTimes) (chain : ParsedChain) (session : ℤ) (tier : Tier) : Verdict :=
  match chain.lastTradeTime with
  | none => ⟨.invalid, .noLastTrade, none⟩
  | some trade =>
    if trade.day < session then ⟨.stale, .tradedBefore trade.day session, some trade.day⟩
    else if session < trade.day then
      ⟨.missing, .movedPast session trade.day, some trade.day⟩
    else
      match tier with
      | .at hour minute => validateAtClock times chain session hour minute trade.day
      | _ => validateSettled times chain session tier trade

end TreeOptions.ChainStore
