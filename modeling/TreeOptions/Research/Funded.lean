import TreeOptions.Backtest.FeeModel
import TreeOptions.Foundations.Grouping
import TreeOptions.Foundations.Instant
import TreeOptions.Foundations.Sessions
import TreeOptions.Ledger.Figures
import Mathlib.Data.Char
import Mathlib.Data.List.Lex
import Mathlib.Data.Prod.Lex

/-!
# The funded account

The executions, marks and cashflows of one candidate are replayed over a declared calendar.
Executions must lie on its sessions. Cashflows and marks are moved to a session: one before
the first session to the first, one after the last session to the last, and any other to the
next session (`clampToSession`). Each session applies its flows, then its executions, then
its marks, and then values the account.

A run that would overdraw the account, sell what is not held, or trade on another day is
refused and has no rows. Dates are numbers of days since the epoch. Amounts are finite, in
the default context of the source's decimals.
-/

set_option autoImplicit false

namespace TreeOptions.Research

open Backtest Decimal Ledger

/-! ## Evidence -/

/-- A capital injection, or a withdrawal when it is negative. -/
structure CashflowEvent where
  date : ℤ
  amount : ℚ

/-- One execution: bought when the quantity is positive, sold when it is negative. Without
fees of its own the fee model prices it. -/
structure TradeExecution where
  date : ℤ
  symbol : String
  signedQuantity : ℤ
  price : ℚ
  fees : Option ℚ

structure MarkObservation where
  date : ℤ
  symbol : String
  price : ℚ

structure Evidence where
  executions : List TradeExecution
  marks : List MarkObservation
  cashflows : List CashflowEvent

/-! ## Results -/

structure FundedRow where
  date : ℤ
  cash : ℚ
  inventory : List (String × ℕ)
  markedValue : Option ℚ
  nav : Option ℚ
  contributionsCum : ℚ
  withdrawalsCum : ℚ
  feesCum : ℚ
  realizedPnlCum : ℚ
  investmentGain : Option ℚ
  missingMarkSymbols : List String

/-- Why a run is refused, with what its detail names. -/
inductive Refusal where
  | insufficientCash (session : ℤ) (execution : TradeExecution) (fees needed affordable : ℚ)
  | insufficientCashForFlow (session : ℤ) (amount prospectiveCash : ℚ)
  | positionUnderflow (violation : LedgerViolation)
  | offCalendar (execution : TradeExecution)
  | invalidExecution (amount : ℚ)

def Refusal.code : Refusal → String
  | .insufficientCash .. => "research.funded.insufficient_cash"
  | .insufficientCashForFlow .. => "research.funded.insufficient_cash_for_flow"
  | .positionUnderflow _ => "research.funded.position_underflow"
  | .offCalendar _ => "research.funded.execution_off_calendar"
  | .invalidExecution _ => "research.funded.invalid_execution"

structure FundedRun where
  candidateId : String
  rows : List FundedRow
  ledger : LedgerBook
  finalNav : Option ℚ
  totalFees : ℚ
  refusal : Option Refusal

/-- What is raised out of a run. -/
inductive FundedError where
  | invalidOperation
  | valueError
  | overflow
  | invalidFill
  | ledger (error : LedgerError)

/-- How a replay ends early. -/
inductive Stop where
  | refused (refusal : Refusal) (book : LedgerBook)
  | raised (error : FundedError)

/-! ## Fills -/

/-- The characters that a validated identifier has stripped from its ends. -/
def isWhiteSpace (c : Char) : Bool :=
  (9 ≤ c.toNat && c.toNat ≤ 13) || (0x2000 ≤ c.toNat && c.toNat ≤ 0x200a) ||
    c.toNat ∈ [0x20, 0x85, 0xa0, 0x1680, 0x2028, 0x2029, 0x202f, 0x205f, 0x3000]

/-- An identifier, stripped. An empty one is refused. -/
def idStr? (text : String) : Option String :=
  let stripped := ((text.toList.dropWhile isWhiteSpace).reverse.dropWhile isWhiteSpace).reverse
  if stripped = [] then none else some (String.ofList stripped)

def sixDigits (number : ℕ) : String :=
  String.ofList ((Nat.toDigits 10 number).leftpad 6 '0')

/-- A fill as its schema checks it. -/
def fill? (candidateId symbol : String) (number : ℕ) (side : Side) (quantity : ℕ) (price fees : ℚ)
    (executionAt session : ℤ) : Option Fill := do
  let fillId ← idStr? (candidateId ++ "-F" ++ sixDigits number)
  let orderId ← idStr? (candidateId ++ "-O" ++ sixDigits number)
  let contractId ← idStr? symbol
  Fill.mint? fillId orderId contractId side quantity price 1 fees executionAt session

/-- Microseconds from midnight to 21:00. -/
def twentyOne : ℤ :=
  75600 * microseconds

/-- The instant of an execution: whole seconds after 21:00 of its session. -/
def utcExecutionAt (day : ℤ) (number : ℕ) : Except Stop ℤ :=
  match shiftInstant (day * 86400 * microseconds + twentyOne) number with
  | some instant => .ok instant
  | none => .error (.raised .overflow)

/-! ## Fees and amounts -/

/-- `quantize(Decimal("0.01"))`. -/
def roundCents (amount : ℚ) : Except Stop ℚ :=
  match quantizeCents roundHalfEven amount with
  | some rounded => .ok rounded
  | none => .error (.raised .invalidOperation)

def sum (amounts : List ℚ) : ℚ :=
  amounts.foldl add 0

/-- The fees of the declared model. -/
def modelFees (model : FeeModel) (price : ℚ) (quantity : ℕ) : Except Stop ℚ :=
  match model.orderFees price quantity with
  | .ok fees => .ok fees
  | .error .valueError => .error (.raised .valueError)
  | .error .invalidOperation => .error (.raised .invalidOperation)

/-- The fees of an execution: its own, those of the declared model, or none. -/
def executionFees (feeModel : Option FeeModel) (execution : TradeExecution) (quantity : ℕ) :
    Except Stop ℚ :=
  match execution.fees with
  | some fees => .ok fees
  | none =>
    match feeModel with
    | some model => modelFees model execution.price quantity
    | none => .ok 0

/-! ## The state of a replay -/

structure FundedState where
  book : LedgerBook
  contributionsCum : ℚ
  withdrawalsCum : ℚ
  realizedSymbols : List String
  touchedSymbols : List String
  lastMark : String → Option ℚ
  fillSeq : ℕ

namespace FundedState

def start (book : LedgerBook) : FundedState where
  book := book
  contributionsCum := 0
  withdrawalsCum := 0
  realizedSymbols := []
  touchedSymbols := []
  lastMark _ := none
  fillSeq := 0

/-- The cash of the account: what was traded and what flowed. -/
def cash (state : FundedState) : ℚ :=
  sub (add state.book.cash state.contributionsCum) state.withdrawalsCum

/-- Add to a set that is kept as a list. -/
def note (symbols : List String) (symbol : String) : List String :=
  if symbol ∈ symbols then symbols else symbols ++ [symbol]

/-- What is held of the symbols that were traded, in the order of the symbols. -/
def held (state : FundedState) : List (String × ℕ) :=
  ((sortedBy String.toList state.touchedSymbols).map fun symbol =>
    (symbol, state.book.quantity symbol)).filter fun holding => holding.2 ≠ 0

end FundedState

/-! ## One session -/

/-- What applies on one session. -/
structure SessionEvents where
  flows : List ℚ
  executions : List TradeExecution
  marks : List MarkObservation

/-- A flow is a contribution or a withdrawal. -/
def addFlow (state : FundedState) (amount : ℚ) : FundedState :=
  if 0 ≤ amount then
    { state with contributionsCum := add state.contributionsCum amount }
  else
    { state with withdrawalsCum := add state.withdrawalsCum (roundContext (-amount)) }

def applyFlow (session : ℤ) (state : FundedState) (amount : ℚ) : Except Stop FundedState :=
  if (addFlow state amount).cash < 0 then
    .error (.refused (.insufficientCashForFlow session amount (addFlow state amount).cash)
      state.book)
  else .ok (addFlow state amount)

/-- A purchase that the account cannot cover is refused. -/
def checkAffordable (session : ℤ) (state : FundedState) (execution : TradeExecution)
    (notional fees : ℚ) : Except Stop Unit :=
  Checked.refuse (0 < execution.signedQuantity ∧ state.cash < add notional fees)
    (.refused (.insufficientCash session execution fees (add notional fees) state.cash) state.book)

/-- Apply a fill to the book. What its schema or the book refuses is a refusal of the run. -/
def applyToBook (book : LedgerBook) (fill : Fill) : Except Stop LedgerBook :=
  match (Ledger.apply fill).run book with
  | .ok _ next => .ok next
  | .error (.violation violation) left => .error (.refused (.positionUnderflow violation) left)
  | .error (.validation amount) left => .error (.refused (.invalidExecution amount) left)
  | .error .indexError _ => .error (.raised (.ledger .indexError))

def applyExecution (candidateId : String) (feeModel : Option FeeModel) (session : ℤ)
    (state : FundedState) (execution : TradeExecution) : Except Stop FundedState :=
  let quantity := execution.signedQuantity.natAbs
  if quantity = 0 then .ok state
  else do
    let notional ← roundCents (mul execution.price quantity)
    let fees ← executionFees feeModel execution quantity
    checkAffordable session state execution notional fees
    let side := if 0 < execution.signedQuantity then Side.buy else Side.sell
    let executionAt ← utcExecutionAt session (state.fillSeq + 1)
    match fill? candidateId execution.symbol (state.fillSeq + 1) side quantity execution.price fees
        executionAt session with
    | none => .error (.raised .invalidFill)
    | some fill => do
        let book ← applyToBook state.book fill
        return { state with
          book := book
          touchedSymbols := FundedState.note state.touchedSymbols execution.symbol
          realizedSymbols :=
            if side = .sell then FundedState.note state.realizedSymbols execution.symbol
            else state.realizedSymbols
          fillSeq := state.fillSeq + 1 }

def applyMark (state : FundedState) (mark : MarkObservation) : FundedState :=
  { state with lastMark := Function.update state.lastMark mark.symbol (some mark.price) }

/-- The marked value, the value of the account and what it gained, unless a holding has no
mark. -/
def valueAccount (startingCapital : ℚ) (state : FundedState) :
    Except Stop (Option (ℚ × ℚ × ℚ)) :=
  if state.held.any fun holding => (state.lastMark holding.1).isNone then .ok none
  else do
    let marked ← roundCents (sum (state.held.map fun holding =>
      mul ((state.lastMark holding.1).getD 0) holding.2))
    let nav ← roundCents (add state.cash marked)
    let gain ← roundCents
      (add (sub (sub nav startingCapital) state.contributionsCum) state.withdrawalsCum)
    return some (marked, nav, gain)

def fundedRow (startingCapital : ℚ) (session : ℤ) (state : FundedState) :
    Except Stop FundedRow := do
  let valued ← valueAccount startingCapital state
  let cash ← roundCents state.cash
  let contributions ← roundCents state.contributionsCum
  let withdrawals ← roundCents state.withdrawalsCum
  let fees ← roundCents state.book.totalFees
  let realized ← roundCents (sum ((sortedBy String.toList state.realizedSymbols).map
    state.book.realized.get))
  return {
    date := session
    cash := cash
    inventory := state.held
    markedValue := valued.map fun value => value.1
    nav := valued.map fun value => value.2.1
    contributionsCum := contributions
    withdrawalsCum := withdrawals
    feesCum := fees
    realizedPnlCum := realized
    investmentGain := valued.map fun value => value.2.2
    missingMarkSymbols :=
      (state.held.filter fun holding => (state.lastMark holding.1).isNone).map Prod.fst }

def replaySession (candidateId : String) (feeModel : Option FeeModel) (startingCapital : ℚ)
    (events : ℤ → SessionEvents) (session : ℤ) (state : FundedState) :
    Except Stop (FundedState × FundedRow) := do
  let flowed ← (events session).flows.foldlM (applyFlow session) state
  let traded ← (events session).executions.foldlM
    (applyExecution candidateId feeModel session) flowed
  let marked := (events session).marks.foldl applyMark traded
  let row ← fundedRow startingCapital session marked
  return (marked, row)

/-! ## The run -/

/-- The sessions of a calendar, in their order. -/
def declaredSessions (calendar : List ℤ) : List ℤ :=
  sortedBy id calendar.dedup

/-- The session on which a flow or a mark applies. -/
def clampToSession (sessions : List ℤ) (first last date : ℤ) : ℤ :=
  if date ≤ first then first
  else if last ≤ date then last
  else (sessions.find? fun session => date ≤ session).getD last

/-- The events of each session, in the order in which they are applied. -/
def eventsBySession (sessions : List ℤ) (first last : ℤ) (evidence : Evidence) (session : ℤ) :
    SessionEvents where
  flows := ((sortedBy CashflowEvent.date evidence.cashflows).filter fun flow =>
    clampToSession sessions first last flow.date = session).map CashflowEvent.amount
  executions := evidence.executions.filter fun execution => execution.date = session
  marks := (sortedBy (fun mark => toLex (mark.date, mark.symbol.toList)) evidence.marks).filter
    fun mark => clampToSession sessions first last mark.date = session

/-- A run without rows. -/
def emptyRun (candidateId : String) (book : LedgerBook) (refusal : Option Refusal) : FundedRun where
  candidateId := candidateId
  rows := []
  ledger := book
  finalNav := none
  totalFees := book.totalFees
  refusal := refusal

def finish (candidateId : String) :
    Except Stop (FundedState × List FundedRow) → Except FundedError FundedRun
  | .error (.raised error) => .error error
  | .error (.refused refusal book) => .ok (emptyRun candidateId book (some refusal))
  | .ok (state, rows) =>
    match state.book.assertConservation with
    | .error error => .error (.ledger error)
    | .ok _ =>
      .ok {
        candidateId := candidateId
        rows := rows
        ledger := state.book
        finalNav := rows.getLast?.bind FundedRow.nav
        totalFees := state.book.totalFees
        refusal := none }

def runFundedAccount (candidateId : String) (startingCapital : ℚ) (calendar : List ℤ)
    (evidence : Evidence) (feeModel : Option FeeModel) : Except FundedError FundedRun :=
  let book := LedgerBook.new startingCapital
  let sessions := declaredSessions calendar
  match sessions.head?, sessions.getLast? with
  | some first, some last =>
    -- nothing was observed
    if evidence.executions = [] ∧ evidence.marks = [] ∧ evidence.cashflows = [] then
      .ok (emptyRun candidateId book none)
    else
      match evidence.executions.find? fun execution => execution.date ∉ sessions with
      | some execution => .ok (emptyRun candidateId book (some (.offCalendar execution)))
      | none =>
        finish candidateId (runSessions
          (replaySession candidateId feeModel startingCapital
            (eventsBySession sessions first last evidence)) sessions (.start book))
  | _, _ => .ok (emptyRun candidateId book none)

end TreeOptions.Research
