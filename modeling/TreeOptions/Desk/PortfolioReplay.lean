import Mathlib.Data.Char
import Mathlib.Data.List.Lex
import Mathlib.Data.Prod.Lex
import TreeOptions.Foundations.Checked
import TreeOptions.Foundations.DecimalContext
import TreeOptions.Foundations.Grouping
import TreeOptions.Foundations.IsoDate

/-!
# The portfolio scenario

Modeled rows of a historical replay are offered to an account in the order of their entry, each
variant of signal and structure on its own (`simulate`). A row that is admitted reserves its
greatest loss until a row is offered with an entry after its exit. Only then is its outcome added
to the closed capital, and the lowest closed capital is kept.
-/

set_option autoImplicit false

namespace TreeOptions.Desk

open Checked Decimal

/-! ## The document -/

/-- A value where an amount belongs. A number or a text is there with what `Decimal` reads in its
text. -/
inductive AmountField
  | boolean
  | text (read : Option Number)
  | other

structure ReplayRow where
  signal : String
  spread : String
  name : String
  decision : String
  entry : String
  exit : String
  expiry : String
  maxLoss : AmountField
  pnl : AmountField

/-- The key that a row is grouped by. -/
def ReplayRow.variant (row : ReplayRow) : String :=
  row.signal ++ "/" ++ row.spread

/-- The rows are taken in the order of these texts. -/
def ReplayRow.order (row : ReplayRow) :
    List Char ×ₗ List Char ×ₗ List Char ×ₗ List Char :=
  toLex (row.entry.toList, toLex (row.decision.toList, toLex (row.name.toList, row.expiry.toList)))

/-- A replay, with the variants that it declares. -/
structure ReplayDocument where
  schema : String
  byVariant : List String
  rows : List ReplayRow
  distinct : byVariant.Nodup

inductive ScenarioError
  | value (message : String)
  | isoformat (text : String)
deriving DecidableEq

/-! ## Reading -/

def amount (value : AmountField) (label : String) (positive : Bool) : Except ScenarioError ℚ :=
  match value with
  | .text (some (.finite result)) =>
    if result < 0 ∨ positive = true ∧ result = 0 then
      .error (.value (label ++ " must be finite and " ++
        if positive then "positive" else "non-negative"))
    else .ok result
  | .text (some _) =>
    .error (.value (label ++ " must be finite and " ++
      if positive then "positive" else "non-negative"))
  | .text none | .boolean | .other => .error (.value (label ++ " must be numeric"))

/-- A modeled outcome, which may be of either sign. -/
def outcomeAmount (value : AmountField) : Except ScenarioError ℚ :=
  match value with
  | .text (some (.finite result)) => .ok result
  | .text (some _) => .error (.value "pnl must be finite")
  | .text none | .boolean | .other => .error (.value "pnl must be numeric")

def readDate (text : String) : Except ScenarioError ℤ :=
  match dateFromIso text with
  | some date => .ok date
  | none => .error (.isoformat text)

/-- What is held of an admitted row. -/
structure Position where
  exit : ℤ
  loss : ℚ
  pnl : ℚ
deriving DecidableEq

/-- The order of Python's tuples. -/
def Position.order (position : Position) : ℤ ×ₗ ℚ ×ₗ ℚ :=
  toLex (position.exit, toLex (position.loss, position.pnl))

/-- A row as it is offered to the account. It exits after its entry. -/
structure Offer extends Position where
  label : String
  entry : ℤ
  later : entry < exit
deriving DecidableEq

def readRow (row : ReplayRow) : Except ScenarioError Offer := do
  let entry ← readDate row.entry
  let exit ← readDate row.exit
  if later : entry < exit then
    let loss ← amount row.maxLoss "max_loss" true
    let pnl ← outcomeAmount row.pnl
    refuse (loss < roundContext (-pnl))
      (.value "modeled loss exceeds declared worst-case loss")
    return ⟨⟨exit, loss, pnl⟩, row.decision ++ ":" ++ row.name, entry, later⟩
  else .error (.value "exit must follow entry")

structure RiskLimits where
  capital : ℚ
  maxTradeLoss : ℚ
  maxOpenLoss : ℚ
deriving DecidableEq

def readLimits (capital maxTradeLoss maxOpenLoss : AmountField) :
    Except ScenarioError RiskLimits := do
  let capital ← amount capital "capital" true
  let maxTradeLoss ← amount maxTradeLoss "max_trade_loss" true
  let maxOpenLoss ← amount maxOpenLoss "max_open_loss" true
  refuse (capital < maxOpenLoss ∨ maxOpenLoss < maxTradeLoss)
    (.value "invalid portfolio risk limits")
  return ⟨capital, maxTradeLoss, maxOpenLoss⟩

/-! ## The account -/

/-- What is decided of a row. -/
inductive Verdict
  | tradeCap
  | openCap
  | capital
  | admitted
deriving DecidableEq

structure Skipped where
  tradeCap : ℕ
  openCap : ℕ
  capital : ℕ
deriving DecidableEq

structure Scenario where
  active : List Position
  admitted : List String
  skipped : Skipped
  closedCash : ℚ
  lowClosedCash : ℚ
  peakReserved : ℚ

namespace Scenario

def start (capital : ℚ) : Scenario :=
  ⟨[], [], ⟨0, 0, 0⟩, capital, capital, 0⟩

/-- The outcome of a position goes into the closed capital. -/
def close (state : Scenario) (position : Position) : Scenario :=
  { state with
    closedCash := add state.closedCash position.pnl
    lowClosedCash := min state.lowClosedCash (add state.closedCash position.pnl) }

def releaseOne (entry : ℤ) (state : Scenario) (prior : Position) : Scenario :=
  if prior.exit < entry then state.close prior
  else { state with active := state.active ++ [prior] }

/-- The positions that exit before an entry are released, in the order of their admission. -/
def release (entry : ℤ) (state : Scenario) : Scenario :=
  state.active.foldl (releaseOne entry) { state with active := [] }

def reserved (state : Scenario) : ℚ :=
  (state.active.map Position.loss).foldl add 0

variable (limits : RiskLimits)

def verdict (state : Scenario) (offer : Offer) : Verdict :=
  if limits.maxTradeLoss < offer.loss then .tradeCap
  else if limits.maxOpenLoss < add state.reserved offer.loss then .openCap
  else if state.closedCash < add state.reserved offer.loss then .capital
  else .admitted

/-- What is done with a row, once the positions before it are released. -/
def settle (state : Scenario) (offer : Offer) : Scenario :=
  match state.verdict limits offer with
  | .tradeCap =>
    { state with skipped := { state.skipped with tradeCap := state.skipped.tradeCap + 1 } }
  | .openCap =>
    { state with skipped := { state.skipped with openCap := state.skipped.openCap + 1 } }
  | .capital =>
    { state with skipped := { state.skipped with capital := state.skipped.capital + 1 } }
  | .admitted =>
    { state with
      active := state.active ++ [offer.toPosition]
      admitted := state.admitted ++ [offer.label]
      peakReserved := max state.peakReserved (add state.reserved offer.loss) }

def offer (state : Scenario) (offer : Offer) : Scenario :=
  (state.release offer.entry).settle limits offer

/-- At the end what is still active is closed in the order of the exits. -/
def finish (state : Scenario) : Scenario :=
  (sortedBy Position.order state.active).foldl close state

end Scenario

/-! ## The scenario -/

structure VariantSummary where
  considered : ℕ
  admitted : ℕ
  skipped : Skipped
  admittedDecisionNames : List String
  peakOpenLossReserved : ℚ
  closedPnl : ℚ
  endingClosedCapital : ℚ
  minimumClosedCapital : ℚ
deriving DecidableEq

def takeRow (limits : RiskLimits) (state : Scenario) (row : ReplayRow) :
    Except ScenarioError Scenario := do
  let offer ← readRow row
  return state.offer limits offer

/-- The rows of a variant in the order in which they are offered. -/
def variantRows (document : ReplayDocument) (key : String) : List ReplayRow :=
  sortedBy ReplayRow.order (document.rows.filter fun row => row.variant = key)

def summarize (limits : RiskLimits) (considered : ℕ) (state : Scenario) : VariantSummary :=
  ⟨considered, state.admitted.length, state.skipped, state.admitted, state.peakReserved,
    sub state.closedCash limits.capital, state.closedCash, state.lowClosedCash⟩

def runVariant (limits : RiskLimits) (document : ReplayDocument) (key : String) :
    Except ScenarioError (String × VariantSummary) := do
  let rows := variantRows document key
  let state ← rows.foldlM (takeRow limits) (.start limits.capital)
  return (key, summarize limits rows.length state.finish)

structure ScenarioReport where
  spec : RiskLimits
  variants : List (String × VariantSummary)
deriving DecidableEq

def replaySchema : String :=
  "desk-historical-replay/1"

def simulate (document : ReplayDocument) (capital maxTradeLoss maxOpenLoss : AmountField) :
    Except ScenarioError ScenarioReport := do
  refuse (document.schema ≠ replaySchema) (.value "unsupported replay schema")
  let limits ← readLimits capital maxTradeLoss maxOpenLoss
  refuse (document.rows.any fun row => row.variant ∉ document.byVariant)
    (.value "replay row has undeclared variant")
  let variants ← document.byVariant.mapM (runVariant limits document)
  return ⟨limits, variants⟩

end TreeOptions.Desk
