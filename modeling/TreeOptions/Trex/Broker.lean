import TreeOptions.Foundations.Interrupted
import TreeOptions.Trex.Book
import TreeOptions.Trex.PutSpread

/-!
# A runner and its broker

What a legacy runner works on: the orders it ever placed, as the broker reports them, the book on
disk and in memory, the handles of its working orders, the kill files and the market. A death loses
the memory and the handles.

The broker may fill a working order and change its status at any time. An order in a terminal
status is final. Another runner may write the structures that are past the entry lane. The
executions and positions the broker shows are any.
-/

set_option autoImplicit false

namespace TreeOptions.Trex

open Decimal

def terminalStatuses : List String :=
  ["Filled", "Cancelled", "ApiCancelled"]

/-- An order for packages of a spread, as the broker reports it. -/
structure Trade where
  orderId : ℕ
  spread : PutSpread
  action : Action
  totalQuantity : ℤ
  lmtPrice : ℚ
  status : String
  filled : ℤ
  avgFillPrice : Number

namespace Trade

def Terminal (trade : Trade) : Prop :=
  trade.status ∈ terminalStatuses

instance decidableTerminal (trade : Trade) : Decidable trade.Terminal :=
  inferInstanceAs (Decidable (trade.status ∈ terminalStatuses))

/-- What the broker may report next: more fills and any status, while the order works. -/
def Reportable (trade : Trade) (status : String) (filled : ℤ) : Prop :=
  trade.filled ≤ filled ∧ filled ≤ trade.totalQuantity ∧
    (status = "Filled" → filled = trade.totalQuantity) ∧
    (trade.Terminal → status = trade.status ∧ filled = trade.filled)

instance decidableReportable (trade : Trade) (status : String) (filled : ℤ) :
    Decidable (trade.Reportable status filled) :=
  inferInstanceAs (Decidable (_ ∧ _ ∧ (_ → _) ∧ (_ → _ ∧ _)))

end Trade

/-- The handle of an order. -/
structure OrderRef where
  structureId : String
  side : Action
  qty : ℤ
  limit : ℚ
  orderId : ℕ

structure OrderStatusInfo where
  status : String
  filled : ℤ
  avgFillPrice : Number

/-- A fill of one leg of an order. -/
structure Execution where
  orderId : ℕ
  conId : ℕ
  shares : ℚ
  price : ℚ

structure World where
  trades : List Trade
  nextOrderId : ℕ
  fills : List Execution
  positions : ℕ → ℚ
  disk : Option BookState
  writable : Bool
  memory : BookState
  orders : String → Option OrderRef
  halt : Bool
  flatten : Bool
  inSession : Bool
  snapshot : Snapshot

namespace World

variable (world : World)

def trade (orderId : ℕ) : Option Trade :=
  world.trades.find? fun trade => trade.orderId = orderId

/-- The orders placed for a structure. -/
def placedFor (structureId : String) : List Trade :=
  world.trades.filter fun trade => trade.spread.id = structureId

def withTrade (orderId : ℕ) (change : Trade → Trade) : World :=
  { world with
    trades := world.trades.map fun trade =>
      if trade.orderId = orderId then change trade else trade }

def put (structureId : String) (st : StructureState) : World :=
  { world with memory := world.memory.put structureId st }

def setOrder (structureId : String) (ref : Option OrderRef) : World :=
  { world with orders := Function.update world.orders structureId ref }

/-- The state of a structure on disk, as a load would find it. -/
def onDisk (structureId : String) : StructureState :=
  (world.disk.bind fun book => book.structures structureId).getD {}

/-- The process dies. -/
def forget : World :=
  { world with memory := ⟨fun _ => none, none⟩, orders := fun _ => none }

end World

/-! ## The broker -/

/-- What may happen outside the runner. -/
inductive WorldEvent where
  | report (orderId : ℕ) (status : String) (filled : ℤ) (avgFillPrice : Number)
  | accountData (fills : List Execution) (positions : ℕ → ℚ)
  | orderIds (next : ℕ)
  | otherRunner (structureId : String) (next : StructureState) (heartbeat : Option ℤ)
  | killFiles (halt flatten : Bool)
  | market (snapshot : Snapshot) (inSession : Bool)
  | diskSpace (writable : Bool)

/-- The other runner only writes a structure that is past the entry lane, and leaves it there. -/
def otherRunnerWrites (world : World) (structureId : String) (next : StructureState)
    (heartbeat : Option ℤ) : Option World :=
  world.disk.bind fun book =>
    if (world.onDisk structureId).status ∉ entryLane ∧ next.status ∉ entryLane then
      some { world with disk := some { book.put structureId next with heartbeat := heartbeat } }
    else none

def worldEvent (world : World) : WorldEvent → Option World
  | .report orderId status filled avgFillPrice =>
    (world.trade orderId).bind fun trade =>
      if trade.Reportable status filled then
        some (world.withTrade orderId fun trade =>
          { trade with status, filled, avgFillPrice })
      else none
  | .accountData fills positions => some { world with fills, positions }
  | .orderIds next =>
    if world.nextOrderId ≤ next then some { world with nextOrderId := next } else none
  | .otherRunner structureId next heartbeat => otherRunnerWrites world structureId next heartbeat
  | .killFiles halt flatten => some { world with halt, flatten }
  | .market snapshot inSession =>
    some { world with snapshot, inSession }
  | .diskSpace writable => some { world with writable }

/-- The handle of an order that was just placed. -/
def newRef (spread : PutSpread) (side : Action) (qty : ℤ) (limit : ℚ) (orderId : ℕ) : OrderRef :=
  ⟨spread.id, side, qty, limit, orderId⟩

def newTrade (spread : PutSpread) (side : Action) (qty : ℤ) (limit : ℚ) (orderId : ℕ) : Trade where
  orderId := orderId
  spread := spread
  action := side
  totalQuantity := qty
  lmtPrice := limit
  status := "PendingSubmit"
  filled := 0
  avgFillPrice := .finite 0

/-- Order ids are never used twice. -/
def World.withOrder (world : World) (spread : PutSpread) (side : Action) (qty : ℤ) (limit : ℚ) :
    World :=
  { world with
    trades := world.trades ++ [newTrade spread side qty limit world.nextOrderId]
    nextOrderId := world.nextOrderId + 1 }

/-- The legacy put-spread order, untagged. -/
def placeCombo (spread : PutSpread) (side : Action) (qty : ℤ) (limit : ℚ) :
    Program World OrderRef :=
  .act fun world =>
    (world.withOrder spread side qty limit, newRef spread side qty limit world.nextOrderId)

def Trade.info (trade : Trade) : OrderStatusInfo where
  status := if trade.status = "" then "Unknown" else trade.status
  filled := trade.filled
  avgFillPrice := if trade.filled = 0 then .finite 0 else trade.avgFillPrice

def OrderStatusInfo.Terminal (info : OrderStatusInfo) : Prop :=
  info.status ∈ terminalStatuses

instance decidableInfoTerminal (info : OrderStatusInfo) : Decidable info.Terminal :=
  inferInstanceAs (Decidable (info.status ∈ terminalStatuses))

def orderStatus (ref : OrderRef) : Program World OrderStatusInfo :=
  .readOrFail fun world => (world.trade ref.orderId).map Trade.info

/-- Ask for the cancel of an order that is not terminal. When it is confirmed, or whether the order
fills before, is the broker's. -/
def cancelTrade (trade : Trade) : Trade :=
  if trade.Terminal then trade else { trade with status := "PendingCancel" }

def cancel (ref : OrderRef) : Program World Unit :=
  .modify fun world => world.withTrade ref.orderId cancelTrade

/-- The working orders the broker lists. -/
def openComboTrades (world : World) : List Trade :=
  world.trades.filter fun trade => ¬ trade.Terminal

section

variable (conId : OptionContract → ℕ)

/-- The contracts of a bag. -/
def bag (spread : PutSpread) : Finset ℕ :=
  (spread.contracts.map conId).toFinset

/-- The first structure of the plan with the contracts of a bag. -/
def structureForBag (plan : TradePlan) (trade : Trade) : Option String :=
  (plan.structures.find? fun spread => bag conId spread = bag conId trade.spread).map PutSpread.id

/-! ## Evidence of fills -/

def fillsPerLeg (spread : PutSpread) (fills : List Execution) (orderId : ℕ) :
    List (List Execution) :=
  spread.contracts.map fun leg =>
    fills.filter fun fill => fill.orderId = orderId ∧ fill.conId = conId leg

def totalShares (fills : List Execution) : ℚ :=
  fills.foldl (fun total fill => add total fill.shares) 0

def legNotional (fills : List Execution) : ℚ :=
  fills.foldl (fun total fill => add total (mul fill.price fill.shares)) 0

/-- The packages that fills of the two legs make up, and their average debit. -/
def packagesFilled (longLeg shortLeg : List Execution) : Option (ℤ × Option ℚ) :=
  if totalShares longLeg = totalShares shortLeg ∧ (totalShares longLeg).den = 1 then
    let notional := sub (add 0 (legNotional longLeg)) (legNotional shortLeg)
    some ((totalShares longLeg).num,
      if totalShares longLeg = 0 then none else div? notional (totalShares longLeg))
  else none

def heldNone (positions : ℕ → ℚ) (spread : PutSpread) : Prop :=
  ∀ leg ∈ spread.contracts, positions (conId leg) = 0

instance decidableHeldNone (positions : ℕ → ℚ) (spread : PutSpread) :
    Decidable (heldNone conId positions spread) :=
  inferInstanceAs (Decidable (∀ leg ∈ spread.contracts, positions (conId leg) = 0))

/-- Without an execution of the order: nothing was filled where no leg is held. -/
def heldEvidence (positions : ℕ → ℚ) (spread : PutSpread) : Option (ℤ × Option ℚ) :=
  if heldNone conId positions spread then some (0, none) else none

/-- What the broker can prove was filled of an order that is no longer working. -/
def entryFillEvidence (world : World) (spread : PutSpread) (order : Option String) :
    Option (ℤ × Option ℚ) :=
  match order.bind String.toNat? with
  | none => heldEvidence conId world.positions spread
  | some orderId =>
    match fillsPerLeg conId spread world.fills orderId with
    | [longLeg, shortLeg] =>
      if longLeg ≠ [] ∨ shortLeg ≠ [] then packagesFilled longLeg shortLeg
      else heldEvidence conId world.positions spread
    | _ => none

end

/-! ## The book -/

/-- Load the book, with the structures of the plan. A process starts without handles. -/
def loadBook (plan : TradePlan) (world : World) : World :=
  { world with
    memory := BookState.load world.disk (plan.structures.map PutSpread.id)
    orders := fun _ => none }

/-- Take every structure from disk, and start those in memory that are not there. -/
def syncBookFromDisk (world : World) : World :=
  { world with
    memory := { world.memory with
      structures := fun id =>
        (world.disk.bind fun book => book.structures id).or
          ((world.memory.structures id).map fun _ => {}) } }

/-- Save the whole book but for what the other runner owns. A write that fails leaves what was
taken from disk in memory. -/
def saveBook (theirs : StructureState → StructureState → Bool) : Program World Unit :=
  .step
    (fun world =>
      if world.writable then
        { world with
          memory := world.memory.saveOwned world.disk theirs
          disk := some (world.memory.saveOwned world.disk theirs) }
      else { world with memory := world.memory.saveOwned world.disk theirs })
    fun world => if world.writable then .done () else .fail

def structureOf (structureId : String) : Program World StructureState :=
  .readOrFail fun world => world.memory.structures structureId

/-- Move a structure to a status the table allows. -/
def transition (structureId : String) (target : Status) : Program World Unit :=
  .modifyOrFail fun world =>
    (world.memory.structures structureId).bind fun st =>
      if transitionAllowed st.status target then
        some (world.put structureId { st with status := target })
      else none

/-- Change the fields of a structure. -/
def update (structureId : String) (change : StructureState → StructureState) :
    Program World Unit :=
  .modifyOrFail fun world =>
    (world.memory.structures structureId).map fun st => world.put structureId (change st)

def setOrder (structureId : String) (ref : Option OrderRef) : Program World Unit :=
  .modify fun world => world.setOrder structureId ref

/-- Wait for a condition, for a number of polls. The world goes on between two of them. -/
def waitFor (stop : World → Bool) : ℕ → Program World Unit
  | 0 => .done ()
  | polls + 1 => do
      let stopped ← Program.read stop
      if stopped then .done () else waitFor stop polls

/-- The order of a handle is terminal, or there is no handle. -/
def noneWorking (structureId : String) (world : World) : Bool :=
  match world.orders structureId with
  | none => true
  | some ref => (world.trade ref.orderId).any fun trade => trade.Terminal

end TreeOptions.Trex
