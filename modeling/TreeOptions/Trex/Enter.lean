import TreeOptions.Trex.Broker

/-!
# The entry runner

Each cycle reloads the book, acts on every structure in the entry lane and drains the fills of the
working orders. An order is placed for what the book says is missing, and replaced only after its
cancel is confirmed and its last fills are merged. A flatten file and the end of the entry window
cancel the order and settle the structure from what the broker reports. After a start the runner
takes up the working orders the broker lists.

The decision of the engine is a parameter, since the runner acts on any. The event log, which
nothing reads back, is left out.
-/

set_option autoImplicit false

namespace TreeOptions.Trex.Enter

open Decimal

/-- A structure past the entry lane on disk is the monitor's. -/
def theirs (_mine disk : StructureState) : Bool :=
  disk.status ∉ entryLane

def save : Program World Unit :=
  saveBook theirs

/-! ## Merging fills -/

def entryReport (filled : ℤ) (avg : Number) (orderId : String) : WorkingOrder :=
  ⟨.entry, filled, avg, orderId⟩

/-- The structure after a report. Where the accounting raises, the order was taken up before. -/
def mergedState (st : StructureState) (report : WorkingOrder) : StructureState :=
  match drain st report with
  | .ok (after, _) => after
  | .error _ => { st with entry := st.entry.adopt report.orderId }

/-- What a merge can change. -/
def accounts (st : StructureState) : ℤ × Option ℚ × ℤ × Option ℚ × ℤ :=
  (st.entry.filledQty, st.entry.fill, st.entry.orderSeen, st.entry.orderNotional,
    st.entry.unpricedQty)

/-- Whether the book changed. -/
def mergeChanges (st : StructureState) (report : WorkingOrder) : Program World Bool :=
  match drain st report with
  | .ok (after, _) => .done (accounts after ≠ accounts st)
  | .error _ => .fail

/-- Merge the cumulative report on an order into the book. -/
def mergeOrderTotal (structureId : String) (filled : ℤ) (avg : Number) (orderId : String) :
    Program World Bool :=
  .step
    (fun world => (world.memory.structures structureId).elim world fun st =>
      world.put structureId (mergedState st (entryReport filled avg orderId)))
    fun world => (world.memory.structures structureId).elim .fail fun st =>
      mergeChanges st (entryReport filled avg orderId)

/-- Merge the latest fills of a working order. -/
def mergeFills (structureId : String) (ref : OrderRef) :
    Program World (OrderStatusInfo × Bool) := do
  let info ← orderStatus ref
  let changed ← mergeOrderTotal structureId info.filled info.avgFillPrice (toString ref.orderId)
  return (info, changed)

/-! ## Placing -/

/-- The checkpoint of a new order. -/
def startOrder (orderId : ℕ) (st : StructureState) : StructureState :=
  { st with
    entry := { st.entry with
      order := some (toString orderId)
      orderSeen := 0
      orderNotional := none
      orderUnpriced := 0 } }

/-- Place the order for what is missing, after the book is saved. -/
def placeRemaining (spread : PutSpread) (limit : ℚ) (remaining : ℤ) : Program World Unit := do
  save
  let ref ← placeCombo spread .buy remaining limit
  setOrder spread.id (some ref)
  update spread.id (startOrder ref.orderId)
  save

/-- Fully filled already. -/
def placeNothing (spread : PutSpread) : Program World Unit := do
  transition spread.id .opened
  save

def place (spread : PutSpread) (limit : ℚ) : Program World Unit := do
  let st ← structureOf spread.id
  Program.when (st.status = .planned) (transition spread.id .enterWorking)
  if spread.quantity - st.filledQty ≤ 0 then placeNothing spread
  else placeRemaining spread limit (spread.quantity - st.filledQty)

/-- The last fills of the order first, where its cancel is confirmed. -/
def placeConfirmed (spread : PutSpread) (limit : ℚ) (ref : OrderRef) : Program World Unit := do
  let info ← orderStatus ref
  if info.Terminal then do
    let _ ← mergeFills spread.id ref
    place spread limit
  else .done ()

def placeAfterCancel (spread : PutSpread) (limit : ℚ) : Program World Unit := do
  waitFor (noneWorking spread.id) 6
  let ref ← Program.read fun world => world.orders spread.id
  match ref with
  | none => place spread limit
  | some ref => placeConfirmed spread limit ref

def countCycle (st : StructureState) : StructureState :=
  { st with entry := { st.entry with cycles := st.entry.cycles + 1 } }

/-- Cancel and replace an order at another price. -/
def repriceOrder (spread : PutSpread) (limit : ℚ) (ref : OrderRef) : Program World Unit := do
  let info ← orderStatus ref
  if info.Terminal then .done ()
  else do
    cancel ref
    update spread.id countCycle
    placeAfterCancel spread limit

def reprice (spread : PutSpread) (limit : ℚ) : Program World Unit := do
  let ref ← Program.read fun world => world.orders spread.id
  match ref with
  | none => .done ()
  | some ref => if ref.limit = limit then .done () else repriceOrder spread limit ref

/-! ## Stopping an entry -/

section

variable (conId : OptionContract → ℕ)

def evidenceOrder (spread : PutSpread) (order : Option String) : String :=
  match order with
  | none => "evidence-" ++ spread.id
  | some text => if text = "" then "evidence-" ++ spread.id else text

/-- Merge what the broker can prove was filled, where there is no working order to ask. -/
def reconcile (spread : PutSpread) : Program World Bool := do
  let st ← structureOf spread.id
  let evidence ← Program.read fun world => entryFillEvidence conId world spread st.entry.order
  match evidence with
  | none => .done false
  | some (filled, avg) => do
      let _ ← mergeOrderTotal spread.id filled (.finite (avg.getD 0))
        (evidenceOrder spread st.entry.order)
      .done true

/-- Cancel a working order, wait for it and merge its fills. -/
def settleOrder (spread : PutSpread) (ref : OrderRef) : Program World Bool := do
  let info ← orderStatus ref
  Program.when (¬ info.Terminal) do
    cancel ref
    waitFor (noneWorking spread.id) 6
  let (info, _) ← mergeFills spread.id ref
  if info.Terminal then do
    setOrder spread.id none
    .done true
  else .done false

/-- What the order of a structure bought is known. -/
def settleWorking (spread : PutSpread) : Program World Bool := do
  let ref ← Program.read fun world => world.orders spread.id
  match ref with
  | some ref => settleOrder spread ref
  | none => reconcile conId spread

/-- Open with what was filled, or closed with nothing. -/
def leaveLane (spread : PutSpread) : Program World Unit := do
  let st ← structureOf spread.id
  transition spread.id (if 0 < st.filledQty then .opened else .closed)

/-- Nothing is working of a planned structure. -/
def settle (spread : PutSpread) (st : StructureState) : Program World Bool :=
  if st.status = .enterWorking then settleWorking conId spread else .done true

/-- Stop an entry and settle it from what the broker says was filled. -/
def cancelAndSettle (spread : PutSpread) : Program World Bool := do
  let st ← structureOf spread.id
  let settled ← settle conId spread st
  if settled then do
    leaveLane spread
    .done true
  else .done false

def abort (spread : PutSpread) : Program World Unit := do
  let _ ← cancelAndSettle conId spread
  save

/-- Cancel the working entry of a structure in the lane. -/
def flattenEntry (spread : PutSpread) : Program World Unit := do
  let st ← structureOf spread.id
  Program.when (st.status ∈ entryLane) do
    let _ ← cancelAndSettle conId spread
    .done ()

def flattenEntries (plan : TradePlan) : Program World Unit := do
  Program.each plan.structures (flattenEntry conId)
  save

end

/-! ## Cycles -/

/-- The flag of a changed book, and the structures whose order is over. -/
structure Drained where
  mutated : Bool
  finished : List String

/-- Move a structure whose order is over to where it belongs. -/
def finishOrder (spread : PutSpread) (info : OrderStatusInfo) (soFar : Drained) :
    Program World Drained := do
  let st ← structureOf spread.id
  if 0 < st.filledQty then do
    transition spread.id .opened
    .done ⟨true, soFar.finished ++ [spread.id]⟩
  else if info.status = "Cancelled" then do
    transition spread.id .planned
    .done ⟨true, soFar.finished ++ [spread.id]⟩
  else .done ⟨true, soFar.finished⟩

def drainOrder (spread : PutSpread) (ref : OrderRef) (soFar : Drained) :
    Program World Drained := do
  let (info, changed) ← mergeFills spread.id ref
  if info.Terminal then finishOrder spread info soFar
  else .done ⟨soFar.mutated || changed, soFar.finished⟩

def drainFill (soFar : Drained) (spread : PutSpread) : Program World Drained := do
  let st ← structureOf spread.id
  let ref ← Program.read fun world => world.orders spread.id
  match ref with
  | none => .done soFar
  | some ref =>
    if st.status = .enterWorking then drainOrder spread ref soFar else .done soFar

/-- Merge the fills of all working orders. A handle is dropped only after the book is saved. -/
def drainFills (plan : TradePlan) : Program World Unit := do
  let drained ← Program.fold plan.structures ⟨false, []⟩ drainFill
  Program.when drained.mutated save
  Program.each drained.finished fun id => setOrder id none

section

variable (conId : OptionContract → ℕ)
  (decide : PutSpread → StructureState → Snapshot → Option LegacyAction) (plan : TradePlan)

/-- Place for a planned structure, and reprice a working one. -/
def placeOrReprice (spread : PutSpread) (st : StructureState) (limit : ℚ) :
    Program World Unit := do
  let halted ← Program.read World.halt
  if halted then .done ()
  else if st.status = .planned then place spread limit
  else reprice spread limit

def apply (spread : PutSpread) (st : StructureState) : LegacyAction → Program World Unit
  | .noAction _ => .done ()
  | .placeEntry limit => placeOrReprice spread st limit
  | .abortEntry _ => abort conId spread
  | .exitOrder _ _ => .done ()

def decideAndApply (snap : Snapshot) (spread : PutSpread) : Program World Unit := do
  let st ← structureOf spread.id
  Program.when (st.status ∈ entryLane)
    ((decide spread st snap).elim .fail (apply conId spread st))

def tickInSession : Program World Unit := do
  let snap ← Program.read World.snapshot
  Program.each plan.structures (decideAndApply conId decide snap)
  drainFills plan

def tick : Program World Unit := do
  let flatten ← Program.read World.flatten
  if flatten then flattenEntries conId plan
  else do
    let inSession ← Program.read World.inSession
    if inSession then tickInSession conId decide plan else .done ()

/-- A structure is still in the entry lane. -/
def pending (structures : String → Option StructureState) : Bool :=
  plan.structures.any fun spread =>
    (structures spread.id).any fun st => st.status ∈ entryLane

/-- The loop ends only when the book on disk agrees. -/
def complete : Program World Bool := do
  let unfinished ← Program.read fun world =>
    pending plan (syncBookFromDisk world).memory.structures
  if unfinished then do
    Program.modify syncBookFromDisk
    .done true
  else .done false

/-- One turn of the loop. A tick that fails is tried again at the next poll. -/
def cycle : Program World Bool := do
  Program.attempt
    (do
      Program.modify syncBookFromDisk
      tick conId decide plan)
    (.done ())
  let working ← Program.read fun world => pending plan world.memory.structures
  if working then .done true else complete plan

/-! ## Starting -/

/-- Take up a working order. One the book never recorded starts a checkpoint of its own. -/
def adoptTrade (trade : Trade) (structureId : String) : Program World Unit := do
  setOrder structureId
    (some ⟨structureId, .buy, trade.totalQuantity, trade.lmtPrice, trade.orderId⟩)
  let st ← structureOf structureId
  Program.when (st.status = .planned) (transition structureId .enterWorking)
  update structureId fun st => { st with entry := st.entry.adopt (toString trade.orderId) }

def adoptOpenEntry (trade : Trade) : Program World Unit :=
  match structureForBag conId plan trade with
  | none => .done ()
  | some structureId =>
    if trade.action = .buy then adoptTrade trade structureId else .done ()

def adoptOpenEntries : Program World Unit := do
  let trades ← Program.read openComboTrades
  Program.each trades (adoptOpenEntry conId plan)
  save

def boot : Program World Bool := do
  Program.modify (loadBook plan)
  adoptOpenEntries conId plan
  .done true

/-- **The entry runner on its broker**, whose process may die and start again. -/
def machine : Machine World WorldEvent where
  environment := worldEvent
  forget := World.forget
  boot := boot conId plan
  cycle := cycle conId decide plan

end

end TreeOptions.Trex.Enter
