import TreeOptions.Books.Booking
import TreeOptions.Foundations.DefaultDict

/-!
# The fold of the ledger

`foldLedger` reads lots, realized P&L and flows off the ledger rows, in whatever order
they come. A fill and its corrections are one effective fill, and the effective fills
are applied in the order of their broker time to average-cost lots, one for each
account, contract and attribution (`applyFill`). A commission is held against the fill
of its base execution id and realized with it.
-/

set_option autoImplicit false

namespace TreeOptions.Books

open Checked

/-! ## The rows of a ledger -/

/-- A row that supersedes another supersedes one of its own execution. -/
def checkSuperseded (admitted : Admitted) (event : LedgerEvent) : Except BooksError Unit :=
  match event.supersedesEventId with
  | none => .ok ()
  | some target =>
    match admitted.byId.find? target with
    | none => .error (.supersedesMissing event.eventId target)
    | some superseded =>
      refuse (superseded.baseExecId ≠ event.baseExecId)
        (.supersedesElsewhere event.eventId target)

/-- The rows of a ledger, one for each id. -/
def validated (events : List LedgerEvent) : Except BooksError (List LedgerEvent) := do
  let admitted ← admitAll (sortedBy (fun event => event.eventId) events)
  admitted.byId.rows.forM (checkSuperseded admitted)
  return admitted.byId.rows

/-! ## Effective fills -/

/-- One booked execution as the ledger stands: a fill and its corrections. -/
structure Effective where
  accountId : String
  conId : ℕ
  secType : PositionSecType
  attribution : Attribution
  at' : ℤ
  base : String
  source : String
  quantity : ℤ
  cash : ℤ
  fee : ℤ

/-- What the rows of one chain share. -/
def chainIdentity (event : LedgerEvent) :
    String × Option ℕ × Option PositionSecType × Attribution :=
  (event.accountId, event.conId, event.secType, event.attribution)

/-- The fees of a base execution id: its commissions, as a cost. -/
def feeOf (rows : List LedgerEvent) (base : String) : ℤ :=
  ((rows.filter fun event => event.kind = .commission ∧ event.baseExecId.getD "" = base).map
    fun event => -event.cashDeltaMicros).sum

/-- The effective fill of a chain, which has one root. -/
def effectiveOf (rows : List LedgerEvent) (base : String) (chain : List LedgerEvent) :
    Except BooksError Effective :=
  match chain.filter fun event => event.kind = .fill with
  | [root] =>
    match root.conId, root.secType with
    | some conId, some secType => do
        chain.forM fun event =>
          refuse (chainIdentity event ≠ chainIdentity root)
            (.correctsElsewhere event.eventId root.eventId)
        return {
          accountId := root.accountId
          conId
          secType
          attribution := root.attribution
          at' := root.at'
          base
          source := root.eventId
          quantity := (chain.map fun event => event.quantityDelta).sum
          cash := (chain.map fun event => event.cashDeltaMicros).sum
          fee := feeOf rows base }
    | _, _ => .error (.contractMissing root.eventId)
  | _ => .error (.rootMissing base)

/-- The rows that move a position, by base execution id. -/
def chains (rows : List LedgerEvent) : List (String × List LedgerEvent) :=
  groupBy (fun event => event.baseExecId.getD "") (rows.filter fun event => event.kind.Moves)

def effectiveFills (rows : List LedgerEvent) : Except BooksError (List Effective) :=
  (chains rows).mapM fun chain => effectiveOf rows chain.1 chain.2

/-! ## Average cost -/

/-- `amount * part / whole`, truncated toward zero. -/
def part (amount part whole : ℤ) : ℤ :=
  if part = whole then amount
  else
    let magnitude := (|amount| * part).fdiv whole
    if 0 ≤ amount then magnitude else -magnitude

theorem part_self (amount whole : ℤ) : part amount whole whole = amount :=
  if_pos rfl

/-- One attribution's position in one contract. -/
structure LotState where
  quantity : ℤ := 0
  cost : ℤ := 0
  fee : ℤ := 0

/-- A lot after a fill, and what the part that closed realized. -/
def applyFill (lot : LotState) (fill : Effective) : LotState × Option ℤ :=
  let cost := -fill.cash
  if fill.quantity = 0 then
    (lot, if cost ≠ 0 ∨ fill.fee ≠ 0 then some (-cost - fill.fee) else none)
  else if lot.quantity = 0 ∨ (0 < lot.quantity ↔ 0 < fill.quantity) then
    ({ quantity := lot.quantity + fill.quantity
       cost := lot.cost + cost
       fee := lot.fee + fill.fee }, none)
  else
    let held := |lot.quantity|
    let closed := min |fill.quantity| held
    let releasedCost := part lot.cost closed held
    let releasedFee := part lot.fee closed held
    let closingCost := part cost closed |fill.quantity|
    let closingFee := part fill.fee closed |fill.quantity|
    ({ quantity := lot.quantity + fill.quantity
       cost := lot.cost + (cost - closingCost - releasedCost)
       fee := lot.fee + (fill.fee - closingFee - releasedFee) },
      some (-(releasedCost + closingCost) - releasedFee - closingFee))

/-- Realized P&L at a broker time. -/
structure Realization where
  accountId : String
  conId : Option ℕ
  attribution : Attribution
  at' : ℤ
  realizedMicros : ℤ
  sourceEventId : String
  deriving DecidableEq

/-- Account, contract and attribution. -/
abbrev LotKey :=
  String × ℕ × Attribution

def Effective.lotKey (fill : Effective) : LotKey :=
  (fill.accountId, fill.conId, fill.attribution)

def realizationOf (fill : Effective) (realizedMicros : ℤ) : Realization where
  accountId := fill.accountId
  conId := some fill.conId
  attribution := fill.attribution
  at' := fill.at'
  realizedMicros := realizedMicros
  sourceEventId := fill.source

/-- The lots so far, the kind of each contract, and what was realized. -/
structure LotBook where
  lots : DefaultDict LotKey ({} : LotState) := .empty
  secTypes : Table (fun typed : (String × ℕ) × PositionSecType => typed.1) := .empty
  realizations : List Realization := []

def applyEffective (book : LotBook) (fill : Effective) : Except BooksError LotBook := do
  let contract := (fill.accountId, fill.conId)
  let secTypes := book.secTypes.insertOrIgnore (contract, fill.secType)
  refuse (secTypes.find? contract ≠ some (contract, fill.secType)) (.bothSecTypes fill.conId)
  let (lot, realized) := applyFill (book.lots.get fill.lotKey) fill
  return {
    lots := book.lots.set fill.lotKey lot
    secTypes
    realizations := book.realizations ++ (realized.map (realizationOf fill)).toList }

/-- The order in which fills are applied. -/
def Effective.order (fill : Effective) : ℤ ×ₗ String :=
  toLex (fill.at', fill.base)

/-! ## The fold -/

structure Lot where
  accountId : String
  conId : ℕ
  secType : PositionSecType
  attribution : Attribution
  quantity : ℤ
  costBasisMicros : ℤ
  feeBasisMicros : ℤ
  deriving DecidableEq

structure Flow where
  accountId : String
  attribution : Attribution
  feesMicros : ℤ
  cashMicros : ℤ
  deriving DecidableEq

/-- What one booked stock execution took out of cash. -/
structure StockCashOut where
  accountId : String
  conId : ℕ
  at' : ℤ
  micros : ℤ
  deriving DecidableEq

/-- What one booked execution brought into cash. -/
structure CashIn where
  accountId : String
  conId : ℕ
  at' : ℤ
  micros : ℤ
  deriving DecidableEq

structure LedgerFold where
  lots : List Lot
  realizations : List Realization
  flows : List Flow
  touchedContracts : List (String × ℕ)
  unattributed : List String
  pendingCommissions : List String
  stockCashOut : List StockCashOut
  cashIn : List CashIn
  deriving DecidableEq

def attributionKey (attribution : Attribution) : String ×ₗ String ×ₗ String ×ₗ String :=
  toLex (attribution.intentId.getD "", toLex (attribution.strategyVersion.getD "",
    toLex (attribution.programId.getD "", attribution.sleeveRef)))

/-- A commission that no booked fill holds is an expense when reported. -/
def unbookedCommissions (effective : List Effective) (rows : List LedgerEvent) :
    List Realization :=
  (rows.filter fun event => event.kind = .commission ∧
    event.baseExecId.getD "" ∉ effective.map Effective.base).map fun event =>
      { accountId := event.accountId
        conId := event.conId
        attribution := event.attribution
        at' := event.at'
        realizedMicros := event.cashDeltaMicros
        sourceEventId := event.eventId }

def flowsOf (rows : List LedgerEvent) : List Flow :=
  (groupBy (fun event : LedgerEvent => (event.accountId, event.attribution)) rows).map
    fun group =>
      { accountId := group.1.1
        attribution := group.1.2
        feesMicros := ((group.2.filter fun event => event.kind = .commission).map
          fun event => -event.cashDeltaMicros).sum
        cashMicros := (group.2.map fun event => event.cashDeltaMicros).sum }

def touchedContracts (rows : List LedgerEvent) : List (String × ℕ) :=
  firstSeen (rows.filterMap fun event => event.conId.map fun conId => (event.accountId, conId))

/-- The lots of the book, each with the kind of its contract. -/
def lotsOf (book : LotBook) : List Lot :=
  book.lots.keys.filterMap fun key =>
    (book.secTypes.find? (key.1, key.2.1)).map fun typed =>
      { accountId := key.1
        conId := key.2.1
        secType := typed.2
        attribution := key.2.2
        quantity := (book.lots.get key).quantity
        costBasisMicros := (book.lots.get key).cost
        feeBasisMicros := (book.lots.get key).fee }

/-- The execution ids booked as a fill or correction whose commission is not booked. -/
def pendingCommissionsOf (rows : List LedgerEvent) : List String :=
  let ids := fun charged : Bool => rows.filterMap fun event =>
    if decide (event.kind = .commission) = charged then event.execId else none
  sortedBy id ((firstSeen (ids false)).filter fun execId => execId ∉ ids true)

/-- A purchase's price and commission, a sale's commission alone. -/
def cashOut (fill : Effective) : StockCashOut where
  accountId := fill.accountId
  conId := fill.conId
  at' := fill.at'
  micros := (if 0 < fill.quantity ∧ fill.cash < 0 then -fill.cash else 0) + max fill.fee 0

def cashInOf (fill : Effective) : CashIn where
  accountId := fill.accountId
  conId := fill.conId
  at' := fill.at'
  micros := fill.cash

def Lot.order (lot : Lot) : String ×ₗ ℕ ×ₗ String ×ₗ String ×ₗ String ×ₗ String :=
  toLex (lot.accountId, toLex (lot.conId, attributionKey lot.attribution))

def Realization.order (realization : Realization) :
    ℤ ×ₗ String ×ₗ String ×ₗ String ×ₗ String ×ₗ String :=
  toLex (realization.at', toLex (realization.sourceEventId,
    attributionKey realization.attribution))

def Flow.order (flow : Flow) : String ×ₗ String ×ₗ String ×ₗ String ×ₗ String :=
  toLex (flow.accountId, attributionKey flow.attribution)

/-- What the books derive from the rows, the effective fills and the lots. -/
def foldOf (rows : List LedgerEvent) (effective : List Effective) (book : LotBook) :
    LedgerFold :=
  let ordered := sortedBy Effective.order effective
  { lots := sortedBy Lot.order (lotsOf book)
    realizations :=
      sortedBy Realization.order (unbookedCommissions effective rows ++ book.realizations)
    flows := sortedBy Flow.order (flowsOf rows)
    touchedContracts := sortedBy (fun contract => toLex contract) (touchedContracts rows)
    unattributed := sortedBy id ((rows.filter fun event =>
      unattributedPrefix.toList.isPrefixOf event.detail.toList).map fun event => event.eventId)
    pendingCommissions := pendingCommissionsOf rows
    stockCashOut := (ordered.filter fun fill => fill.secType = .stk).map cashOut
    cashIn := (ordered.filter fun fill => 0 < fill.cash).map cashInOf }

/-- Fold ledger rows into lots, realized P&L and flows. -/
def foldLedger (events : List LedgerEvent) : Except BooksError LedgerFold := do
  let rows ← validated events
  let effective ← effectiveFills rows
  let book ← (sortedBy Effective.order effective).foldlM applyEffective {}
  return foldOf rows effective book

namespace LedgerFold

/-- The quantity of every contract of an account that the ledger touched. -/
def positions (fold : LedgerFold) (accountId : String) : List (ℕ × ℤ) :=
  let touched := (fold.touchedContracts.filter fun contract => contract.1 = accountId).map
    Prod.snd
  let lots := fold.lots.filter fun lot => lot.accountId = accountId
  (sortedBy id (firstSeen (touched ++ lots.map Lot.conId))).map fun conId =>
    (conId, ((lots.filter fun lot => lot.conId = conId).map Lot.quantity).sum)

/-- The sum of every row's cash for an account. -/
def cash (fold : LedgerFold) (accountId : String) : ℤ :=
  ((fold.flows.filter fun flow => flow.accountId = accountId).map Flow.cashMicros).sum

end LedgerFold

/-! ## What the rows and the effective fills say -/

variable {rows : List LedgerEvent}

theorem validated_ok {events : List LedgerEvent} (succeeded : validated events = .ok rows) :
    (∀ row ∈ rows, row ∈ events) ∧ (rows.map LedgerEvent.content).Perm (facts events) := by
  simp only [validated, bind_eq_ok] at succeeded
  obtain ⟨admitted, holds, ⟨⟩, -, same⟩ := succeeded
  cases same
  have holds := holds_admitAll holds
  have perm := sortedBy_perm (fun event : LedgerEvent => event.eventId) events
  constructor
  · intro row member
    exact perm.mem_iff.mp (holds.mem row member)
  · exact holds.perm.trans (perm.map LedgerEvent.content).dedup

structure EffectiveOf (rows : List LedgerEvent) (base : String) (chain : List LedgerEvent)
    (fill : Effective) : Prop where
  root : ∃ root, (chain.filter fun event => event.kind = .fill) = [root] ∧
    fill.at' = root.at'
  identity : ∀ event ∈ chain, chainIdentity event =
    (fill.accountId, some fill.conId, some fill.secType, fill.attribution)
  key : fill.base = base
  quantity : fill.quantity = (chain.map fun event => event.quantityDelta).sum
  cash : fill.cash = (chain.map fun event => event.cashDeltaMicros).sum
  fee : fill.fee = feeOf rows base

theorem effectiveOf_ok {chain : List LedgerEvent} {base : String} {fill : Effective}
    (succeeded : effectiveOf rows base chain = .ok fill) : EffectiveOf rows base chain fill := by
  rw [effectiveOf] at succeeded
  split at succeeded
  case h_1 root roots =>
    split at succeeded
    case h_1 conId secType contract kind =>
      obtain ⟨⟨⟩, same, done⟩ := bind_eq_ok.mp succeeded
      cases done
      refine ⟨⟨root, roots, rfl⟩, ?_, rfl, rfl, rfl, rfl⟩
      intro event member
      have identity := forM_eq_ok.mp same event member
      rw [refuse_eq_ok, not_not] at identity
      rw [identity, chainIdentity, contract, kind]
    case h_2 => cases succeeded
  case h_2 => cases succeeded

theorem EffectiveOf.exists_mem {chain : List LedgerEvent} {base : String} {fill : Effective}
    (effect : EffectiveOf rows base chain fill) : ∃ root ∈ chain, root.kind = .fill := by
  obtain ⟨root, roots, -⟩ := effect.root
  have member : root ∈ chain.filter fun event => event.kind = .fill := by
    rw [roots]
    exact List.mem_cons_self
  obtain ⟨inside, isFill⟩ := List.mem_filter.mp member
  exact ⟨root, inside, of_decide_eq_true isFill⟩

theorem mem_chains {chain : String × List LedgerEvent} (member : chain ∈ chains rows)
    {event : LedgerEvent} (inside : event ∈ chain.2) :
    event ∈ rows ∧ event.kind.Moves ∧ event.baseExecId.getD "" = chain.1 := by
  obtain ⟨moves, base⟩ := key_of_mem_groupBy member inside
  obtain ⟨row, moves⟩ := List.mem_filter.mp moves
  exact ⟨row, of_decide_eq_true moves, base⟩

variable {effective : List Effective}

section

variable (succeeded : effectiveFills rows = .ok effective)

include succeeded

/-- **A sum over the effective fills is a sum over the rows that move a position.** -/
theorem sum_effectiveFills {total : Effective → ℤ} {amount : LedgerEvent → ℤ}
    (same : ∀ chain ∈ chains rows, ∀ fill, effectiveOf rows chain.1 chain.2 = .ok fill →
      total fill = (chain.2.map amount).sum) :
    (effective.map total).sum =
      (rows.map fun event => if event.kind.Moves then amount event else 0).sum := by
  rw [map_eq_of_mapM succeeded same, chains, sum_groupBy, sum_map_filter]
  simp only [decide_eq_true_eq]

theorem bases_effectiveFills : effective.map Effective.base = (chains rows).map Prod.fst := by
  refine map_eq_of_mapM succeeded ?_
  intro chain _ fill effects
  exact (effectiveOf_ok effects).key

theorem nodup_bases : (effective.map Effective.base).Nodup := by
  rw [bases_effectiveFills succeeded, chains, keys_groupBy]
  exact nodup_firstSeen _

end

/-- **The parts of a fold.** -/
theorem foldLedger_ok {events : List LedgerEvent} {fold : LedgerFold}
    (folded : foldLedger events = .ok fold) :
    ∃ rows effective book, validated events = .ok rows ∧ effectiveFills rows = .ok effective ∧
      (sortedBy Effective.order effective).foldlM applyEffective {} = .ok book ∧
      fold = foldOf rows effective book := by
  simp only [foldLedger, bind_eq_ok] at folded
  obtain ⟨rows, valid, effective, effects, book, applied, same⟩ := folded
  cases same
  exact ⟨rows, effective, book, valid, effects, applied, rfl⟩

end TreeOptions.Books
