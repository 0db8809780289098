import TreeOptions.Foundations.DefaultDict
import TreeOptions.Foundations.Fifo
import TreeOptions.Ledger.Events

/-!
# The book

A book keeps its cash, the open lots of each contract, what was realized on each
contract, and the entries it wrote. `apply` and `applySettlement` are its two calls; a
call that raises an error leaves in place whatever it had changed before.

Closing walks the lots of a contract first in first out. The walk takes from the lots
what `Fifo.take` takes from their parcels (`walkLots_eq`), and a walk that is asked for
no more than is held does not run out of lots. So a call that passes its checks
succeeds, and the book it leaves is the one that `apply_cases` and
`applySettlement_cases` describe.
-/

set_option autoImplicit false

namespace TreeOptions.Ledger

open Decimal

/-! ## Lots and books -/

structure Lot where
  fillId : String
  orderId : String
  executionAt : ℤ
  executionSession : ℤ
  quantity : ℕ
  unitPrice : Price
  multiplier : ℕ
  costBasis : ℚ

structure LedgerBook where
  initialCash : ℚ
  cash : ℚ
  totalFees : ℚ
  events : List Event
  lots : DefaultDict String ([] : List Lot)
  realized : DefaultDict String (0 : ℚ)
  entries : List LedgerEntry
  entrySeq : ℕ
  lastExecutionAt : Option ℤ
  appliedFillIds : Finset String
  appliedSettlementIds : Finset String

inductive LedgerViolation where
  | duplicateFill (fillId : String)
  | outOfOrderFill (fillId : String) (executionAt : ℤ) (last : Option ℤ)
  | duplicateSettlement (settlementId : String)
  | outOfOrderSettlement (settlementId : String) (ts : ℤ) (last : Option ℤ)
  | positionUnderflow (contractId : String)
  | settlementCashMismatch (settlementId : String) (cash recomputed : ℚ)
  | cashMismatch (cash expected : ℚ)
  | feeMismatch (fees recomputed : ℚ)
  | positionMismatch (contractId : String)
  | realizedMismatch (contractId : String)
  | entryMismatch (entrySum cashDelta : ℚ)

/-- What a call can raise: a violation, an amount that its schema refuses, or a read
past the last lot. -/
inductive LedgerError where
  | violation (violation : LedgerViolation)
  | validation (amount : ℚ)
  | indexError

def LedgerBook.new (initialCash : ℚ) : LedgerBook where
  initialCash := quantize initialCash
  cash := quantize initialCash
  totalFees := 0
  events := []
  lots := .empty
  realized := .empty
  entries := []
  entrySeq := 0
  lastExecutionAt := none
  appliedFillIds := ∅
  appliedSettlementIds := ∅

def LedgerBook.quantity (book : LedgerBook) (contractId : String) : ℕ :=
  ((book.lots.get contractId).map Lot.quantity).sum

/-! ## The walk over the lots -/

/-- The walk over the lots of a contract: the cost it removed, the lots it left, and what
remained to be closed when it ran out of lots. A lot that outlasts the quantity ends the
walk, since nothing remains then. -/
def walkLots : List Lot → ℕ → ℚ → ℚ × List Lot × ℕ
  | lots, 0, costRemoved => (costRemoved, lots, 0)
  | [], remaining + 1, costRemoved => (costRemoved, [], remaining + 1)
  | head :: rest, remaining + 1, costRemoved =>
    let taken := min head.quantity (remaining + 1)
    let removed := quantize (head.unitPrice.value * taken * head.multiplier)
    let left := { head with
      quantity := head.quantity - taken
      costBasis := quantize (head.costBasis - removed) }
    if left.quantity = 0 then
      walkLots rest (remaining + 1 - taken) (costRemoved + removed)
    else
      (costRemoved + removed, left :: rest, remaining + 1 - taken)

/-- The units of a lot, each worth the price of what one contract delivers. -/
def Lot.parcel (lot : Lot) : ℕ × ℚ :=
  (lot.quantity, lot.unitPrice.value * lot.multiplier)

/-- The cost basis is the unit price of everything in the lot. -/
def Lot.Exact (lot : Lot) : Prop :=
  lot.costBasis = lot.unitPrice.value * lot.quantity * lot.multiplier

theorem Lot.units_parcel (lots : List Lot) :
    Fifo.units (lots.map Lot.parcel) = (lots.map Lot.quantity).sum := by
  rw [Fifo.units, List.map_map]
  rfl

theorem Lot.worth_parcel {lots : List Lot} (exact : ∀ lot ∈ lots, lot.Exact) :
    Fifo.worth (lots.map Lot.parcel) = (lots.map Lot.costBasis).sum := by
  rw [Fifo.worth, List.map_map]
  refine congrArg List.sum (List.map_congr_left ?_)
  intro lot member
  rw [exact lot member, Function.comp_apply, Lot.parcel, nsmul_eq_mul]
  ring

/-- What is left of a lot that outlasts the quantity. -/
def Lot.less (lot : Lot) (taken : ℕ) : Lot :=
  { lot with
    quantity := lot.quantity - taken
    costBasis := lot.costBasis - lot.unitPrice.value * taken * lot.multiplier }

theorem Lot.Exact.less {lot : Lot} (exact : lot.Exact) {taken : ℕ} (held : taken ≤ lot.quantity) :
    (lot.less taken).Exact := by
  have basis : lot.costBasis = lot.unitPrice.value * lot.quantity * lot.multiplier := exact
  change lot.costBasis - lot.unitPrice.value * taken * lot.multiplier =
    lot.unitPrice.value * (lot.quantity - taken : ℕ) * lot.multiplier
  rw [basis, Nat.cast_sub held]
  ring

theorem Lot.Exact.quantize_basis {lot : Lot} (exact : lot.Exact) (taken : ℕ) :
    quantize (lot.costBasis - lot.unitPrice.value * taken * lot.multiplier) =
      lot.costBasis - lot.unitPrice.value * taken * lot.multiplier := by
  have basis : lot.costBasis = lot.unitPrice.value * lot.quantity * lot.multiplier := exact
  rw [basis]
  exact quantize_of_mem (sub_mem (lot.unitPrice.mul_mem ..) (lot.unitPrice.mul_mem ..))

theorem walkLots_of_lt {head : Lot} {wanted : ℕ} (exact : head.Exact) (some' : 0 < wanted)
    (enough : wanted < head.quantity) (rest : List Lot) (costRemoved : ℚ) :
    walkLots (head :: rest) wanted costRemoved =
      (costRemoved + head.unitPrice.value * wanted * head.multiplier,
        head.less wanted :: rest, 0) := by
  obtain ⟨remaining, rfl⟩ := Nat.exists_eq_succ_of_ne_zero (Nat.ne_of_gt some')
  have taken : min head.quantity (remaining + 1) = remaining + 1 :=
    Nat.min_eq_right (Nat.le_of_lt enough)
  have outlasts : head.quantity - (remaining + 1) ≠ 0 :=
    Nat.ne_of_gt (Nat.sub_pos_of_lt enough)
  simp only [walkLots, Nat.succ_eq_add_one, taken, if_neg outlasts, Nat.sub_self,
    quantize_of_mem (head.unitPrice.mul_mem ..), exact.quantize_basis, Lot.less]

theorem walkLots_of_le {head : Lot} {wanted : ℕ} (some' : 0 < wanted)
    (short : head.quantity ≤ wanted) (rest : List Lot) (costRemoved : ℚ) :
    walkLots (head :: rest) wanted costRemoved =
      walkLots rest (wanted - head.quantity)
        (costRemoved + head.unitPrice.value * head.quantity * head.multiplier) := by
  obtain ⟨remaining, rfl⟩ := Nat.exists_eq_succ_of_ne_zero (Nat.ne_of_gt some')
  have taken : min head.quantity (remaining + 1) = head.quantity := Nat.min_eq_left short
  simp [walkLots, taken, quantize_of_mem (head.unitPrice.mul_mem ..)]

/-- **The walk removes what a queue of the lots' parcels gives up.** It does not run out
of lots, and the lots it leaves stay exact. -/
theorem walkLots_eq {lots : List Lot} {remaining : ℕ}
    (held : remaining ≤ (lots.map Lot.quantity).sum) (exact : ∀ lot ∈ lots, lot.Exact)
    (costRemoved : ℚ) :
    ∃ left, walkLots lots remaining costRemoved =
        (costRemoved + (Fifo.take (lots.map Lot.parcel) remaining).1, left, 0) ∧
      left.map Lot.parcel = (Fifo.take (lots.map Lot.parcel) remaining).2 ∧
      ∀ lot ∈ left, lot.Exact := by
  induction lots generalizing remaining costRemoved with
  | nil =>
    obtain rfl := Nat.le_zero.mp held
    exact ⟨[], by rw [walkLots, Fifo.take_zero, add_zero], rfl, exact⟩
  | cons head rest ih =>
    obtain ⟨first, later⟩ := List.forall_mem_cons.mp exact
    rcases Nat.eq_zero_or_pos remaining with rfl | some'
    · exact ⟨head :: rest, by rw [walkLots, Fifo.take_zero, add_zero], rfl, exact⟩
    rw [List.map_cons, Lot.parcel]
    rcases Nat.lt_or_ge remaining head.quantity with enough | short
    · refine ⟨head.less remaining :: rest, ?_, ?_, ?_⟩
      · rw [walkLots_of_lt first some' enough, Fifo.take_of_lt enough, nsmul_eq_mul]
        ring_nf
      · rw [Fifo.take_of_lt enough]
        rfl
      · exact List.forall_mem_cons.mpr ⟨first.less (Nat.le_of_lt enough), later⟩
    · rw [List.map_cons, List.sum_cons] at held
      obtain ⟨left, walked, parcels, exact'⟩ := @ih (remaining - head.quantity)
        (by omega) later (costRemoved + head.unitPrice.value * head.quantity * head.multiplier)
      refine ⟨left, ?_, ?_, exact'⟩
      · rw [walkLots_of_le some' short, walked, Fifo.take_of_le short some', nsmul_eq_mul]
        ring_nf
      · rw [parcels, Fifo.take_of_le short some']

/-- Close a quantity of a contract; the cost that was removed. -/
def closeLots (contractId : String) (quantity : ℕ) : EStateM LedgerError LedgerBook ℚ := do
  let (costRemoved, left, remaining) := walkLots ((← get).lots.get contractId) quantity 0
  modify fun book => { book with lots := book.lots.set contractId left }
  if remaining = 0 then
    return costRemoved
  else
    throw .indexError

def LedgerBook.addRealized (book : LedgerBook) (contractId : String) (gain : ℚ) : LedgerBook :=
  { book with realized := book.realized.set contractId (book.realized.get contractId + gain) }

/-! ## Fills -/

/-- An entry, as its schema checks it. -/
def stageEntry (number : ℕ) (ts session : ℤ) (kind : EntryKind) (amount : ℚ)
    (contractId refId : String) : Except LedgerError LedgerEntry :=
  match Money.ofRat? amount with
  | some money => .ok ⟨entryName number, ts, session, kind, money, some contractId, refId⟩
  | none => .error (.validation amount)

/-- The two entries of a fill. -/
def LedgerBook.stageFillEntries (book : LedgerBook) (fill : Fill) :
    Except LedgerError (List LedgerEntry) := do
  let first := book.entrySeq + 1
  let second := first + 1
  return [
    ← stageEntry first fill.executionAt fill.executionSession .fillNotional
      (primitiveCash fill) fill.contractId fill.fillId,
    ← stageEntry second fill.executionAt fill.executionSession .fee
      (-fill.fees.value) fill.contractId fill.fillId]

theorem stageEntry_ok {number : ℕ} {ts session : ℤ} {kind : EntryKind} {amount : ℚ}
    {contractId refId : String} {entry : LedgerEntry}
    (ok : stageEntry number ts session kind amount contractId refId = .ok entry) :
    entry.amount.value = amount := by
  rw [stageEntry] at ok
  split at ok
  case h_1 money checked =>
    rw [← Except.ok.inj ok]
    exact Money.value_of_ofRat? checked
  case h_2 => exact nomatch ok

variable {book : LedgerBook}

/-- **The entries of a fill are its cash and its fees.** -/
theorem LedgerBook.sum_stageFillEntries {fill : Fill} {staged : List LedgerEntry}
    (ok : book.stageFillEntries fill = .ok staged) :
    (staged.map fun entry => entry.amount.value).sum = primitiveCash fill - fill.fees.value := by
  rw [stageFillEntries] at ok
  cases notional : stageEntry (book.entrySeq + 1) fill.executionAt fill.executionSession
      .fillNotional (primitiveCash fill) fill.contractId fill.fillId with
  | error error =>
    rw [notional] at ok
    exact nomatch ok
  | ok first =>
    rw [notional] at ok
    cases fee : stageEntry (book.entrySeq + 1 + 1) fill.executionAt fill.executionSession
        .fee (-fill.fees.value) fill.contractId fill.fillId with
    | error error =>
      rw [fee] at ok
      exact nomatch ok
    | ok second =>
      rw [fee] at ok
      cases ok
      rw [List.map_cons, List.map_singleton, List.sum_cons, List.sum_singleton,
        stageEntry_ok notional, stageEntry_ok fee, sub_eq_add_neg]

/-- An instant before the last one that was applied. -/
def LedgerBook.Precedes (book : LedgerBook) (instant : ℤ) : Prop :=
  ∃ last ∈ book.lastExecutionAt, instant < last

instance (book : LedgerBook) (instant : ℤ) : Decidable (book.Precedes instant) :=
  inferInstanceAs (Decidable (∃ last ∈ book.lastExecutionAt, instant < last))

/-- Everything that is checked before a fill changes the book. -/
def LedgerBook.checkFill (book : LedgerBook) (fill : Fill) :
    Except LedgerError (List LedgerEntry) :=
  if fill.fillId ∈ book.appliedFillIds then
    .error (.violation (.duplicateFill fill.fillId))
  else if book.Precedes fill.executionAt then
    .error (.violation (.outOfOrderFill fill.fillId fill.executionAt book.lastExecutionAt))
  else if fill.side = .sell ∧ book.quantity fill.contractId < fill.quantity then
    .error (.violation (.positionUnderflow fill.contractId))
  else
    book.stageFillEntries fill

/-- The lot that a purchase opens. -/
def Lot.ofFill (fill : Fill) : Lot where
  fillId := fill.fillId
  orderId := fill.orderId
  executionAt := fill.executionAt
  executionSession := fill.executionSession
  quantity := fill.quantity
  unitPrice := fill.price
  multiplier := fill.multiplier
  costBasis := quantize (fill.price.value * fill.quantity * fill.multiplier)

/-- The lots and what a sale realizes. -/
def applyFillLots (fill : Fill) : EStateM LedgerError LedgerBook Unit :=
  match fill.side with
  | .buy =>
    modify fun book => { book with
      lots := book.lots.set fill.contractId
        (book.lots.get fill.contractId ++ [Lot.ofFill fill]) }
  | .sell => do
      let costRemoved ← closeLots fill.contractId fill.quantity
      let proceeds := quantize (fill.price.value * fill.quantity * fill.multiplier)
      modify fun book => book.addRealized fill.contractId (proceeds - costRemoved)

def applyFillArithmetic (fill : Fill) : EStateM LedgerError LedgerBook Unit := do
  applyFillLots fill
  modify fun book => { book with
    cash := quantize (book.cash + primitiveCash fill - fill.fees.value)
    totalFees := quantize (book.totalFees + fill.fees.value)
    appliedFillIds := insert fill.fillId book.appliedFillIds }

def apply (fill : Fill) : EStateM LedgerError LedgerBook Unit := do
  let staged ← MonadExcept.ofExcept ((← get).checkFill fill)
  applyFillArithmetic fill
  modify fun book => { book with
    entries := book.entries ++ staged
    entrySeq := book.entrySeq + 2
    lastExecutionAt := some fill.executionAt
    events := book.events ++ [.fill fill] }

/-! ## Settlements -/

/-- Everything that is checked before a settlement changes the book. -/
def LedgerBook.checkSettlement (book : LedgerBook) (settlement : ExerciseSettlement) :
    Except LedgerError Unit :=
  if settlement.settlementId ∈ book.appliedSettlementIds then
    .error (.violation (.duplicateSettlement settlement.settlementId))
  else if book.Precedes settlement.ts then
    .error (.violation
      (.outOfOrderSettlement settlement.settlementId settlement.ts book.lastExecutionAt))
  else if book.quantity settlement.contractId < settlement.quantity then
    .error (.violation (.positionUnderflow settlement.contractId))
  else
    .ok ()

def settlementEntry (settlement : ExerciseSettlement) (number : ℕ) : LedgerEntry where
  entryId := entryName number
  ts := settlement.ts
  session := settlement.session
  kind := .exerciseSettlement
  amount := settlement.cash
  contractId := some settlement.contractId
  refId := settlement.settlementId

def applySettlement (settlement : ExerciseSettlement) : EStateM LedgerError LedgerBook Unit := do
  MonadExcept.ofExcept ((← get).checkSettlement settlement)
  modify fun book => { book with
    lastExecutionAt := some settlement.ts
    events := book.events ++ [.settlement settlement] }
  let costRemoved ← closeLots settlement.contractId settlement.quantity
  modify fun book =>
    book.addRealized settlement.contractId (quantize (settlement.cash.value - costRemoved))
  modify fun book => { book with
    cash := quantize (book.cash + settlement.cash.value)
    appliedSettlementIds := insert settlement.settlementId book.appliedSettlementIds
    entrySeq := book.entrySeq + 1
    entries := book.entries ++ [settlementEntry settlement (book.entrySeq + 1)] }

/-! ## What the calls do -/

/-- Every open lot is exact. -/
def LedgerBook.Exact (book : LedgerBook) : Prop :=
  ∀ contractId, ∀ lot ∈ book.lots.get contractId, lot.Exact

def LedgerBook.parcels (book : LedgerBook) (contractId : String) : Fifo.Queue ℚ :=
  (book.lots.get contractId).map Lot.parcel

theorem LedgerBook.units_parcels (book : LedgerBook) (contractId : String) :
    Fifo.units (book.parcels contractId) = book.quantity contractId :=
  Lot.units_parcel _

theorem LedgerBook.take_parcels_mem (book : LedgerBook) (contractId : String) (quantity : ℕ) :
    (Fifo.take (book.parcels contractId) quantity).1 ∈ cents := by
  refine Fifo.take_mem cents.toAddSubmonoid ?_ quantity
  intro parcel member
  obtain ⟨lot, -, rfl⟩ := List.mem_map.mp member
  exact mul_natCast_mem lot.unitPrice.whole lot.multiplier

/-- The lot of a purchase is added at the end. -/
def LedgerBook.buy (book : LedgerBook) (fill : Fill) : LedgerBook :=
  { book with
    lots := book.lots.set fill.contractId (book.lots.get fill.contractId ++ [Lot.ofFill fill]) }

def LedgerBook.Closed (book : LedgerBook) (contractId : String) (quantity : ℕ) (proceeds : ℚ)
    (lotted : LedgerBook) : Prop :=
  ∃ left : List Lot,
    left.map Lot.parcel = (Fifo.take (book.parcels contractId) quantity).2 ∧
    (∀ lot ∈ left, lot.Exact) ∧
    lotted = { book with lots := book.lots.set contractId left }.addRealized contractId
      (proceeds - (Fifo.take (book.parcels contractId) quantity).1)

/-- What a fill adds to a book once its lots are done. -/
def LedgerBook.addFill (book : LedgerBook) (fill : Fill) (staged : List LedgerEntry) :
    LedgerBook :=
  { book with
    cash := quantize (book.cash + primitiveCash fill - fill.fees.value)
    totalFees := quantize (book.totalFees + fill.fees.value)
    appliedFillIds := insert fill.fillId book.appliedFillIds
    entries := book.entries ++ staged
    entrySeq := book.entrySeq + 2
    lastExecutionAt := some fill.executionAt
    events := book.events ++ [.fill fill] }

/-- What a settlement adds to a book once its lots are done. -/
def LedgerBook.addSettlement (book : LedgerBook) (settlement : ExerciseSettlement) :
    LedgerBook :=
  { book with
    cash := quantize (book.cash + settlement.cash.value)
    appliedSettlementIds := insert settlement.settlementId book.appliedSettlementIds
    entries := book.entries ++ [settlementEntry settlement (book.entrySeq + 1)]
    entrySeq := book.entrySeq + 1
    lastExecutionAt := some settlement.ts
    events := book.events ++ [.settlement settlement] }

theorem closeLots_run {book : LedgerBook} {contractId : String} {quantity : ℕ}
    (exact : ∀ lot ∈ book.lots.get contractId, lot.Exact)
    (held : quantity ≤ book.quantity contractId) :
    ∃ left : List Lot,
      left.map Lot.parcel = (Fifo.take (book.parcels contractId) quantity).2 ∧
      (∀ lot ∈ left, lot.Exact) ∧
      (closeLots contractId quantity).run book =
        .ok (Fifo.take (book.parcels contractId) quantity).1
          { book with lots := book.lots.set contractId left } := by
  obtain ⟨left, walked, parcels, exact'⟩ := walkLots_eq held exact 0
  refine ⟨left, parcels, exact', ?_⟩
  simp only [closeLots, EStateM.run_bind, EStateM.run_get, EStateM.run_modify, walked, if_true,
    zero_add]
  rfl

theorem run_ofExcept_ok {Value : Type} {checked : Except LedgerError Value} {value : Value}
    (passed : checked = .ok value) (book : LedgerBook) :
    (MonadExcept.ofExcept checked : EStateM LedgerError LedgerBook Value).run book =
      .ok value book := by
  rw [passed]
  rfl

theorem run_ofExcept_error {Value : Type} {checked : Except LedgerError Value}
    {error : LedgerError} (refused : checked = .error error) (book : LedgerBook) :
    (MonadExcept.ofExcept checked : EStateM LedgerError LedgerBook Value).run book =
      .error error book := by
  rw [refused]
  rfl

theorem LedgerBook.checkFill_ok {fill : Fill} {staged : List LedgerEntry}
    (passed : book.checkFill fill = .ok staged) :
    fill.fillId ∉ book.appliedFillIds ∧ ¬ book.Precedes fill.executionAt ∧
      (fill.side = .sell → fill.quantity ≤ book.quantity fill.contractId) ∧
      book.stageFillEntries fill = .ok staged := by
  revert passed
  fun_cases LedgerBook.checkFill book fill with
  | case4 fresh ordered held =>
    exact fun passed => ⟨fresh, ordered, fun sells => not_lt.mp (held ⟨sells, ·⟩), passed⟩
  | _ => exact nofun

theorem LedgerBook.checkSettlement_ok {settlement : ExerciseSettlement}
    (passed : book.checkSettlement settlement = .ok ()) :
    settlement.settlementId ∉ book.appliedSettlementIds ∧ ¬ book.Precedes settlement.ts ∧
      settlement.quantity ≤ book.quantity settlement.contractId := by
  revert passed
  fun_cases LedgerBook.checkSettlement book settlement with
  | case4 fresh ordered held => exact fun _ => ⟨fresh, ordered, not_lt.mp held⟩
  | _ => exact nofun

/-- **A fill is refused and changes nothing, or its lots are done and it is added.** -/
theorem apply_cases (exact : book.Exact) (fill : Fill) :
    (∃ error, book.checkFill fill = .error error ∧ (apply fill).run book = .error error book) ∨
    ∃ staged lotted, book.checkFill fill = .ok staged ∧
      (fill.side = .buy ∧ lotted = book.buy fill ∨
        fill.side = .sell ∧ book.Closed fill.contractId fill.quantity (primitiveCash fill) lotted) ∧
      (apply fill).run book = .ok () (lotted.addFill fill staged) := by
  cases checked : book.checkFill fill with
  | error error =>
    refine .inl ⟨error, rfl, ?_⟩
    rw [apply, EStateM.run_bind, EStateM.run_get]
    dsimp only
    rw [EStateM.run_bind, run_ofExcept_error checked]
  | ok staged =>
    obtain ⟨-, -, held, -⟩ := LedgerBook.checkFill_ok checked
    suffices lots : ∃ lotted, (fill.side = .buy ∧ lotted = book.buy fill ∨
        fill.side = .sell ∧
          book.Closed fill.contractId fill.quantity (primitiveCash fill) lotted) ∧
        (applyFillLots fill).run book = .ok () lotted by
      obtain ⟨lotted, how, ran⟩ := lots
      refine .inr ⟨staged, lotted, rfl, how, ?_⟩
      simp only [apply, applyFillArithmetic, EStateM.run_bind, EStateM.run_get,
        run_ofExcept_ok checked, ran, EStateM.run_modify]
      rfl
    cases side : fill.side with
    | buy =>
      refine ⟨book.buy fill, .inl ⟨rfl, rfl⟩, ?_⟩
      rw [applyFillLots, side]
      rfl
    | sell =>
      obtain ⟨left, parcels, exact', ran⟩ := closeLots_run (exact _) (held side)
      refine ⟨_, .inr ⟨rfl, left, parcels, exact', rfl⟩, ?_⟩
      simp [applyFillLots, side, ran, primitiveCash]

/-- **A settlement is refused and changes nothing, or its lots are closed and it is
added.** -/
theorem applySettlement_cases (exact : book.Exact) (settlement : ExerciseSettlement) :
    (∃ error, book.checkSettlement settlement = .error error ∧
        (applySettlement settlement).run book = .error error book) ∨
    ∃ lotted, book.checkSettlement settlement = .ok () ∧
      book.Closed settlement.contractId settlement.quantity settlement.cash.value lotted ∧
      (applySettlement settlement).run book = .ok () (lotted.addSettlement settlement) := by
  cases checked : book.checkSettlement settlement with
  | error error =>
    refine .inl ⟨error, rfl, ?_⟩
    rw [applySettlement, EStateM.run_bind, EStateM.run_get]
    dsimp only
    rw [EStateM.run_bind, run_ofExcept_error checked]
  | ok =>
    obtain ⟨-, -, held⟩ := LedgerBook.checkSettlement_ok checked
    let noted : LedgerBook := { book with
      lastExecutionAt := some settlement.ts
      events := book.events ++ [.settlement settlement] }
    obtain ⟨left, parcels, exact', ran⟩ :=
      @closeLots_run noted _ _ (exact settlement.contractId) held
    refine .inr ⟨_, rfl, ⟨left, parcels, exact', rfl⟩, ?_⟩
    have gain : quantize (settlement.cash.value -
          (Fifo.take (noted.parcels settlement.contractId) settlement.quantity).1) =
        settlement.cash.value -
          (Fifo.take (book.parcels settlement.contractId) settlement.quantity).1 :=
      quantize_of_mem (sub_mem settlement.cash.whole (book.take_parcels_mem ..))
    simp only [applySettlement, EStateM.run_bind, EStateM.run_get, run_ofExcept_ok checked,
      EStateM.run_modify, noted, ran, gain]
    rfl

end TreeOptions.Ledger
