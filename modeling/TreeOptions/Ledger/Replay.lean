import TreeOptions.Ledger.Book

/-!
# The replay of a book's events

`replay` recomputes cash, fees, quantities and realized amounts from the accepted
events alone. It walks its own lots, which are bare triples, and computes the cash of a
settlement again. `assertConservation` compares the book with it.

The walk over the triples takes what `Fifo.take` takes from their parcels
(`walkTuples_eq`), so that it does what the book's walk does whenever the parcels are
the same.
-/

set_option autoImplicit false

namespace TreeOptions.Ledger

open Decimal

/-- A lot of the replay: quantity, price, multiplier. -/
abbrev LotTuple :=
  ℕ × Price × ℕ

structure ReplayState where
  cash : ℚ
  fees : ℚ
  qty : DefaultDict String (0 : ℤ)
  realized : DefaultDict String (0 : ℚ)
  lots : DefaultDict String ([] : List LotTuple)
  seenFillIds : Finset String
  seenSettlementIds : Finset String

def ReplayState.start : ReplayState :=
  ⟨0, 0, .empty, .empty, .empty, ∅, ∅⟩

structure ReplayResult where
  cashDelta : ℚ
  fees : ℚ
  quantities : DefaultDict String (0 : ℤ)
  realized : DefaultDict String (0 : ℚ)

/-! ## The walk over the triples -/

/-- The units of a lot, each worth the price of what one contract delivers. -/
def LotTuple.parcel (lot : LotTuple) : ℕ × ℚ :=
  (lot.1, lot.2.1.value * lot.2.2)

/-- The walk over the lots of a contract: the cost it removed, the lots it left, and what
remained when it ran out of lots. -/
def walkTuples : List LotTuple → ℕ → ℚ → ℚ × List LotTuple × ℕ
  | lots, 0, costRemoved => (costRemoved, lots, 0)
  | [], remaining + 1, costRemoved => (costRemoved, [], remaining + 1)
  | (headQty, headPrice, headMult) :: rest, remaining + 1, costRemoved =>
    let taken := min headQty (remaining + 1)
    let costRemoved := costRemoved + headPrice.value * taken * headMult
    if headQty - taken = 0 then
      walkTuples rest (remaining + 1 - taken) costRemoved
    else
      (costRemoved, (headQty - taken, headPrice, headMult) :: rest, remaining + 1 - taken)

theorem walkTuples_of_lt {held wanted : ℕ} (some' : 0 < wanted) (enough : wanted < held)
    (price : Price) (multiplier : ℕ) (rest : List LotTuple) (costRemoved : ℚ) :
    walkTuples ((held, price, multiplier) :: rest) wanted costRemoved =
      (costRemoved + price.value * wanted * multiplier,
        (held - wanted, price, multiplier) :: rest, 0) := by
  obtain ⟨remaining, rfl⟩ := Nat.exists_eq_succ_of_ne_zero (Nat.ne_of_gt some')
  have taken : min held (remaining + 1) = remaining + 1 := Nat.min_eq_right (Nat.le_of_lt enough)
  have outlasts : held - (remaining + 1) ≠ 0 := Nat.ne_of_gt (Nat.sub_pos_of_lt enough)
  simp [walkTuples, taken, if_neg outlasts]

theorem walkTuples_of_le {held wanted : ℕ} (some' : 0 < wanted) (short : held ≤ wanted)
    (price : Price) (multiplier : ℕ) (rest : List LotTuple) (costRemoved : ℚ) :
    walkTuples ((held, price, multiplier) :: rest) wanted costRemoved =
      walkTuples rest (wanted - held) (costRemoved + price.value * held * multiplier) := by
  obtain ⟨remaining, rfl⟩ := Nat.exists_eq_succ_of_ne_zero (Nat.ne_of_gt some')
  have taken : min held (remaining + 1) = held := Nat.min_eq_left short
  simp [walkTuples, taken]

/-- **The walk removes what a queue of the triples' parcels gives up.** -/
theorem walkTuples_eq {lots : List LotTuple} {remaining : ℕ}
    (held : remaining ≤ Fifo.units (lots.map LotTuple.parcel)) (costRemoved : ℚ) :
    ∃ left, walkTuples lots remaining costRemoved =
        (costRemoved + (Fifo.take (lots.map LotTuple.parcel) remaining).1, left, 0) ∧
      left.map LotTuple.parcel = (Fifo.take (lots.map LotTuple.parcel) remaining).2 := by
  induction lots generalizing remaining costRemoved with
  | nil =>
    obtain rfl := Nat.le_zero.mp held
    exact ⟨[], by rw [walkTuples, Fifo.take_zero, add_zero], rfl⟩
  | cons head rest ih =>
    rcases Nat.eq_zero_or_pos remaining with rfl | some'
    · exact ⟨head :: rest, by rw [walkTuples, Fifo.take_zero, add_zero], rfl⟩
    obtain ⟨size, price, multiplier⟩ := head
    rw [List.map_cons, LotTuple.parcel] at held ⊢
    rcases Nat.lt_or_ge remaining size with enough | short
    · refine ⟨(size - remaining, price, multiplier) :: rest, ?_, ?_⟩
      · rw [walkTuples_of_lt some' enough, Fifo.take_of_lt enough, nsmul_eq_mul]
        ring_nf
      · rw [Fifo.take_of_lt enough]
        rfl
    · rw [Fifo.units_cons] at held
      obtain ⟨left, walked, parcels⟩ := @ih (remaining - size) (by omega)
        (costRemoved + price.value * size * multiplier)
      refine ⟨left, ?_, ?_⟩
      · rw [walkTuples_of_le some' short, walked, Fifo.take_of_le short some', nsmul_eq_mul]
        ring_nf
      · rw [parcels, Fifo.take_of_le short some']

def ReplayState.close (state : ReplayState) (contractId : String) (quantity : ℕ)
    (proceeds : ℚ) : Except LedgerError ReplayState :=
  if state.qty.get contractId < quantity then
    .error (.violation (.positionUnderflow contractId))
  else
    let (costRemoved, left, remaining) := walkTuples (state.lots.get contractId) quantity 0
    if remaining = 0 then
      .ok { state with
        lots := state.lots.set contractId left
        realized := state.realized.set contractId
          (state.realized.get contractId + quantize (proceeds - costRemoved))
        qty := state.qty.set contractId (state.qty.get contractId - quantity) }
    else
      .error .indexError

def ReplayState.parcels (state : ReplayState) (contractId : String) : Fifo.Queue ℚ :=
  (state.lots.get contractId).map LotTuple.parcel

theorem ReplayState.close_ok {state : ReplayState} {contractId : String} {quantity : ℕ}
    (counted : (quantity : ℤ) ≤ state.qty.get contractId)
    (held : quantity ≤ Fifo.units (state.parcels contractId)) (proceeds : ℚ) :
    ∃ left : List LotTuple,
      left.map LotTuple.parcel = (Fifo.take (state.parcels contractId) quantity).2 ∧
      state.close contractId quantity proceeds = .ok { state with
        lots := state.lots.set contractId left
        realized := state.realized.set contractId (state.realized.get contractId +
          quantize (proceeds - (Fifo.take (state.parcels contractId) quantity).1))
        qty := state.qty.set contractId (state.qty.get contractId - quantity) } := by
  obtain ⟨left, walked, parcels⟩ := walkTuples_eq held 0
  refine ⟨left, parcels, ?_⟩
  rw [close, if_neg (Int.not_lt.mpr counted), walked]
  simp [ReplayState.parcels]

/-! ## Events -/

def ReplayState.buy (state : ReplayState) (fill : Fill) : ReplayState :=
  { state with
    qty := state.qty.set fill.contractId (state.qty.get fill.contractId + fill.quantity)
    lots := state.lots.set fill.contractId
      (state.lots.get fill.contractId ++ [(fill.quantity, fill.price, fill.multiplier)]) }

def ReplayState.replayFill (state : ReplayState) (fill : Fill) :
    Except LedgerError ReplayState :=
  if fill.fillId ∈ state.seenFillIds then
    .error (.violation (.duplicateFill fill.fillId))
  else
    let state := { state with
      seenFillIds := insert fill.fillId state.seenFillIds
      cash := state.cash + (primitiveCash fill - fill.fees.value)
      fees := state.fees + fill.fees.value }
    match fill.side with
    | .buy => .ok (state.buy fill)
    | .sell =>
      state.close fill.contractId fill.quantity
        (fill.price.value * fill.quantity * fill.multiplier)

def ReplayState.replaySettlement (state : ReplayState) (settlement : ExerciseSettlement) :
    Except LedgerError ReplayState :=
  if settlement.settlementId ∈ state.seenSettlementIds then
    .error (.violation (.duplicateSettlement settlement.settlementId))
  else
    let state := { state with
      seenSettlementIds := insert settlement.settlementId state.seenSettlementIds }
    let recomputedCash := quantize
      (intrinsicValue settlement.callPut settlement.strike.value settlement.settlementPrice.value *
        settlement.quantity * settlement.multiplier)
    if recomputedCash ≠ settlement.cash.value then
      .error (.violation (.settlementCashMismatch settlement.settlementId settlement.cash.value
        recomputedCash))
    else do
      let state ← state.close settlement.contractId settlement.quantity recomputedCash
      return { state with cash := state.cash + recomputedCash }

def ReplayState.replayEvent (state : ReplayState) (event : Event) :
    Except LedgerError ReplayState :=
  match event with
  | .fill fill => state.replayFill fill
  | .settlement settlement => state.replaySettlement settlement

def replayEvents (events : List Event) : Except LedgerError ReplayState :=
  events.foldlM ReplayState.replayEvent .start

def replay (events : List Event) : Except LedgerError ReplayResult := do
  let state ← replayEvents events
  return ⟨quantize state.cash, quantize state.fees, state.qty, state.realized⟩

/-! ## The check of a book -/

/-- Raise the violation unless two values are equal. -/
def expectEqual {Value : Type} [DecidableEq Value] (value expected : Value)
    (violation : LedgerViolation) : Except LedgerError Unit :=
  if value ≠ expected then .error (.violation violation) else .ok ()

def LedgerBook.entrySum (book : LedgerBook) : ℚ :=
  (book.entries.map fun entry => entry.amount.value).sum

def LedgerBook.assertConservation (book : LedgerBook) : Except LedgerError Unit := do
  let result ← replay book.events
  let expectedCash := quantize (book.initialCash + result.cashDelta)
  expectEqual book.cash expectedCash (.cashMismatch book.cash expectedCash)
  expectEqual book.totalFees result.fees (.feeMismatch book.totalFees result.fees)
  result.quantities.keys.forM fun contractId =>
    expectEqual (book.quantity contractId : ℤ) (result.quantities.get contractId)
      (.positionMismatch contractId)
  result.realized.keys.forM fun contractId =>
    expectEqual (book.realized.get contractId) (result.realized.get contractId)
      (.realizedMismatch contractId)
  let entrySum := quantize book.entrySum
  expectEqual entrySum result.cashDelta (.entryMismatch entrySum result.cashDelta)

end TreeOptions.Ledger
