import TreeOptions.Foundations.Checked
import TreeOptions.Ledger.Conservation

/-!
# Minting a fill

A fill is built from fields that its schema checks: a quantity of at least one, a positive
price and fees that are not negative, both in whole cents and of a bounded size. A book that
accepts the fill has the cash it had, with the amount of the fill and without its fees
(`LedgerBook.cash_of_apply`).

The quantity that a book holds of a contract is what its events bought of it, less what they
sold and settled (`LedgerBook.Sound.netQuantity_eq`).
-/

set_option autoImplicit false

namespace TreeOptions.Ledger

open Decimal

/-! ## Fills -/

/-- A price as the schema checks it. -/
def Price.ofRat? (amount : ℚ) : Option Price :=
  if checked : 0 < amount ∧ amount ∈ cents ∧ amount < 10 ^ 10 then
    some ⟨amount, checked.1, checked.2.1, checked.2.2⟩
  else none

theorem Price.value_of_ofRat? {amount : ℚ} {price : Price}
    (checked : Price.ofRat? amount = some price) : price.value = amount := by
  rw [Price.ofRat?] at checked
  split at checked
  case isTrue => rw [← Option.some.inj checked]
  case isFalse => cases checked

/-- A fill as its schema checks it. -/
def Fill.mint? (fillId orderId contractId : String) (side : Side) (quantity : ℕ) (price : ℚ)
    (multiplier : ℕ) (fees : ℚ) (executionAt executionSession : ℤ) : Option Fill :=
  match Price.ofRat? price, Money.ofRat? fees with
  | some price, some fees =>
    if checked : 1 ≤ quantity ∧ 1 ≤ multiplier ∧ 0 ≤ fees.value then
      some
        { fillId, orderId, contractId, side, quantity
          quantity_pos := checked.1
          price, multiplier
          multiplier_pos := checked.2.1
          fees
          fees_nonneg := checked.2.2
          executionAt, executionSession }
    else none
  | _, _ => none

/-- What a minted fill says. -/
structure Fill.MintedFrom (fill : Fill) (fillId orderId contractId : String) (side : Side)
    (quantity : ℕ) (price : ℚ) (multiplier : ℕ) (fees : ℚ) (executionAt executionSession : ℤ) :
    Prop where
  fillId_eq : fill.fillId = fillId
  orderId_eq : fill.orderId = orderId
  contractId_eq : fill.contractId = contractId
  side_eq : fill.side = side
  quantity_eq : fill.quantity = quantity
  price_eq : fill.price.value = price
  multiplier_eq : fill.multiplier = multiplier
  fees_eq : fill.fees.value = fees
  executionAt_eq : fill.executionAt = executionAt
  executionSession_eq : fill.executionSession = executionSession

theorem Fill.mintedFrom {fillId orderId contractId : String} {side : Side} {quantity : ℕ}
    {price : ℚ} {multiplier : ℕ} {fees : ℚ} {executionAt executionSession : ℤ} {fill : Fill}
    (minted : mint? fillId orderId contractId side quantity price multiplier fees executionAt
      executionSession = some fill) :
    fill.MintedFrom fillId orderId contractId side quantity price multiplier fees executionAt
      executionSession := by
  rw [mint?] at minted
  split at minted
  case h_1 priced paid isPrice isFees =>
    split at minted
    case isTrue =>
      cases minted
      exact ⟨rfl, rfl, rfl, rfl, rfl, Price.value_of_ofRat? isPrice, rfl,
        Money.value_of_ofRat? isFees, rfl, rfl⟩
    case isFalse => cases minted
  case h_2 => cases minted

/-! ## The cash of a book -/

theorem LedgerBook.Sound.of_apply {book next : LedgerBook} (sound : book.Sound) {fill : Fill}
    (ran : (apply fill).run book = .ok () next) : next.Sound := by
  have kept := sound.after (.apply fill)
  rw [LedgerBook.after, Call.perform, ran] at kept
  exact kept

theorem small_of_stageEntry {number : ℕ} {ts session : ℤ} {kind : EntryKind} {amount : ℚ}
    {contractId refId : String} {entry : LedgerEntry}
    (staged : stageEntry number ts session kind amount contractId refId = .ok entry) :
    |amount| < 10 ^ 16 := by
  rw [← stageEntry_ok staged]
  exact entry.amount.small

/-- **An accepted fill pays its amount and its fees**, and the amount is small. -/
theorem LedgerBook.cash_of_apply {book next : LedgerBook} (sound : book.Sound) {fill : Fill}
    (ran : (apply fill).run book = .ok () next) :
    next.cash = book.cash + primitiveCash fill - fill.fees.value ∧
      |primitiveCash fill| < 10 ^ 16 := by
  rcases apply_cases sound.exact fill with ⟨error, -, refused⟩ | ⟨staged, lotted, passed, how, isNext⟩
  · rw [ran] at refused
    cases refused
  rw [ran] at isNext
  cases isNext
  have cash : lotted.cash = book.cash := by
    rcases how with ⟨-, rfl⟩ | ⟨-, left, -, -, rfl⟩ <;> rfl
  constructor
  · rw [LedgerBook.addFill, cash]
    exact quantize_of_mem (sub_mem (add_mem sound.cash_mem (primitiveCash_mem fill))
      fill.fees.whole)
  · obtain ⟨-, -, -, entries⟩ := LedgerBook.checkFill_ok passed
    rw [LedgerBook.stageFillEntries] at entries
    cases notional : stageEntry (book.entrySeq + 1) fill.executionAt fill.executionSession
        .fillNotional (primitiveCash fill) fill.contractId fill.fillId with
    | error error =>
      rw [notional] at entries
      cases entries
    | ok first => exact small_of_stageEntry notional

/-! ## Quantities -/

def Event.quantityDelta (contractId : String) : Event → ℤ
  | .fill minted =>
    if minted.contractId = contractId then
      match minted.side with
      | .buy => minted.quantity
      | .sell => -minted.quantity
    else 0
  | .settlement exercised =>
    if exercised.contractId = contractId then -exercised.quantity else 0

/-- What the events of a book bought of a contract, less what they sold and settled. -/
def LedgerBook.netQuantity (book : LedgerBook) (contractId : String) : ℤ :=
  (book.events.map (Event.quantityDelta contractId)).sum

theorem ReplayState.close_qty {state next : ReplayState} {contractId : String} {quantity : ℕ}
    {proceeds : ℚ} (closed : state.close contractId quantity proceeds = .ok next) (other : String) :
    next.qty.get other =
      state.qty.get other + if contractId = other then -(quantity : ℤ) else 0 := by
  revert closed
  fun_cases ReplayState.close state contractId quantity proceeds with
  | case2 =>
    intro closed
    cases closed
    by_cases same : contractId = other
    · subst same
      rw [DefaultDict.get_set_self, if_pos rfl]
      ring
    · rw [DefaultDict.get_set_of_ne _ (Ne.symm same), if_neg same, add_zero]
  | _ => exact nofun

theorem ReplayState.replayEvent_qty {state next : ReplayState} {event : Event}
    (replayed : state.replayEvent event = .ok next) (contractId : String) :
    next.qty.get contractId = state.qty.get contractId + event.quantityDelta contractId := by
  cases event with
  | fill fill =>
    change state.replayFill fill = .ok next at replayed
    rw [ReplayState.replayFill] at replayed
    split at replayed
    case isTrue => cases replayed
    case isFalse =>
      cases side : fill.side with
      | buy =>
        simp only [side] at replayed
        cases replayed
        simp only [Event.quantityDelta, side, ReplayState.buy]
        by_cases same : fill.contractId = contractId
        · subst same
          rw [DefaultDict.get_set_self, if_pos rfl]
        · rw [DefaultDict.get_set_of_ne _ (Ne.symm same), if_neg same, add_zero]
      | sell =>
        simp only [side] at replayed
        simp only [Event.quantityDelta, side]
        exact ReplayState.close_qty replayed contractId
  | settlement settlement =>
    change state.replaySettlement settlement = .ok next at replayed
    rw [ReplayState.replaySettlement] at replayed
    split at replayed
    case isTrue => cases replayed
    case isFalse =>
      dsimp only at replayed
      split at replayed
      case isTrue => cases replayed
      case isFalse =>
        obtain ⟨closed, isClosed, same⟩ := Checked.bind_eq_ok.mp replayed
        cases same
        exact ReplayState.close_qty isClosed contractId

/-- **What a sound book holds is what its events bought, less what they sold and settled.** -/
theorem LedgerBook.Sound.netQuantity_eq {book : LedgerBook} (sound : book.Sound)
    (contractId : String) : book.netQuantity contractId = book.quantity contractId := by
  obtain ⟨state, replayed, agrees⟩ := sound.replayed
  rw [agrees.holds.qty contractId]
  have counted : ∀ done : List Event, ∀ last, replayEvents done = .ok last →
      (done.map (Event.quantityDelta contractId)).sum = last.qty.get contractId := by
    intro done
    induction done using List.reverseRecOn with
    | nil =>
      intro last started
      cases started
      rfl
    | append_singleton done event ih =>
      intro last ran
      rw [replayEvents, List.foldlM_append] at ran
      obtain ⟨before, isBefore, ran⟩ := Checked.bind_eq_ok.mp ran
      obtain ⟨next, isNext, ended⟩ := Checked.bind_eq_ok.mp ran
      cases ended
      rw [List.map_append, List.sum_append, List.map_singleton, List.sum_singleton,
        ih before isBefore, ReplayState.replayEvent_qty isNext]
  exact counted book.events state replayed

end TreeOptions.Ledger
