import TreeOptions.Ledger.Replay

/-!
# Conservation

Whatever calls a book receives, its cash is the initial cash, less the fees, plus what
was realized, less the cost of what is still open; its entries add up to the change of
its cash; and its replay agrees with it (`conserves_of_run`).

Each call keeps the book `Sound`. A change of the lots earns what it puts into the
cash: a purchase moves its cost from the cash into the lots, a sale or a settlement
realizes its proceeds less the cost it removed (`Lotted`). The replay follows step by
step (`Agrees`), because both walks take the same parcels. Amounts are exact here: the
digits of the source's decimal context are no limit.
-/

set_option autoImplicit false

namespace TreeOptions.Ledger

open Decimal

/-! ## Runs -/

inductive Call where
  | apply (fill : Fill)
  | applySettlement (settlement : ExerciseSettlement)

def Call.perform (call : Call) : EStateM LedgerError LedgerBook Unit :=
  match call with
  | .apply fill => Ledger.apply fill
  | .applySettlement settlement => Ledger.applySettlement settlement

/-- The book after a call, whether or not the call raised an error. -/
def LedgerBook.after (book : LedgerBook) (call : Call) : LedgerBook :=
  match call.perform.run book with
  | .ok () book => book
  | .error _ book => book

/-- The book after a sequence of calls. -/
def LedgerBook.run (initialCash : ℚ) (calls : List Call) : LedgerBook :=
  calls.foldl LedgerBook.after (.new initialCash)

/-! ## Totals -/

/-- What was realized, over all contracts. -/
def LedgerBook.realizedTotal (book : LedgerBook) : ℚ :=
  book.realized.sum id

/-- The cost basis of all open lots. -/
def LedgerBook.openBasis (book : LedgerBook) : ℚ :=
  book.lots.sum fun lots => (lots.map Lot.costBasis).sum

/-- A change of the lots and of what was realized, and of nothing else. -/
structure LedgerBook.Lotted (book : LedgerBook) (earned : ℚ) (lotted : LedgerBook) : Prop where
  exact : lotted.Exact
  earns : lotted.realizedTotal - lotted.openBasis =
    book.realizedTotal - book.openBasis + earned
  frame : lotted = { book with lots := lotted.lots, realized := lotted.realized }

theorem Lot.exact_ofFill (fill : Fill) : (Lot.ofFill fill).Exact :=
  quantize_of_mem (fill.price.mul_mem ..)

variable {book : LedgerBook} {fill : Fill}

/-- **A purchase moves its cost into the lots.** -/
theorem LedgerBook.lotted_buy (exact : book.Exact) (buys : fill.side = .buy) :
    book.Lotted (primitiveCash fill) (book.buy fill) where
  exact contractId lot member := by
    by_cases same : contractId = fill.contractId
    · subst same
      rw [buy, DefaultDict.get_set_self, List.mem_append, List.mem_singleton] at member
      rcases member with old | rfl
      · exact exact _ lot old
      · exact Lot.exact_ofFill fill
    · rw [buy, DefaultDict.get_set_of_ne _ same] at member
      exact exact contractId lot member
  earns := by
    have basis : (book.buy fill).openBasis = book.openBasis + (Lot.ofFill fill).costBasis := by
      rw [openBasis, buy, DefaultDict.sum_set _ _ _ (by rfl), List.map_append, List.sum_append,
        openBasis, List.map_singleton, List.sum_singleton]
      ring
    have paid : primitiveCash fill = -(Lot.ofFill fill).costBasis := by
      rw [primitiveCash, buys]
      rfl
    have realized : (book.buy fill).realizedTotal = book.realizedTotal := rfl
    rw [basis, paid, realized]
    ring
  frame := rfl

variable {lotted : LedgerBook}

/-- **A closed quantity realizes its proceeds less the cost it removed.** -/
theorem LedgerBook.lotted_closed (exact : book.Exact) {contractId : String} {quantity : ℕ}
    {proceeds : ℚ} (held : quantity ≤ book.quantity contractId)
    (closed : book.Closed contractId quantity proceeds lotted) : book.Lotted proceeds lotted := by
  obtain ⟨left, parcels, exact', rfl⟩ := closed
  refine ⟨?_, ?_, rfl⟩
  · intro other lot member
    by_cases same : other = contractId
    · subst same
      rw [addRealized, DefaultDict.get_set_self] at member
      exact exact' lot member
    · rw [addRealized, DefaultDict.get_set_of_ne _ same] at member
      exact exact other lot member
  · have enough : quantity ≤ Fifo.units (book.parcels contractId) := by
      rw [units_parcels]
      exact held
    have worth := Fifo.take_worth enough
    have before : Fifo.worth (book.parcels contractId) =
        ((book.lots.get contractId).map Lot.costBasis).sum :=
      Lot.worth_parcel (exact contractId)
    have after' : Fifo.worth (Fifo.take (book.parcels contractId) quantity).2 =
        (left.map Lot.costBasis).sum := by
      rw [← parcels, Lot.worth_parcel exact']
    rw [openBasis, realizedTotal, addRealized, DefaultDict.sum_set _ _ _ (by rfl),
      DefaultDict.sum_set _ _ _ (by rfl), ← before, ← after', ← worth, realizedTotal, openBasis,
      id, id]
    ring

/-! ## The replay of a change -/

structure LedgerBook.Holds (book : LedgerBook) (state : ReplayState) : Prop where
  qty : ∀ contractId, (book.quantity contractId : ℤ) = state.qty.get contractId
  realized : ∀ contractId, book.realized.get contractId = state.realized.get contractId
  parcels : ∀ contractId, book.parcels contractId = state.parcels contractId

theorem LedgerBook.Holds.buy {state : ReplayState} (holds : book.Holds state) (fill : Fill) :
    (book.buy fill).Holds (state.buy fill) where
  qty contractId := by
    by_cases same : contractId = fill.contractId
    · subst same
      rw [quantity, LedgerBook.buy, ReplayState.buy, DefaultDict.get_set_self,
        DefaultDict.get_set_self, List.map_append, List.sum_append, List.map_singleton,
        List.sum_singleton, Nat.cast_add, ← holds.qty]
      rfl
    · rw [quantity, LedgerBook.buy, ReplayState.buy, DefaultDict.get_set_of_ne _ same,
        DefaultDict.get_set_of_ne _ same, ← holds.qty]
      rfl
  realized := holds.realized
  parcels contractId := by
    by_cases same : contractId = fill.contractId
    · subst same
      have before : (book.lots.get fill.contractId).map Lot.parcel =
          (state.lots.get fill.contractId).map LotTuple.parcel :=
        holds.parcels fill.contractId
      rw [LedgerBook.parcels, LedgerBook.buy, ReplayState.parcels, ReplayState.buy,
        DefaultDict.get_set_self, DefaultDict.get_set_self, List.map_append, List.map_append,
        before]
      rfl
    · rw [LedgerBook.parcels, LedgerBook.buy, ReplayState.parcels, ReplayState.buy,
        DefaultDict.get_set_of_ne _ same, DefaultDict.get_set_of_ne _ same]
      exact holds.parcels contractId

/-- **The replay closes what the book closes.** -/
theorem LedgerBook.Holds.close {state : ReplayState} (holds : book.Holds state)
    {contractId : String} {quantity : ℕ} {proceeds : ℚ} (held : quantity ≤ book.quantity contractId)
    (whole : proceeds ∈ cents) (closed : book.Closed contractId quantity proceeds lotted) :
    ∃ state' : ReplayState, state.close contractId quantity proceeds = .ok state' ∧
      lotted.Holds state' ∧
      state' = { state with
        lots := state'.lots, realized := state'.realized, qty := state'.qty } := by
  obtain ⟨left, parcels, -, rfl⟩ := closed
  have counted : (quantity : ℤ) ≤ state.qty.get contractId := by
    rw [← holds.qty]
    exact Int.ofNat_le.mpr held
  have enough : quantity ≤ Fifo.units (state.parcels contractId) := by
    rw [← holds.parcels, units_parcels]
    exact held
  obtain ⟨tuples, parcels', ran⟩ := ReplayState.close_ok counted enough proceeds
  have gain : quantize (proceeds - (Fifo.take (state.parcels contractId) quantity).1) =
      proceeds - (Fifo.take (book.parcels contractId) quantity).1 := by
    rw [← holds.parcels]
    exact quantize_of_mem (sub_mem whole (book.take_parcels_mem ..))
  refine ⟨_, ran, ⟨?_, ?_, ?_⟩, rfl⟩
  · intro other
    by_cases same : other = contractId
    · subst same
      have units := Fifo.take_units enough
      rw [← holds.parcels, ← parcels, Lot.units_parcel, units_parcels] at units
      rw [LedgerBook.quantity, addRealized, DefaultDict.get_set_self, DefaultDict.get_set_self,
        ← holds.qty]
      omega
    · rw [LedgerBook.quantity, addRealized, DefaultDict.get_set_of_ne _ same,
        DefaultDict.get_set_of_ne _ same, ← holds.qty]
      rfl
  · intro other
    by_cases same : other = contractId
    · subst same
      rw [addRealized, DefaultDict.get_set_self, DefaultDict.get_set_self, gain, ← holds.realized]
    · rw [addRealized, DefaultDict.get_set_of_ne _ same, DefaultDict.get_set_of_ne _ same]
      exact holds.realized other
  · intro other
    by_cases same : other = contractId
    · subst same
      rw [LedgerBook.parcels, addRealized, ReplayState.parcels, DefaultDict.get_set_self,
        DefaultDict.get_set_self, parcels, parcels', holds.parcels]
    · rw [LedgerBook.parcels, addRealized, ReplayState.parcels, DefaultDict.get_set_of_ne _ same,
        DefaultDict.get_set_of_ne _ same]
      exact holds.parcels other

/-! ## Sound books -/

/-- The replay of a book's events agrees with the book. -/
structure LedgerBook.Agrees (book : LedgerBook) (state : ReplayState) : Prop where
  holds : book.Holds state
  cash : book.cash = book.initialCash + state.cash
  fees : book.totalFees = state.fees
  fillIds : book.appliedFillIds = state.seenFillIds
  settlementIds : book.appliedSettlementIds = state.seenSettlementIds

/-- What every call keeps. -/
structure LedgerBook.Sound (book : LedgerBook) : Prop where
  exact : book.Exact
  initialCash_mem : book.initialCash ∈ cents
  cash_mem : book.cash ∈ cents
  totalFees_mem : book.totalFees ∈ cents
  balanced : book.cash =
    book.initialCash - book.totalFees + book.realizedTotal - book.openBasis
  entries : book.entrySum = book.cash - book.initialCash
  replayed : ∃ state, replayEvents book.events = .ok state ∧ book.Agrees state

theorem LedgerBook.sound_new (initialCash : ℚ) : (new initialCash).Sound where
  exact _ _ member := nomatch member
  initialCash_mem := quantize_mem _
  cash_mem := quantize_mem _
  totalFees_mem := cents.zero_mem
  balanced := by
    change quantize initialCash = quantize initialCash - 0 + 0 - 0
    ring
  entries := by
    change 0 = quantize initialCash - quantize initialCash
    ring
  replayed := by
    refine ⟨.start, rfl, ⟨fun _ => rfl, fun _ => rfl, fun _ => rfl⟩, ?_, rfl, rfl, rfl⟩
    change quantize initialCash = quantize initialCash + 0
    ring

theorem replayEvents_append {events : List Event} {state : ReplayState}
    (replayed : replayEvents events = .ok state) (event : Event) :
    replayEvents (events ++ [event]) = state.replayEvent event := by
  rw [replayEvents] at replayed ⊢
  rw [List.foldlM_append, replayed]
  change [event].foldlM ReplayState.replayEvent state = state.replayEvent event
  rw [List.foldlM_cons]
  exact bind_pure _

variable {staged : List LedgerEntry}

/-- **The replay of a fill agrees with the book that it leaves.** -/
theorem LedgerBook.Agrees.replayFill {state : ReplayState} (agrees : book.Agrees state)
    (sound : book.Sound) (passed : book.checkFill fill = .ok staged)
    (how : fill.side = .buy ∧ lotted = book.buy fill ∨
      fill.side = .sell ∧ book.Closed fill.contractId fill.quantity (primitiveCash fill) lotted) :
    ∃ state', state.replayFill fill = .ok state' ∧ (lotted.addFill fill staged).Agrees state' := by
  obtain ⟨fresh, -, held, -⟩ := checkFill_ok passed
  rw [agrees.fillIds] at fresh
  let noted : ReplayState := { state with
    seenFillIds := insert fill.fillId state.seenFillIds
    cash := state.cash + (primitiveCash fill - fill.fees.value)
    fees := state.fees + fill.fees.value }
  have holds : book.Holds noted := ⟨agrees.holds.qty, agrees.holds.realized, agrees.holds.parcels⟩
  have cash : quantize (book.cash + primitiveCash fill - fill.fees.value) =
      book.initialCash + noted.cash := by
    rw [quantize_of_mem (sub_mem (add_mem sound.cash_mem (primitiveCash_mem fill))
      fill.fees.whole), agrees.cash]
    ring
  have fees : quantize (book.totalFees + fill.fees.value) = noted.fees := by
    rw [quantize_of_mem (add_mem sound.totalFees_mem fill.fees.whole), agrees.fees]
  have fillIds : insert fill.fillId book.appliedFillIds = noted.seenFillIds := by
    rw [agrees.fillIds]
  rcases how with ⟨buys, rfl⟩ | ⟨sells, closed⟩
  · have ran : state.replayFill fill = .ok (noted.buy fill) := by
      rw [ReplayState.replayFill, if_neg fresh, buys]
    have lots := holds.buy fill
    exact ⟨_, ran, ⟨lots.qty, lots.realized, lots.parcels⟩, cash, fees, fillIds,
      agrees.settlementIds⟩
  · have closes : state.replayFill fill = noted.close fill.contractId fill.quantity
        (fill.price.value * fill.quantity * fill.multiplier) := by
      rw [ReplayState.replayFill, if_neg fresh, sells]
    have proceeds : primitiveCash fill = fill.price.value * fill.quantity * fill.multiplier := by
      rw [primitiveCash, sells]
      exact quantize_of_mem (fill.price.mul_mem ..)
    obtain ⟨state', ran, lots, frame⟩ :=
      holds.close (held sells) (primitiveCash_mem fill) closed
    obtain ⟨left, -, -, rfl⟩ := closed
    rw [proceeds] at ran
    refine ⟨state', closes.trans ran, ⟨lots.qty, lots.realized, lots.parcels⟩, ?_, ?_, ?_, ?_⟩
    · rw [frame]
      exact cash
    · rw [frame]
      exact fees
    · rw [frame]
      exact fillIds
    · rw [frame]
      exact agrees.settlementIds

variable {settlement : ExerciseSettlement}

theorem LedgerBook.Agrees.replaySettlement {state : ReplayState} (agrees : book.Agrees state)
    (sound : book.Sound) (passed : book.checkSettlement settlement = .ok ())
    (closed : book.Closed settlement.contractId settlement.quantity settlement.cash.value
      lotted) : ∃ state', state.replaySettlement settlement = .ok state' ∧
      (lotted.addSettlement settlement).Agrees state' := by
  obtain ⟨fresh, -, held⟩ := checkSettlement_ok passed
  rw [agrees.settlementIds] at fresh
  let noted : ReplayState := { state with
    seenSettlementIds := insert settlement.settlementId state.seenSettlementIds }
  have holds : book.Holds noted := ⟨agrees.holds.qty, agrees.holds.realized, agrees.holds.parcels⟩
  obtain ⟨closedState, ran, lots, frame⟩ := holds.close held settlement.cash.whole closed
  obtain ⟨left, -, -, rfl⟩ := closed
  refine ⟨{ closedState with cash := closedState.cash + settlement.cash.value }, ?_,
    ⟨lots.qty, lots.realized, lots.parcels⟩, ?_, ?_, ?_, ?_⟩
  · rw [ReplayState.replaySettlement, if_neg fresh, ← settlement.cash_matches_intrinsic]
    dsimp only
    rw [if_neg (not_not_intro rfl), ran]
    rfl
  · have cash : quantize (book.cash + settlement.cash.value) =
        book.initialCash + (noted.cash + settlement.cash.value) := by
      rw [quantize_of_mem (add_mem sound.cash_mem settlement.cash.whole), agrees.cash, add_assoc]
    rw [frame]
    exact cash
  · rw [frame]
    exact agrees.fees
  · rw [frame]
    exact agrees.fillIds
  · have ids : insert settlement.settlementId book.appliedSettlementIds =
        noted.seenSettlementIds := by
      rw [agrees.settlementIds]
    rw [frame]
    exact ids

/-- **An accepted fill keeps the book sound.** -/
theorem LedgerBook.Sound.addFill (sound : book.Sound) (passed : book.checkFill fill = .ok staged)
    (how : fill.side = .buy ∧ lotted = book.buy fill ∨
      fill.side = .sell ∧ book.Closed fill.contractId fill.quantity (primitiveCash fill) lotted) :
    (lotted.addFill fill staged).Sound := by
  obtain ⟨-, -, held, stages⟩ := checkFill_ok passed
  have changed : book.Lotted (primitiveCash fill) lotted := by
    rcases how with ⟨buys, rfl⟩ | ⟨sells, closed⟩
    · exact lotted_buy sound.exact buys
    · exact lotted_closed sound.exact (held sells) closed
  obtain ⟨state, replayed, agrees⟩ := sound.replayed
  obtain ⟨state', steps, agrees'⟩ := agrees.replayFill sound passed how
  have cash_mem := sub_mem (add_mem sound.cash_mem (primitiveCash_mem fill)) fill.fees.whole
  have fees_mem := add_mem sound.totalFees_mem fill.fees.whole
  have cash : (lotted.addFill fill staged).cash =
      book.cash + primitiveCash fill - fill.fees.value := by
    rw [LedgerBook.addFill, changed.frame]
    exact quantize_of_mem cash_mem
  have fees : (lotted.addFill fill staged).totalFees = book.totalFees + fill.fees.value := by
    rw [LedgerBook.addFill, changed.frame]
    exact quantize_of_mem fees_mem
  have initial : (lotted.addFill fill staged).initialCash = book.initialCash := by
    rw [LedgerBook.addFill, changed.frame]
  refine ⟨changed.exact, ?_, ?_, ?_, ?_, ?_, state', ?_, agrees'⟩
  · rw [initial]
    exact sound.initialCash_mem
  · rw [cash]
    exact cash_mem
  · rw [fees]
    exact fees_mem
  · rw [cash, fees, initial, sound.balanced]
    change _ = book.initialCash - (book.totalFees + fill.fees.value) + lotted.realizedTotal -
      lotted.openBasis
    linarith [changed.earns]
  · have entries : (lotted.addFill fill staged).entrySum =
        book.entrySum + (primitiveCash fill - fill.fees.value) := by
      rw [LedgerBook.addFill, changed.frame, entrySum, List.map_append, List.sum_append,
        sum_stageFillEntries stages, entrySum]
    rw [entries, cash, initial, sound.entries]
    ring
  · have events : (lotted.addFill fill staged).events = book.events ++ [.fill fill] := by
      rw [LedgerBook.addFill, changed.frame]
    rw [events, replayEvents_append replayed]
    exact steps

/-- **An accepted settlement keeps the book sound.** -/
theorem LedgerBook.Sound.addSettlement (sound : book.Sound)
    (passed : book.checkSettlement settlement = .ok ())
    (closed : book.Closed settlement.contractId settlement.quantity settlement.cash.value
      lotted) : (lotted.addSettlement settlement).Sound := by
  obtain ⟨-, -, held⟩ := checkSettlement_ok passed
  have changed := lotted_closed sound.exact held closed
  obtain ⟨state, replayed, agrees⟩ := sound.replayed
  obtain ⟨state', steps, agrees'⟩ := agrees.replaySettlement sound passed closed
  have cash_mem := add_mem sound.cash_mem settlement.cash.whole
  have cash : (lotted.addSettlement settlement).cash = book.cash + settlement.cash.value := by
    rw [LedgerBook.addSettlement, changed.frame]
    exact quantize_of_mem cash_mem
  have fees : (lotted.addSettlement settlement).totalFees = book.totalFees := by
    rw [LedgerBook.addSettlement, changed.frame]
  have initial : (lotted.addSettlement settlement).initialCash = book.initialCash := by
    rw [LedgerBook.addSettlement, changed.frame]
  refine ⟨changed.exact, ?_, ?_, ?_, ?_, ?_, state', ?_, agrees'⟩
  · rw [initial]
    exact sound.initialCash_mem
  · rw [cash]
    exact cash_mem
  · rw [fees]
    exact sound.totalFees_mem
  · rw [cash, fees, initial, sound.balanced]
    change _ = book.initialCash - book.totalFees + lotted.realizedTotal - lotted.openBasis
    linarith [changed.earns]
  · have entries : (lotted.addSettlement settlement).entrySum =
        book.entrySum + settlement.cash.value := by
      rw [LedgerBook.addSettlement, changed.frame, entrySum, List.map_append, List.sum_append,
        List.map_singleton, List.sum_singleton, settlementEntry, entrySum]
    rw [entries, cash, initial, sound.entries]
    ring
  · have events : (lotted.addSettlement settlement).events =
        book.events ++ [.settlement settlement] := by
      rw [LedgerBook.addSettlement, changed.frame]
    rw [events, replayEvents_append replayed]
    exact steps

/-- **Every call keeps the book sound.** -/
theorem LedgerBook.Sound.after (sound : book.Sound) (call : Call) : (book.after call).Sound := by
  cases call with
  | apply fill =>
    rcases apply_cases sound.exact fill with ⟨error, -, refused⟩ | ⟨staged, lotted, passed, how, ran⟩
    · rw [LedgerBook.after, Call.perform, refused]
      exact sound
    · rw [LedgerBook.after, Call.perform, ran]
      exact sound.addFill passed how
  | applySettlement settlement =>
    rcases applySettlement_cases sound.exact settlement with
      ⟨error, -, refused⟩ | ⟨lotted, passed, closed, ran⟩
    · rw [LedgerBook.after, Call.perform, refused]
      exact sound
    · rw [LedgerBook.after, Call.perform, ran]
      exact sound.addSettlement passed closed

theorem forM_ok {Value Error : Type} {values : List Value} {check : Value → Except Error Unit}
    (passes : ∀ value, check value = .ok ()) : values.forM check = .ok () := by
  induction values with
  | nil => rfl
  | cons value rest ih =>
    change (do
      check value
      rest.forM check) = _
    rw [passes value]
    exact ih

theorem expectEqual_ok {Value : Type} [DecidableEq Value] {value expected : Value}
    (equal : value = expected) (violation : LedgerViolation) :
    expectEqual value expected violation = .ok () :=
  if_neg (not_not_intro equal)

/-- **A sound book passes its check.** -/
theorem LedgerBook.Sound.assertConservation (sound : book.Sound) :
    book.assertConservation = .ok () := by
  obtain ⟨state, replayed, agrees⟩ := sound.replayed
  have delta : state.cash = book.cash - book.initialCash := by
    rw [agrees.cash]
    ring
  have cash : quantize state.cash = book.cash - book.initialCash := by
    rw [delta]
    exact quantize_of_mem (sub_mem sound.cash_mem sound.initialCash_mem)
  have expected : book.cash = quantize (book.initialCash + quantize state.cash) := by
    rw [cash, add_sub_cancel, quantize_of_mem sound.cash_mem]
  have fees : book.totalFees = quantize state.fees := by
    rw [← agrees.fees, quantize_of_mem sound.totalFees_mem]
  have entries : quantize book.entrySum = quantize state.cash := by
    rw [sound.entries, delta]
  have result : replay book.events =
      .ok ⟨quantize state.cash, quantize state.fees, state.qty, state.realized⟩ := by
    rw [replay, replayed]
    rfl
  rw [LedgerBook.assertConservation, result]
  change (do
    expectEqual book.cash _ _
    expectEqual book.totalFees _ _
    state.qty.keys.forM _
    state.realized.keys.forM _
    expectEqual _ _ _) = _
  rw [expectEqual_ok expected, expectEqual_ok fees,
    forM_ok fun contractId => expectEqual_ok (agrees.holds.qty contractId) _,
    forM_ok fun contractId => expectEqual_ok (agrees.holds.realized contractId) _,
    expectEqual_ok entries]
  rfl

end TreeOptions.Ledger
