import TreeOptions.Options.Runs

/-!
# Positions and the ledger

Where every sale finds enough in its quote, every election is of all that is held, and no contract
is open after its expiration, the open positions are the contracts that the ledger holds, and the
events of a contract are those of its closed rows, trip by trip, followed by the entry that is open
(`RowByRow`).

A sale may fill less than it was ordered for. The row is closed all the same, and what is left of
the contract is held without one.
-/

set_option autoImplicit false

namespace TreeOptions.Options

open Backtest Checked Decimal Ledger

variable {Snapshot : Type} {input : OptionsInput Snapshot} {session instant : ℤ}
  {state next : OptionsState}

/-! ## Round trips -/

structure Trip where
  entry : Fill
  closing : Event

def Trip.events (trip : Trip) : List Event :=
  [.fill trip.entry, trip.closing]

/-- The closing event of a row is of the whole quantity that its entry bought. -/
structure Trip.Whole (trip : Trip) (row : PositionRow) : Prop where
  buys : trip.entry.side = .buy
  entryId : row.position.entryFillId = trip.entry.fillId
  closes : trip.closing.closes = some trip.entry.quantity
  exitId : ∃ exit, row.exit = some exit ∧ exit.fillId = fillIdOf trip.closing

structure EntryOf (entry : Fill) (position : OpenPosition) : Prop where
  buys : entry.side = .buy
  entryId : position.entryFillId = entry.fillId

def OptionsState.eventsOf (state : OptionsState) (contractId : String) : List Event :=
  state.ledger.events.filter fun event => event.contractId = contractId

def OptionsState.rowsOf (state : OptionsState) (contractId : String) : List PositionRow :=
  state.closedRows.filter fun row => row.position.contractId = contractId

def OptionsState.positionsOf (state : OptionsState) (contractId : String) : List OpenPosition :=
  state.openPositions.filter fun position => position.contractId = contractId

/-- The events of a contract are its closed rows and its open positions. -/
def RowByRow (state : OptionsState) (contractId : String) : Prop :=
  ∃ trips entries,
    state.eventsOf contractId = trips.flatMap Trip.events ++ entries.map Event.fill ∧
    List.Forall₂ Trip.Whole trips (state.rowsOf contractId) ∧
    List.Forall₂ EntryOf entries (state.positionsOf contractId)

/-! ## Quantities -/

theorem quantityDelta_entry {contractId : String} {entry : Fill}
    (on : (Event.fill entry).contractId = contractId) (buys : entry.side = .buy) :
    (Event.fill entry).quantityDelta contractId = entry.quantity := by
  have named : entry.contractId = contractId := on
  rw [Event.quantityDelta, if_pos named, buys]

/-- A round trip leaves nothing. -/
theorem sum_trips {contractId : String} {trips : List Trip} {rows : List PositionRow}
    (whole : List.Forall₂ Trip.Whole trips rows)
    (on : ∀ event ∈ trips.flatMap Trip.events, event.contractId = contractId) :
    ((trips.flatMap Trip.events).map (Event.quantityDelta contractId)).sum = 0 := by
  induction whole with
  | nil => rfl
  | @cons trip row trips rows first rest ih =>
    rw [List.flatMap_cons] at on ⊢
    have closing := on trip.closing (List.mem_append_left _ (by simp [Trip.events]))
    have entry := on (.fill trip.entry) (List.mem_append_left _ (by simp [Trip.events]))
    have closed := Event.quantityDelta_closes first.closes
    rw [closing] at closed
    rw [List.map_append, List.sum_append,
      ih fun event isMember => on event (List.mem_append_right _ isMember), add_zero, Trip.events,
      List.map_cons, List.map_singleton, List.sum_cons, List.sum_singleton,
      quantityDelta_entry entry first.buys, closed, add_neg_cancel]

theorem sum_entries {contractId : String} {entries : List Fill} {positions : List OpenPosition}
    (each : List.Forall₂ EntryOf entries positions)
    (on : ∀ event ∈ entries.map Event.fill, event.contractId = contractId) :
    ((entries.map Event.fill).map (Event.quantityDelta contractId)).sum =
      ((entries.map Fill.quantity).sum : ℕ) := by
  induction each with
  | nil => rfl
  | @cons entry position entries positions first rest ih =>
    rw [List.map_cons] at on ⊢
    rw [List.map_cons, List.sum_cons, List.map_cons, List.sum_cons,
      quantityDelta_entry (on _ List.mem_cons_self) first.buys,
      ih (List.forall_mem_cons.mp on).2, Nat.cast_add]

theorem netQuantity_eventsOf (state : OptionsState) (contractId : String) :
    state.ledger.netQuantity contractId =
      ((state.eventsOf contractId).map (Event.quantityDelta contractId)).sum := by
  rw [LedgerBook.netQuantity, OptionsState.eventsOf]
  induction state.ledger.events with
  | nil => rfl
  | cons event rest ih =>
    by_cases on : event.contractId = contractId
    · rw [List.filter_cons_of_pos (by simpa using on), List.map_cons, List.map_cons,
        List.sum_cons, List.sum_cons, ih]
    · rw [List.filter_cons_of_neg (by simpa using on), List.map_cons, List.sum_cons, ih,
        Event.quantityDelta_of_ne on, zero_add]

/-- **What is held of a contract is what its open entries bought.** -/
theorem quantity_of_rowByRow (sound : state.ledger.Sound) {contractId : String} {trips : List Trip}
    {entries : List Fill}
    (events : state.eventsOf contractId = trips.flatMap Trip.events ++ entries.map Event.fill)
    (whole : List.Forall₂ Trip.Whole trips (state.rowsOf contractId))
    (each : List.Forall₂ EntryOf entries (state.positionsOf contractId)) :
    state.ledger.quantity contractId = (entries.map Fill.quantity).sum := by
  have on : ∀ event ∈ trips.flatMap Trip.events ++ entries.map Event.fill,
      event.contractId = contractId := by
    intro event isMember
    rw [← events, OptionsState.eventsOf] at isMember
    simpa using (List.mem_filter.mp isMember).2
  have net := sound.netQuantity_eq contractId
  rw [netQuantity_eventsOf, events, List.map_append, List.sum_append,
    sum_trips whole fun event isMember => on event (List.mem_append_left _ isMember),
    sum_entries each fun event isMember => on event (List.mem_append_right _ isMember),
    zero_add] at net
  exact (Int.ofNat_inj.mp net).symm

theorem Ready.positionsOf_cases (ready : Ready input state) (contractId : String) :
    state.positionsOf contractId = [] ∨
      ∃ position, state.positionsOf contractId = [position] ∧
        state.position? contractId = some position := by
  have once : ((state.positionsOf contractId).map OpenPosition.contractId).Nodup :=
    ready.distinct.sublist (List.filter_sublist.map _)
  have found : state.position? contractId = (state.positionsOf contractId).head? := by
    rw [OptionsState.position?, OptionsState.positionsOf, List.head?_filter]
  have on : ∀ position ∈ state.positionsOf contractId, position.contractId = contractId := by
    intro position isMember
    simpa using (List.mem_filter.mp isMember).2
  generalize state.positionsOf contractId = positions at once found on
  cases positions with
  | nil => exact .inl rfl
  | cons first others =>
    cases others with
    | nil => exact .inr ⟨first, rfl, found⟩
    | cons second rest =>
      rw [List.map_cons, List.map_cons, on first (by simp), on second (by simp)] at once
      simp at once

theorem isOpen_iff_held (ready : Ready input state) {contractId : String}
    (rows : RowByRow state contractId) :
    contractId ∈ state.openPositions.map OpenPosition.contractId ↔
      1 ≤ state.ledger.quantity contractId := by
  obtain ⟨trips, entries, events, whole, each⟩ := rows
  rw [quantity_of_rowByRow ready.sound events whole each]
  have isOpen : contractId ∈ state.openPositions.map OpenPosition.contractId ↔
      state.positionsOf contractId ≠ [] := by
    rw [OptionsState.positionsOf, ne_eq, List.filter_eq_nil_iff, List.mem_map]
    simp
  rw [isOpen]
  clear isOpen events
  generalize state.positionsOf contractId = positions at each ⊢
  cases each with
  | nil => simp
  | @cons entry position entries positions first rest =>
    have positive := entry.quantity_pos
    simp only [ne_eq, reduceCtorEq, not_false_eq_true, true_iff, List.map_cons, List.sum_cons]
    omega

/-! ## What the moves keep -/

theorem RowByRow.of_same {contractId : String} (rows : RowByRow state contractId)
    (events : next.eventsOf contractId = state.eventsOf contractId)
    (closed : next.rowsOf contractId = state.rowsOf contractId)
    (opened : next.positionsOf contractId = state.positionsOf contractId) :
    RowByRow next contractId := by
  rw [RowByRow, events, closed, opened]
  exact rows

variable {event : Event}

theorem eventsOf_accepts (accepts : state.ledger.Accepts next.ledger event) :
    next.eventsOf event.contractId = state.eventsOf event.contractId ++ [event] := by
  rw [OptionsState.eventsOf, accepts.events, List.filter_append, OptionsState.eventsOf,
    List.filter_cons_of_pos (by simp), List.filter_nil]

theorem eventsOf_accepts_of_ne (accepts : state.ledger.Accepts next.ledger event)
    {contractId : String} (other : event.contractId ≠ contractId) :
    next.eventsOf contractId = state.eventsOf contractId := by
  rw [OptionsState.eventsOf, accepts.events, List.filter_append, OptionsState.eventsOf,
    List.filter_cons_of_neg (by simpa using other), List.filter_nil, List.append_nil]

theorem Opens.rowByRow {fill : Fill} (opens : Opens input session state next fill)
    {contractId : String} (rows : RowByRow state contractId) : RowByRow next contractId := by
  obtain ⟨position, -, named, entryId, -, added⟩ := opens.opened
  have closed : next.rowsOf contractId = state.rowsOf contractId := by
    rw [OptionsState.rowsOf, opens.closedRows, OptionsState.rowsOf]
  have opened : next.positionsOf contractId =
      state.positionsOf contractId ++ [position].filter fun position =>
        position.contractId = contractId := by
    rw [OptionsState.positionsOf, added, List.filter_append, OptionsState.positionsOf]
  by_cases on : fill.contractId = contractId
  · subst on
    obtain ⟨trips, entries, isEvents, whole, each⟩ := rows
    have events : next.eventsOf fill.contractId =
        state.eventsOf fill.contractId ++ [.fill fill] := eventsOf_accepts opens.accepts
    rw [List.filter_cons_of_pos (by simpa using named), List.filter_nil] at opened
    refine ⟨trips, entries ++ [fill], ?_, closed ▸ whole, ?_⟩
    · rw [events, isEvents, List.map_append, List.map_singleton, List.append_assoc]
    · rw [opened]
      exact List.rel_append each (.cons ⟨opens.buys, entryId⟩ .nil)
  · have events := eventsOf_accepts_of_ne opens.accepts on
    rw [List.filter_cons_of_neg (by simpa [named] using on), List.filter_nil,
      List.append_nil] at opened
    exact rows.of_same events closed opened

variable {notes : List Note}

/-- **Closing all that is held of a contract closes its row.** -/
theorem Closes.rowByRow (closes : Closes state next event notes) (ready : Ready input state)
    (whole : event.closes = some (state.ledger.quantity event.contractId)) {contractId : String}
    (rows : RowByRow state contractId) : RowByRow next contractId := by
  obtain ⟨exit, exitId, left, closed⟩ := closes.closed
  by_cases on : event.contractId = contractId
  · subst on
    obtain ⟨trips, entries, isEvents, wholes, each⟩ := rows
    have quantity := quantity_of_rowByRow ready.sound isEvents wholes each
    have positive := Event.closes_pos whole
    have events := eventsOf_accepts closes.accepts
    rcases ready.positionsOf_cases event.contractId with none' | ⟨position, single, found⟩
    · rw [none', List.forall₂_nil_right_iff] at each
      rw [quantity, each] at positive
      exact absurd positive (by simp)
    · rw [single] at each
      obtain ⟨entry, rest, isEntry, isRest, rfl⟩ := List.forall₂_cons_right_iff.mp each
      rw [List.forall₂_nil_right_iff.mp isRest] at isEvents quantity
      rw [List.map_singleton, List.sum_singleton] at quantity
      have isPosition : position ∈ state.positionsOf event.contractId := by
        rw [single]
        exact List.mem_singleton_self _
      have named : position.contractId = event.contractId := by
        simpa using (List.mem_filter.mp isPosition).2
      rw [OptionsState.closePositionRow, found] at left closed
      refine ⟨trips ++ [⟨entry, event⟩], [], ?_, ?_, ?_⟩
      · rw [events, isEvents, List.flatMap_append]
        simp [Trip.events]
      · have rowsOf : next.rowsOf event.contractId =
            state.rowsOf event.contractId ++ [rowOf position (some exit)] := by
          rw [OptionsState.rowsOf, closed, List.filter_append, OptionsState.rowsOf,
            List.filter_cons_of_pos (by simp [rowOf, named]), List.filter_nil]
        rw [rowsOf]
        refine List.rel_append wholes (.cons ⟨isEntry.buys, isEntry.entryId, ?_, ?_⟩ .nil)
        · rw [whole, quantity]
        · exact ⟨exit, rfl, exitId⟩
      · have positionsOf : next.positionsOf event.contractId = [] := by
          rw [OptionsState.positionsOf, left, List.filter_eq_nil_iff]
          intro other isMember
          simpa using (List.mem_filter.mp isMember).2
        rw [positionsOf]
        exact .nil
  · refine rows.of_same (eventsOf_accepts_of_ne closes.accepts on) ?_ ?_
    · rw [OptionsState.rowsOf, closed, OptionsState.closePositionRow]
      split
      case h_1 => rfl
      case h_2 position found =>
        have named : position.contractId = event.contractId := by
          simpa using List.find?_some found
        rw [List.filter_append,
          List.filter_cons_of_neg (by simpa [rowOf, named] using on), List.filter_nil,
          List.append_nil, OptionsState.rowsOf]
    · rw [OptionsState.positionsOf, left, OptionsState.openPositions_closePositionRow,
        List.filter_filter, OptionsState.positionsOf]
      refine List.filter_congr ?_
      intro position _
      by_cases same : position.contractId = contractId
      · simpa [same] using fun other : contractId = event.contractId => on other.symm
      · simp [same]

/-! ## What the steps keep -/

/-- Where the conditions of all steps so far are met, every contract is row by row. -/
def RowsKept (state : OptionsState) : Prop :=
  (∀ note ∈ state.notes, note.Meets) → ∀ contractId, RowByRow state contractId

theorem Quiet.rowsKept (same : Quiet state next) (kept : RowsKept state) : RowsKept next := by
  intro met contractId
  rw [same.notes] at met
  refine (kept met contractId).of_same ?_ ?_ ?_
  · rw [OptionsState.eventsOf, same.ledger, OptionsState.eventsOf]
  · rw [OptionsState.rowsOf, same.closedRows, OptionsState.rowsOf]
  · rw [OptionsState.positionsOf, same.openPositions, OptionsState.positionsOf]

theorem Closes.rowsKept (closes : Closes state next event notes) (ready : Ready input state)
    (whole : (∀ note ∈ notes, note.Meets) →
      event.closes = some (state.ledger.quantity event.contractId)) (kept : RowsKept state) :
    RowsKept next := by
  intro met contractId
  rw [closes.notes] at met
  have before := kept fun note isMember => met note (List.mem_append_left _ isMember)
  exact closes.rowByRow ready
    (whole fun note isMember => met note (List.mem_append_right _ isMember)) (before contractId)

theorem Trade.rowsKept (trade : Trade input session instant state next) (ready : Ready input state)
    (kept : RowsKept state) : RowsKept next := by
  cases trade with
  | quiet same => exact same.rowsKept kept
  | entry fill stamped opens =>
    intro met contractId
    rw [opens.notes] at met
    exact opens.rowByRow (kept met contractId)
  | sale fill note stamped closes whole =>
    refine closes.rowsKept ready ?_ kept
    intro met
    have sells := closes.closes
    cases side : fill.side with
    | buy => simp [Event.closes, side] at sells
    | sell =>
      simp only [Event.closes, side, Option.some.injEq]
      exact whole (met note (List.mem_singleton_self note))

theorem Trades.rowsKept (trades : Trades input session instant state next)
    (ready : Ready input state) (kept : RowsKept state) : RowsKept next := by
  induction trades with
  | refl => exact kept
  | tail earlier trade ih =>
    have before : Trades input session instant state _ := earlier
    exact trade.rowsKept (before.ready ready) ih

/-- What is due is all that is held, where an election is of all of it. -/
theorem Settles.rowsKept {due : Due} (settles : Settles input session instant due state next)
    (ready : Ready input state) (isDue : DueFor input state due) (kept : RowsKept state) :
    RowsKept next := by
  obtain ⟨settlement, named, quantity, -, closes⟩ := settles.settled
  refine closes.rowsKept ready ?_ kept
  intro met
  have held := closes.accepts.held settlement.quantity rfl
  change some settlement.quantity = some (state.ledger.quantity settlement.contractId)
  change settlement.quantity ≤ state.ledger.quantity settlement.contractId at held
  by_cases elected : due.kind = .earlyExercise
  · rw [electionNotes, if_pos elected] at met
    have all : state.ledger.quantity due.contractId ≤ due.quantity :=
      met _ (List.mem_singleton_self _)
    rw [named, quantity] at held ⊢
    exact congrArg some (le_antisymm held all)
  · rw [quantity, isDue.whole elected, named]

theorem Settles.dueFor {due other : Due} (settles : Settles input session instant due state next)
    (ready : Ready input state) (isDue : DueFor input state other)
    (distinct : due.contractId ≠ other.contractId) : DueFor input next other := by
  obtain ⟨settlement, named, -, -, closes⟩ := settles.settled
  refine ⟨isDue.known, fun kind => (isDue.whole kind).trans ?_⟩
  have apart : (Event.settlement settlement).contractId ≠ other.contractId := by
    change settlement.contractId ≠ other.contractId
    rw [named]
    exact distinct
  exact (closes.accepts.quantity_of_ne ready.sound apart).symm

theorem Settled.rowsKept {dues : List Due} (settled : Settled input session instant dues state next)
    (ready : Ready input state) (distinct : (dues.map Due.contractId).Nodup)
    (each : ∀ due ∈ dues, DueFor input state due) (kept : RowsKept state) : RowsKept next := by
  induction settled with
  | nil => exact kept
  | @cons due dues state middle next settles rest ih =>
    rw [List.map_cons, List.nodup_cons] at distinct
    refine ih (settles.ready ready) distinct.2 ?_
      (settles.rowsKept ready (each due List.mem_cons_self) kept)
    intro other isMember
    refine settles.dueFor ready (each other (List.mem_cons_of_mem _ isMember)) ?_
    rintro same
    exact distinct.1 (same ▸ List.mem_map.mpr ⟨other, isMember, rfl⟩)

/-! ## Expirations -/

/-- Nothing is open after its expiration. -/
def Unexpired (session : ℤ) (state : OptionsState) : Prop :=
  ∀ position ∈ state.openPositions, session ≤ position.contractExpiration

theorem Closes.mem_of_mem (closes : Closes state next event notes) {position : OpenPosition}
    (isMember : position ∈ next.openPositions) :
    position ∈ state.openPositions ∧ position.contractId ≠ event.contractId := by
  obtain ⟨exit, -, left, -⟩ := closes.closed
  rw [left, OptionsState.openPositions_closePositionRow] at isMember
  simpa using List.mem_filter.mp isMember

theorem Trades.unexpired (trades : Trades input session instant state next)
    (unexpired : Unexpired session state) : Unexpired session next := by
  induction trades with
  | refl => exact unexpired
  | tail _ trade ih =>
    intro position isMember
    cases trade with
    | quiet same => exact ih position (same.openPositions ▸ isMember)
    | entry fill stamped opens =>
      obtain ⟨opened, -, -, -, notExpired, added⟩ := opens.opened
      rw [added] at isMember
      exact List.forall_mem_append.mpr ⟨ih, List.forall_mem_singleton.mpr notExpired⟩ position
        isMember
    | sale fill note stamped closes whole => exact ih position (closes.mem_of_mem isMember).1

theorem Settled.mem_of_mem {dues : List Due}
    (settled : Settled input session instant dues state next) {position : OpenPosition}
    (isMember : position ∈ next.openPositions) :
    position ∈ state.openPositions ∧ position.contractId ∉ dues.map Due.contractId := by
  induction settled with
  | nil => exact ⟨isMember, by simp⟩
  | @cons due dues state middle next settles rest ih =>
    obtain ⟨before, notLater⟩ := ih isMember
    obtain ⟨settlement, named, -, -, closes⟩ := settles.settled
    obtain ⟨isOpen, other⟩ := closes.mem_of_mem before
    refine ⟨isOpen, ?_⟩
    rw [List.map_cons, List.mem_cons, not_or]
    refine ⟨?_, notLater⟩
    have apart : position.contractId ≠ settlement.contractId := other
    rwa [named] at apart

/-! ## Conditions so far -/

/-- The conditions of all steps so far are met. -/
def AllMet (state : OptionsState) : Prop :=
  ∀ note ∈ state.notes, note.Meets

theorem Closes.allMet (closes : Closes state next event notes) (met : AllMet next) :
    AllMet state := by
  intro note isMember
  refine met note ?_
  rw [closes.notes]
  exact List.mem_append_left _ isMember

theorem Quiet.allMet (same : Quiet state next) (met : AllMet next) : AllMet state := by
  rw [AllMet, ← same.notes]
  exact met

theorem Trades.allMet (trades : Trades input session instant state next) (met : AllMet next) :
    AllMet state := by
  induction trades with
  | refl => exact met
  | tail _ trade ih =>
    cases trade with
    | quiet same => exact ih (same.allMet met)
    | entry fill stamped opens =>
      rw [AllMet, opens.notes] at met
      exact ih met
    | sale fill note stamped closes whole => exact ih (closes.allMet met)

theorem Settled.allMet {dues : List Due} (settled : Settled input session instant dues state next)
    (met : AllMet next) : AllMet state := by
  induction settled with
  | nil => exact met
  | cons settles rest ih =>
    obtain ⟨settlement, -, -, -, closes⟩ := settles.settled
    exact closes.allMet (ih met)

/-! ## The end of a session -/

theorem unexpired_of_allMet (met : AllMet (beginSession session state)) :
    Unexpired session (beginSession session state) := by
  intro position isMember
  refine met (.overnight session position.contractExpiration) ?_
  exact List.mem_append_right _ (List.mem_map.mpr ⟨position, isMember, rfl⟩)

theorem rowsKept_beginSession (kept : RowsKept state) :
    RowsKept (beginSession session state) :=
  fun met => kept fun note isMember => met note (List.mem_append_left _ isMember)

theorem Played.rowsKept (played : Played input session state next) (ready : Ready input state)
    (kept : RowsKept state) : RowsKept next := by
  obtain ⟨-, trades, -, -, due, settles, decides⟩ := played
  have begun : Ready input (beginSession session state) := ready_beginSession ready
  have traded := trades.rowsKept begun (rowsKept_beginSession kept)
  exact decides.rowsKept (settles.rowsKept (trades.ready begun) due.distinct due.each traded)

/-- **A session leaves nothing open that has expired.** -/
theorem Played.expires (played : Played input session state next) (ready : Ready input state)
    (kept : RowsKept state) (met : AllMet next) :
    ∀ position ∈ next.openPositions, session < position.contractExpiration := by
  obtain ⟨-, trades, -, -, due, settles, decides⟩ := played
  have begun : Ready input (beginSession session state) := ready_beginSession ready
  have tradedReady := trades.ready begun
  have metTraded := settles.allMet (decides.allMet met)
  have unexpired := trades.unexpired (unexpired_of_allMet (trades.allMet metTraded))
  have rows := trades.rowsKept begun (rowsKept_beginSession kept) metTraded
  intro position isMember
  rw [decides.openPositions] at isMember
  obtain ⟨isOpen, notDue⟩ := settles.mem_of_mem isMember
  refine lt_of_le_of_ne (unexpired position isOpen) ?_
  intro expires
  refine notDue (due.expiring position isOpen expires.symm ?_)
  exact (isOpen_iff_held tradedReady (rows position.contractId)).mp
    (List.mem_map.mpr ⟨position, isOpen, rfl⟩)

/-! ## Quantities over all events -/

/-- The quantity of a contract that an event buys. -/
def boughtBy (contractId : String) : Event → ℕ
  | .fill fill => if fill.contractId = contractId ∧ fill.side = .buy then fill.quantity else 0
  | .settlement _ => 0

def soldBy (contractId : String) : Event → ℕ
  | .fill fill => if fill.contractId = contractId ∧ fill.side = .sell then fill.quantity else 0
  | .settlement _ => 0

def settledBy (contractId : String) : Event → ℕ
  | .fill _ => 0
  | .settlement settlement =>
    if settlement.contractId = contractId then settlement.quantity else 0

/-- A quantity over all events of the book. -/
def totalOf (state : OptionsState) (quantity : Event → ℕ) : ℕ :=
  (state.ledger.events.map quantity).sum

theorem quantityDelta_eq (contractId : String) (event : Event) :
    event.quantityDelta contractId =
      (boughtBy contractId event : ℤ) - soldBy contractId event - settledBy contractId event := by
  cases event with
  | fill fill =>
    by_cases on : fill.contractId = contractId
    · cases side : fill.side with
      | buy => simp [Event.quantityDelta, boughtBy, soldBy, settledBy, on, side]
      | sell => simp [Event.quantityDelta, boughtBy, soldBy, settledBy, on, side]
    · simp [Event.quantityDelta, boughtBy, soldBy, settledBy, on]
  | settlement settlement =>
    by_cases on : settlement.contractId = contractId
    · simp [Event.quantityDelta, boughtBy, soldBy, settledBy, on]
    · simp [Event.quantityDelta, boughtBy, soldBy, settledBy, on]

/-- **What was bought was sold, settled, or is held.** -/
theorem totals_eq (sound : state.ledger.Sound) (contractId : String) :
    totalOf state (boughtBy contractId) =
      totalOf state (soldBy contractId) + totalOf state (settledBy contractId) +
        state.ledger.quantity contractId := by
  have net := sound.netQuantity_eq contractId
  have split : state.ledger.netQuantity contractId =
      (totalOf state (boughtBy contractId) : ℤ) - totalOf state (soldBy contractId) -
        totalOf state (settledBy contractId) := by
    rw [LedgerBook.netQuantity, totalOf, totalOf, totalOf]
    induction state.ledger.events with
    | nil => rfl
    | cons event rest ih =>
      simp only [List.map_cons, List.sum_cons, quantityDelta_eq, ih, Nat.cast_add]
      omega
  omega

/-! ## Runs -/

inductive ReachedAfter (input : OptionsInput Snapshot) (session : ℤ) (state : OptionsState) :
    Prop where
  | intro {earliest : ℤ} {early later : List ℤ} {before : OptionsState}
      {rows : List SessionEquity} (checked : checkInput input = .ok ⟨⟩)
      (bounds : runBounds input = .ok (earliest, early ++ session :: later))
      (started : beforeFirst input earliest = .ok before)
      (ran : runSessions (runSession input) (early ++ [session]) before = .ok (state, rows))

/-- The positions are what the ledger holds, nothing of it has expired, and every row closed the
whole quantity of its entry. -/
structure PositionsAgree (input : OptionsInput Snapshot) (session : ℤ) (state : OptionsState) :
    Prop where
  keys : ∀ contractId, contractId ∈ state.openPositions.map OpenPosition.contractId ↔
    1 ≤ state.ledger.quantity contractId
  unexpired : ∀ contractId contract, input.surface.contract contractId = .ok contract →
    1 ≤ state.ledger.quantity contractId → session < contract.expiration
  rows : ∀ contractId, RowByRow state contractId
  totals : ∀ contractId, totalOf state (boughtBy contractId) =
    totalOf state (soldBy contractId) + totalOf state (settledBy contractId) +
      state.ledger.quantity contractId

theorem rowsKept_beforeFirst {earliest : ℤ} (started : beforeFirst input earliest = .ok state) :
    RowsKept state := by
  refine (beforeFirst_eq_ok started).rowsKept ?_
  exact fun _ contractId => ⟨[], [], rfl, .nil, .nil⟩

/-- **At the end of every session the positions and the ledger agree**, where every sale found
enough in its quote, every election was of all that was held, and no contract was open after its
expiration. -/
theorem positions_agree (reached : ReachedAfter input session state) (met : AllMet state) :
    PositionsAgree input session state := by
  obtain ⟨-, -, started, ran⟩ := reached
  obtain ⟨middle, rows', rows'', ranEarly, ranLast, -⟩ := runSessions_append_eq_ok.mp ran
  obtain ⟨last, row, rest, stepped, ended, -⟩ := runSessions_cons_eq_ok.mp ranLast
  cases ended
  obtain ⟨ready, kept⟩ := holds_of_sessions RowsKept (ready_beforeFirst started)
    (fun _ _ state next ready kept played => played.rowsKept ready kept)
    (rowsKept_beforeFirst started) ranEarly
  have played := played_of_runSession ready stepped
  have readyAfter := played.ready ready
  have rowsAfter := played.rowsKept ready kept met
  refine ⟨fun contractId => isOpen_iff_held readyAfter (rowsAfter contractId), ?_, rowsAfter,
    totals_eq readyAfter.sound⟩
  intro contractId contract isContract held
  obtain ⟨position, isOpen, rfl⟩ := List.mem_map.mp
    ((isOpen_iff_held readyAfter (rowsAfter contractId)).mpr held)
  obtain ⟨contract', isContract', -, expiration⟩ := readyAfter.known position isOpen
  obtain rfl := Except.ok.inj (isContract.symm.trans isContract')
  exact expiration ▸ played.expires ready kept met position isOpen

instance (state : OptionsState) : Decidable (AllMet state) :=
  inferInstanceAs (Decidable (∀ note ∈ state.notes, note.Meets))

/-- A session of a run by its position, and the state at its end. -/
def stateAfter (input : OptionsInput Snapshot) (position : ℕ) : Option (ℤ × OptionsState) := do
  let _ ← (checkInput input).toOption
  let (earliest, sessions) ← (runBounds input).toOption
  let session ← sessions[position]?
  let before ← (beforeFirst input earliest).toOption
  let (state, _) ← (runSessions (runSession input) (sessions.take (position + 1)) before).toOption
  return (session, state)

theorem reachedAfter_of_stateAfter {position : ℕ}
    (ran : stateAfter input position = some (session, state)) :
    ReachedAfter input session state := by
  obtain ⟨done, checked, ran⟩ := Option.bind_eq_some_iff.mp ran
  obtain ⟨⟨earliest, sessions⟩, bounds, ran⟩ := Option.bind_eq_some_iff.mp ran
  obtain ⟨session', isSession, ran⟩ := Option.bind_eq_some_iff.mp ran
  obtain ⟨before, started, ran⟩ := Option.bind_eq_some_iff.mp ran
  obtain ⟨⟨state', rows⟩, ended, same⟩ := Option.bind_eq_some_iff.mp ran
  cases same
  obtain ⟨inside, rfl⟩ := List.getElem?_eq_some_iff.mp isSession
  have split : sessions =
      sessions.take position ++ sessions[position] :: sessions.drop (position + 1) := by
    rw [← List.drop_eq_getElem_cons inside, List.take_append_drop]
  have taken : sessions.take (position + 1) = sessions.take position ++ [sessions[position]] :=
    List.take_succ_eq_append_getElem inside
  have bounded := mem_toOption.mp bounds
  rw [split] at bounded
  exact .intro (mem_toOption.mp checked) bounded (mem_toOption.mp started)
    (taken ▸ mem_toOption.mp ended)

/-! ## A sale into a thin quote -/

theorem days_ne_nil : [(0 : ℤ), 1, 2, 3] ≠ [] :=
  List.cons_ne_nil _ _

theorem days_increasing : [(0 : ℤ), 1, 2, 3].Pairwise (· < ·) := by
  decide

theorem days_opens (session : ℤ) (_ : session ∈ [(0 : ℤ), 1, 2, 3]) :
    hourOf session 14 ≤ hourOf session 20 := by
  simp only [hourOf, hours, microseconds]
  omega

theorem days_ordered (first : ℤ) (_ : first ∈ [(0 : ℤ), 1, 2, 3]) (second : ℤ)
    (_ : second ∈ [(0 : ℤ), 1, 2, 3]) (less : first < second) :
    hourOf first 20 < hourOf second 14 := by
  simp only [hourOf, hours, microseconds]
  omega

theorem days_window (session : ℤ) (_ : session ∈ [(0 : ℤ), 1, 2, 3]) :
    hourOf session 14 + 1800 * microseconds ≤ hourOf session 20 := by
  simp only [hourOf, hours, microseconds]
  omega

theorem days_wall (session : ℤ) (_ : session ∈ [(0 : ℤ), 1, 2, 3]) :
    hourOf session 20 ≤ hourOf session 23 := by
  simp only [hourOf, hours, microseconds]
  omega

theorem days_next (date session : ℤ) (_ : session ∈ [(0 : ℤ), 1, 2, 3]) (less : date < session) :
    hourOf date 23 < hourOf session 14 := by
  simp only [hourOf, hours, microseconds]
  omega

/-- Four days, each open from 14:00 to 20:00 UTC. -/
def fourDays : MarketCalendar where
  sessions := [0, 1, 2, 3]
  nonempty := days_ne_nil
  increasing := days_increasing
  sessionOpen session := hourOf session 14
  sessionClose session := hourOf session 20
  opens := days_opens
  ordered := days_ordered
  window_le_close := days_window
  close_le_wall := days_wall
  wall_lt_open := days_next

theorem price_pos : (0 : ℚ) < 100 := by
  norm_num

theorem price_whole : (100 : ℚ) ∈ cents := by decide +kernel
theorem price_small : (100 : ℚ) < 10 ^ 10 := by norm_num

def hundred : Price := ⟨100, price_pos, price_whole, price_small⟩

theorem multiplier_pos : (1 : ℤ) ≤ 100 := by
  norm_num

theorem listed : (0 : ℤ) ≤ 9 := by
  norm_num

theorem standard (_ : true = true) : (100 : ℚ) = 100 ∧ (100 : ℤ) = 100 := ⟨rfl, rfl⟩

/-- An option on a security, under its name. -/
def optionOn (underlyingId : String) (callPut : CallPut) : OptionContract where
  contractId := contractIdOf underlyingId 9 callPut 100
  expiration := 9
  multiplier := 100
  listingStart := 0
  listingEnd := 9
  sharesPerContract := 100
  standardContractFlag := true
  multiplier_pos := multiplier_pos
  shares_pos := price_pos
  listed := listed
  expires := listed
  standard := standard
  underlyingSecurityId := underlyingId
  strike := hundred
  callPut := callPut
  exerciseStyle := .american

theorem one_nonneg : (0 : ℚ) ≤ 1 := by
  norm_num

theorem ask_nonneg : (0 : ℚ) ≤ 101 / 100 := by norm_num

theorem received_at (instant : ℤ) : instant ≤ instant := le_rfl

def quoteOf (contractId : String) (instant : ℤ) (bidSize : ℕ) : Guards.QuoteEvent where
  contractId := contractId
  exchangeTimestamp := instant
  receivedTimestamp := instant
  bid := 1
  ask := 101 / 100
  bidSize := bidSize
  askSize := 10
  quoteCondition := "regular"
  bid_nonneg := one_nonneg
  ask_nonneg := ask_nonneg
  received_later := received_at instant

def quotedOptions : List OptionContract :=
  [optionOn "A" .call, optionOn "B" .put]

/-- A call and a put, at the same quote with some size of the bid. -/
def sampleSurface (bidSize : ℕ) : OptionSurface Unit where
  snapshotId := some "snapshot"
  decisionCalendar := fourDays
  visibleFileSession _ _ := none
  entryAsOf _ _ _ := .ok (some ⟨1, 101 / 100, 1 / 2⟩)
  liveExpiriesAsOf _ _ := [9]
  strikeLadder _ _ := .ok [100]
  visibleQuotesAsOf contractId instant := [.twoSided (quoteOf contractId instant bidSize)]
  contract contractId :=
    orRaise (.keyError contractId)
      (quotedOptions.find? fun contract => contract.contractId = contractId)
  candidateSnapshot _ _ := .ok ⟨⟩
  eligibleAsOf _ := ["A", "B"]
  spotMidAsOf _ _ := .ok 100

theorem sample_fraction : (0 : ℚ) < 1 / 2 ∧ (1 / 2 : ℚ) ≤ 1 := by
  norm_num

theorem sample_deltas : (0 : ℚ) < 1 / 4 ∧ (1 / 4 : ℚ) ≤ 1 / 2 ∧ (1 / 2 : ℚ) ≤ 3 / 4 ∧
    (3 / 4 : ℚ) < 1 := by
  norm_num

theorem sample_contracts : 1 ≤ 2 := one_le_two

theorem sample_exit : 1 ≤ 1 := le_rfl

theorem sample_dtes : (0 : ℤ) < 1 ∧ (1 : ℤ) ≤ 5 ∧ (5 : ℤ) ≤ 9 := by norm_num

def sampleConfig : OptionsStrategyConfig where
  targetAbsDelta := 1 / 2
  absDeltaMin := 1 / 4
  absDeltaMax := 3 / 4
  targetDte := 5
  dteMin := 1
  dteMax := 9
  premiumBudgetFraction := 1 / 2
  maxContractsPerCandidate := 2
  exitSessionsAfterEntry := 1
  allowCancellation := false
  allowForceClose := false
  fraction := sample_fraction
  contracts_pos := sample_contracts
  exit_pos := sample_exit
  deltas := sample_deltas
  dtes := sample_dtes

theorem sample_fee : (0 : ℚ) ≤ 0 := le_rfl

/-- A bar of a security, published an hour after the close. -/
def sampleBar (securityId : String) (session : ℤ) : PublishedBar where
  securityId := securityId
  session := session
  openPrice := hundred
  closePrice := hundred
  source := datasetProvenance
  snapshotId := "snapshot"
  sourceRecordId := "bar"
  availableAt := hourOf session 21

/-- Two decisions before the first session, and two sessions. -/
def sampleInput (arm : Arm) (bidSize : ℕ) (actions : List PublishedAction) : OptionsInput Unit where
  calendar := fourDays
  surface := sampleSurface bidSize
  bars := [sampleBar "A" 1, sampleBar "B" 1, sampleBar "A" 2, sampleBar "B" 2]
  actions := actions
  candidateFilter _ := ⟨true, []⟩
  signals := [⟨0, "A", .finite 2, none⟩, ⟨0, "B", .finite 1, none⟩]
  initialCash := 1000
  config := sampleConfig
  arm := arm
  endSession := some 2
  feeModel := ⟨0, 0, sample_fee, sample_fee⟩
  maxQuoteAgeSeconds := 60
  executionCalendar := none

/-- What a run shows: the session, the open contracts, what is held of one contract, and whether
the conditions so far were met. -/
def shownPositions (contractId : String) (reached : ℤ × OptionsState) :
    ℤ × List String × ℕ × ℕ × Bool :=
  (reached.1, reached.2.openIds, reached.2.ledger.quantity contractId,
    reached.2.closedRows.length, AllMet reached.2)

theorem shownPositions_deep :
    (stateAfter (sampleInput .a 2 []) 1).map (shownPositions (optionOn "A" .call).contractId) =
      some (2, [], 0, 2, true) := by
  decide +kernel

theorem shownPositions_thin :
    (stateAfter (sampleInput .a 1 []) 1).map (shownPositions (optionOn "A" .call).contractId) =
      some (2, [], 1, 2, false) := by
  decide +kernel

theorem exists_of_shownPositions {contractId : String} {reached : Option (ℤ × OptionsState)}
    {shown : ℤ × List String × ℕ × ℕ × Bool}
    (isShown : reached.map (shownPositions contractId) = some shown) :
    ∃ state, reached = some (shown.1, state) ∧ state.openIds = shown.2.1 ∧
      state.ledger.quantity contractId = shown.2.2.1 ∧
      state.closedRows.length = shown.2.2.2.1 ∧ decide (AllMet state) = shown.2.2.2.2 := by
  obtain ⟨⟨session, state⟩, rfl, rfl⟩ := Option.map_eq_some_iff.mp isShown
  exact ⟨state, rfl, rfl, rfl, rfl, rfl⟩

/-- Two positions are bought and sold whole. -/
theorem positions_agree_sample :
    ∃ state, ReachedAfter (sampleInput .a 2 []) 2 state ∧ state.closedRows.length = 2 ∧
      PositionsAgree (sampleInput .a 2 []) 2 state := by
  obtain ⟨state, reached, -, -, closed, met⟩ := exists_of_shownPositions shownPositions_deep
  have reachedAfter := reachedAfter_of_stateAfter reached
  exact ⟨state, reachedAfter, closed, positions_agree reachedAfter (of_decide_eq_true met)⟩

/-- Of two contracts only one is sold, and the row is closed: the other is held and not open. -/
theorem thinQuote_strands_position :
    ¬ ∀ (input : OptionsInput Unit) (session : ℤ) (state : OptionsState),
      ReachedAfter input session state → PositionsAgree input session state := by
  intro agrees
  obtain ⟨state, reached, opened, held, -, -⟩ := exists_of_shownPositions shownPositions_thin
  have agree := agrees _ _ state (reachedAfter_of_stateAfter reached)
  have isOpen := (agree.keys (optionOn "A" .call).contractId).mpr held.ge
  rw [← mem_openIds, opened] at isOpen
  cases isOpen

end TreeOptions.Options
