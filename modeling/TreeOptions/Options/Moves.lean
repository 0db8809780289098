import TreeOptions.Ledger.Accepted
import TreeOptions.Options.Execution

/-!
# The moves of a session

At 10:00 a session trades: it sells what is open and opens what it buys, each with one fill that is
stamped with the instant (`Trade`). At its close it settles what is due, in order (`Settles`). No
other step touches the book or the positions.

A step is refused for the order of events only where the stamp of its event is before the last one
of the book (`Raises`).
-/

set_option autoImplicit false

namespace TreeOptions.Options

open Backtest Checked Decimal Ledger

/-! ## Conditions of a step -/

/-- The quote has enough for the sale, the election is of all that is held, and no contract is open
after its expiration. -/
def Note.Meets : Note → Prop
  | .sale engine state call => ∀ tradable, gradedQuote engine call = .ok tradable →
      call.order.quantity ≤ Guards.capacity engine state call.order.side tradable
  | .election elected held => held ≤ elected
  | .overnight session expiration => session ≤ expiration

instance (note : Note) : Decidable note.Meets :=
  match note with
  | .sale engine state call =>
    inferInstanceAs (Decidable (∀ tradable, gradedQuote engine call = .ok tradable →
      call.order.quantity ≤ Guards.capacity engine state call.order.side tradable))
  | .election elected held => inferInstanceAs (Decidable (held ≤ elected))
  | .overnight session expiration => inferInstanceAs (Decidable (session ≤ expiration))

/-- A refusal for the order of events. -/
def OptionsError.OutOfOrder : OptionsError → Prop
  | .strategy _ => False
  | .ledger error => error.OutOfOrder

/-- A refusal for the order of events is of a stamp before the last one of the book. -/
def Raises (state : OptionsState) (stamp : ℤ) (error : OptionsError) : Prop :=
  error.OutOfOrder → state.ledger.Precedes stamp

/-- A step beside the ledger is not refused for the order of events. -/
theorem ensures_lift {Value : Type} {raises : OptionsError → Prop} {returns : Value → Prop}
    {step : Except StrategyError Value} (others : ∀ error, ¬ error.OutOfOrder → raises error)
    (values : ∀ value, step = .ok value → returns value) : Ensures raises returns (lift step) := by
  cases step with
  | error error => exact others _ id
  | ok value => exact values value rfl

theorem raises_of_not {state : OptionsState} {stamp : ℤ} (error : OptionsError)
    (inOrder : ¬ error.OutOfOrder) : Raises state stamp error :=
  fun outOfOrder => absurd outOfOrder inOrder

/-! ## What the steps keep -/

section Moves

variable {Snapshot : Type} (input : OptionsInput Snapshot)

/-- The surface knows a contract under its name. -/
def Known (contractId : String) : Prop :=
  ∃ contract, input.surface.contract contractId = .ok contract ∧
    contract.contractId = contractId

/-- The expiration of an open position is that of its contract. -/
def KnownPosition (position : OpenPosition) : Prop :=
  ∃ contract, input.surface.contract position.contractId = .ok contract ∧
    contract.contractId = position.contractId ∧ position.contractExpiration = contract.expiration

structure OrdersKept (state : OptionsState) : Prop where
  engine : EngineKept state.engine
  buys : ∀ session, ∀ order ∈ state.pendingEntries session, order.side = .buy
  sells : ∀ session, ∀ order ∈ state.pendingExits session, order.side = .sell

/-- What every step keeps. -/
structure Ready (state : OptionsState) : Prop where
  orders : OrdersKept state
  sound : state.ledger.Sound
  distinct : (state.openPositions.map OpenPosition.contractId).Nodup
  known : ∀ position ∈ state.openPositions, KnownPosition input position

/-! ## The moves -/

/-- The book and the positions stay, and nothing is noted. -/
structure Quiet (state next : OptionsState) : Prop where
  ledger : next.ledger = state.ledger
  openPositions : next.openPositions = state.openPositions
  closedRows : next.closedRows = state.closedRows
  notes : next.notes = state.notes
  orders : OrdersKept next

def fillIdOf : Event → Option String
  | .fill fill => some fill.fillId
  | .settlement _ => none

structure Closes (state next : OptionsState) (event : Event) (notes : List Note) : Prop where
  accepts : state.ledger.Accepts next.ledger event
  closes : event.closes ≠ none
  closed : ∃ exit, exit.fillId = fillIdOf event ∧
    next.openPositions = (state.closePositionRow event.contractId exit).openPositions ∧
    next.closedRows = (state.closePositionRow event.contractId exit).closedRows
  notes : next.notes = state.notes ++ notes
  orders : OrdersKept next

structure Opens (session : ℤ) (state next : OptionsState) (fill : Fill) : Prop where
  accepts : state.ledger.Accepts next.ledger (.fill fill)
  buys : fill.side = .buy
  fresh : state.isOpen fill.contractId = false
  opened : ∃ position, KnownPosition input position ∧ position.contractId = fill.contractId ∧
    position.entryFillId = fill.fillId ∧ session ≤ position.contractExpiration ∧
    next.openPositions = state.openPositions ++ [position]
  closedRows : next.closedRows = state.closedRows
  notes : next.notes = state.notes
  orders : OrdersKept next

/-- One step of what is traded at an instant. -/
inductive Trade (session instant : ℤ) (state next : OptionsState) : Prop where
  | quiet (same : Quiet state next)
  | entry (fill : Fill) (stamped : fill.executionAt = instant)
      (opens : Opens input session state next fill)
  | sale (fill : Fill) (note : Note) (stamped : fill.executionAt = instant)
      (closes : Closes state next (.fill fill) [note])
      (whole : note.Meets → fill.quantity = state.ledger.quantity fill.contractId)

/-- The steps of what is traded at an instant. -/
abbrev Trades (session instant : ℤ) : OptionsState → OptionsState → Prop :=
  Relation.ReflTransGen (Trade input session instant)

def settlementStamp (session instant : ℤ) (due : Due) : Except StrategyError ℤ := do
  let contract ← input.surface.contract due.contractId
  let reference ← referenceOf input session instant contract.underlyingSecurityId due
  return reference.2.getD reference.1.availableAt

def electionNotes (state : OptionsState) (due : Due) : List Note :=
  if due.kind = .earlyExercise then
    [.election due.quantity (state.ledger.quantity due.contractId)]
  else []

structure Settles (session instant : ℤ) (due : Due) (state next : OptionsState) : Prop where
  settled : ∃ settlement : ExerciseSettlement,
    settlement.contractId = due.contractId ∧ settlement.quantity = due.quantity ∧
    settlementStamp input session instant due = .ok settlement.ts ∧
    Closes state next (.settlement settlement) (electionNotes state due)

variable {input} {session instant : ℤ} {state next : OptionsState}

/-! ## Positions -/

theorem OptionsState.isOpen_iff {contractId : String} :
    state.isOpen contractId = true ↔
      contractId ∈ state.openPositions.map OpenPosition.contractId := by
  rw [isOpen, List.any_eq_true, List.mem_map]
  simp only [decide_eq_true_eq]

theorem OptionsState.not_isOpen_iff {contractId : String} :
    state.isOpen contractId = false ↔
      contractId ∉ state.openPositions.map OpenPosition.contractId := by
  rw [← isOpen_iff, Bool.not_eq_true]

theorem OptionsState.openPositions_closePositionRow (state : OptionsState) (contractId : String)
    (exit : Exit) :
    (state.closePositionRow contractId exit).openPositions =
      state.openPositions.filter fun position => position.contractId ≠ contractId := by
  rw [closePositionRow]
  split
  case h_1 absent =>
    refine (List.filter_eq_self.mpr ?_).symm
    intro position isMember
    rw [position?] at absent
    simpa using List.find?_eq_none.mp absent position isMember
  case h_2 => rfl

theorem OptionsState.closePositionRow_frame (state : OptionsState) (contractId : String)
    (exit : Exit) :
    state.closePositionRow contractId exit = { state with
      openPositions := (state.closePositionRow contractId exit).openPositions
      closedRows := (state.closePositionRow contractId exit).closedRows } := by
  rw [closePositionRow]
  split <;> rfl

theorem OptionsState.closePositionRow_congr {first second : OptionsState}
    (openPositions : first.openPositions = second.openPositions)
    (closedRows : first.closedRows = second.closedRows) (contractId : String) (exit : Exit) :
    (first.closePositionRow contractId exit).openPositions =
        (second.closePositionRow contractId exit).openPositions ∧
      (first.closePositionRow contractId exit).closedRows =
        (second.closePositionRow contractId exit).closedRows := by
  have same : first.position? contractId = second.position? contractId := by
    rw [position?, position?, openPositions]
  rw [closePositionRow, closePositionRow, same]
  split
  case h_1 => exact ⟨openPositions, closedRows⟩
  case h_2 => exact ⟨by rw [openPositions], by rw [closedRows]⟩

variable {notes : List Note}

theorem Closes.of_closePositionRow {middle : OptionsState} {event : Event} {exit : Exit}
    (accepts : state.ledger.Accepts middle.ledger event) (closes : event.closes ≠ none)
    (fillId : exit.fillId = fillIdOf event)
    (openPositions : middle.openPositions = state.openPositions)
    (closedRows : middle.closedRows = state.closedRows)
    (noted : middle.notes = state.notes ++ notes) (orders : OrdersKept middle) :
    Closes state (middle.closePositionRow event.contractId exit) event notes := by
  have same := OptionsState.closePositionRow_congr openPositions closedRows event.contractId exit
  rw [OptionsState.closePositionRow_frame]
  exact ⟨accepts, closes, ⟨exit, fillId, same⟩, noted, orders.engine, orders.buys, orders.sells⟩

theorem Closes.count {event : Event} (closes : Closes state next event notes)
    (change : OptionsCounters → OptionsCounters) : Closes state (next.count change) event notes :=
  ⟨closes.accepts, closes.closes, closes.closed, closes.notes, closes.orders.engine,
    closes.orders.buys, closes.orders.sells⟩

theorem OrdersKept.quiet_count (orders : OrdersKept state)
    (change : OptionsCounters → OptionsCounters) : Quiet state (state.count change) :=
  ⟨rfl, rfl, rfl, rfl, orders.engine, orders.buys, orders.sells⟩

theorem Quiet.ready (same : Quiet state next) (ready : Ready input state) : Ready input next where
  orders := same.orders
  sound := same.ledger ▸ ready.sound
  distinct := same.openPositions ▸ ready.distinct
  known := same.openPositions ▸ ready.known

theorem Opens.ready {fill : Fill} (opens : Opens input session state next fill)
    (ready : Ready input state) : Ready input next := by
  obtain ⟨position, known, named, -, -, added⟩ := opens.opened
  refine ⟨opens.orders, opens.accepts.sound, ?_, ?_⟩
  · rw [added, List.map_append, List.map_singleton]
    refine List.nodup_append.mpr ⟨ready.distinct, List.nodup_singleton _, ?_⟩
    rintro a isMember b isNew rfl
    rw [List.mem_singleton.mp isNew, named] at isMember
    exact OptionsState.not_isOpen_iff.mp opens.fresh isMember
  · rw [added]
    exact List.forall_mem_append.mpr ⟨ready.known, List.forall_mem_singleton.mpr known⟩

theorem Closes.ready {event : Event} (closes : Closes state next event notes)
    (ready : Ready input state) : Ready input next := by
  obtain ⟨exit, -, left, -⟩ := closes.closed
  rw [OptionsState.openPositions_closePositionRow] at left
  refine ⟨closes.orders, closes.accepts.sound, ?_, ?_⟩
  · rw [left]
    exact ready.distinct.sublist (List.filter_sublist.map _)
  · intro position isMember
    rw [left] at isMember
    exact ready.known position (List.mem_of_mem_filter isMember)

theorem Trade.ready (trade : Trade input session instant state next) (ready : Ready input state) :
    Ready input next := by
  cases trade with
  | quiet same => exact same.ready ready
  | entry fill stamped opens => exact opens.ready ready
  | sale fill note stamped closes whole => exact closes.ready ready

theorem Trades.ready (trades : Trades input session instant state next)
    (ready : Ready input state) : Ready input next := by
  induction trades with
  | refl => exact ready
  | tail _ trade ih => exact trade.ready ih

/-! ## The order of events -/

theorem Trade.precedes (trade : Trade input session instant state next)
    (before : next.ledger.Precedes instant) : state.ledger.Precedes instant := by
  cases trade with
  | quiet same => exact same.ledger ▸ before
  | entry fill stamped opens =>
    exact absurd (opens.accepts.precedes.mp before) (stamped ▸ lt_irrefl _)
  | sale fill note stamped closes whole =>
    exact absurd (closes.accepts.precedes.mp before) (stamped ▸ lt_irrefl _)

/-- **Trading does not pass its own instant.** -/
theorem Trades.precedes (trades : Trades input session instant state next)
    (before : next.ledger.Precedes instant) : state.ledger.Precedes instant := by
  induction trades with
  | refl => exact before
  | tail _ trade ih => exact ih (trade.precedes before)

theorem Trades.raises (trades : Trades input session instant state next) {error : OptionsError}
    (raised : Raises next instant error) : Raises state instant error :=
  fun outOfOrder => trades.precedes (raised outOfOrder)

/-- **A loop of trades is a run of trades.** -/
theorem ensures_trades {Item : Type} {items : List Item}
    {step : OptionsState → Item → Except OptionsError OptionsState} (ready : Ready input state)
    (each : ∀ item ∈ items, ∀ middle, Ready input middle → Ensures (Raises middle instant)
      (Trade input session instant middle) (step middle item)) :
    Ensures (Raises state instant) (Trades input session instant state)
      (items.foldlM step state) := by
  refine Ensures.foldlM _ .refl ?_
  intro item isMember middle trades
  exact (each item isMember middle (trades.ready ready)).mono
    (fun error raised => trades.raises raised) fun last trade => trades.tail trade

end Moves

end TreeOptions.Options
