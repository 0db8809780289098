import TreeOptions.Options.Moves

/-!
# What a session does

Every part of a session makes moves of its own, or fails without a refusal for the order of events
that its stamp does not deserve. From what the orders, the book and the positions keep, the parts
before the close make trades, and each settlement that is due closes its contract.
-/

set_option autoImplicit false

namespace TreeOptions.Options

open Backtest Checked Decimal Ledger

variable {Snapshot : Type} {input : OptionsInput Snapshot} {session instant : ℤ}
  {state next : OptionsState}

/-! ## Orders -/

variable {order : Guards.Order}

theorem openLong_side {orderId contractId : String} {quantity : ℤ} {budget : Option ℚ}
    {decisionAt decisionSession : ℤ}
    (valid : openLong orderId contractId quantity budget decisionAt decisionSession = .ok order) :
    order.side = .buy := by
  rw [openLong] at valid
  split at valid
  case isTrue =>
    cases valid
    rfl
  case isFalse => cases valid

theorem closeLong_eq_ok {orderId contractId : String} {quantity : ℤ}
    {decisionAt decisionSession : ℤ}
    (valid : closeLong orderId contractId quantity decisionAt decisionSession = .ok order) :
    order.side = .sell ∧ order.contractId = contractId ∧ order.quantity = quantity := by
  rw [closeLong] at valid
  split at valid
  case isTrue =>
    cases valid
    exact ⟨rfl, rfl, rfl⟩
  case isFalse => cases valid

variable {orders : ℤ → List Guards.Order}

theorem forall_update {holds : Guards.Order → Prop}
    (kept : ∀ session, ∀ order ∈ orders session, holds order) {changed : ℤ}
    {replaced : List Guards.Order} (new : ∀ order ∈ replaced, holds order) :
    ∀ session, ∀ order ∈ Function.update orders changed replaced session, holds order := by
  intro session order isMember
  by_cases same : session = changed
  · subst same
    rw [Function.update_self] at isMember
    exact new order isMember
  · rw [Function.update_of_ne same] at isMember
    exact kept session order isMember

theorem forall_update_append {holds : Guards.Order → Prop}
    (kept : ∀ session, ∀ order ∈ orders session, holds order) {changed : ℤ} {added : Guards.Order}
    (new : holds added) :
    ∀ session, ∀ order ∈ Function.update orders changed (orders changed ++ [added]) session,
      holds order := by
  refine forall_update kept ?_
  exact List.forall_mem_append.mpr ⟨kept changed, List.forall_mem_singleton.mpr new⟩

theorem planOrders_buy {calendar : MarketCalendar} {candidates : List OptionCandidate} {cash : ℚ}
    {config : OptionsStrategyConfig} {model : PerContractFeeModel} {orders : List Guards.Order}
    (planned : planOrders calendar candidates cash config model = .ok orders) :
    ∀ order ∈ orders, order.side = .buy := by
  rw [planOrders] at planned
  split at planned
  case isTrue =>
    cases planned
    intro order isMember
    cases isMember
  case isFalse =>
    simp only [bind_eq_ok] at planned
    obtain ⟨_, -, _, -, _, -, perCandidate, -, planned⟩ := planned
    have started : ∀ order ∈ ([] : List Guards.Order), order.side = .buy := by simp
    refine foldlM_keeps (fun orders => ∀ order ∈ orders, order.side = .buy) ?_ started planned
    intro numbered _ orders next kept step
    rw [planOrder] at step
    obtain ⟨quantity, -, step⟩ := bind_eq_ok.mp step
    dsimp only at step
    split at step
    case isTrue =>
      cases step
      exact kept
    case isFalse =>
      obtain ⟨decisionAt, -, step⟩ := bind_eq_ok.mp step
      obtain ⟨order, isOrder, step⟩ := bind_eq_ok.mp step
      cases step
      exact List.forall_mem_append.mpr ⟨kept, List.forall_mem_singleton.mpr (openLong_side isOrder)⟩

/-! ## Fills -/

variable {fill : Guards.Fill} {engine : Guards.FillEngine} {engineState : Guards.EngineState}

theorem executionAt_of_fillsFrom {contract : OptionContract}
    (fills : FillsFrom engine engineState (sessionCall input session instant order contract)
      fill) : fill.executionAt = instant := by
  have stamped := fills.stamped
  have unshifted : (sessionCall input session instant order contract).effectiveAt =
      Guards.orRaise .overflow (shiftInstant instant 0) := rfl
  rw [unshifted] at stamped
  cases shifted : shiftInstant instant 0 with
  | none =>
    rw [shifted] at stamped
    cases stamped
  | some value =>
    rw [shifted] at stamped
    cases stamped
    have added := (shiftInstant_eq_some.mp shifted).2
    rw [zero_mul, add_zero] at added
    exact added

theorem bookFill_buys (buys : fill.side = .buy) : (bookFill fill).side = .buy := by
  simp only [bookFill, buys]

theorem bookFill_sells (sells : fill.side = .sell) : (bookFill fill).side = .sell := by
  simp only [bookFill, sells]

/-- **A fill is applied**, or it is refused. -/
theorem ensures_settleFill (sound : state.ledger.Sound) (fill : Guards.Fill) :
    Ensures (Raises state fill.executionAt)
      (fun next => ∃ book notional,
        state.ledger.Accepts book (.fill (bookFill fill)) ∧
        next = { state with
          ledger := book, fills := state.fills ++ [fill], tradedNotional := notional })
      (settleFill state fill) := by
  rw [settleFill]
  rcases apply_accepts sound (bookFill fill) with ⟨error, refused, order⟩ | ⟨book, ran, accepts⟩
  · rw [refused]
    exact order
  · rw [ran]
    refine Ensures.bind (ensures_lift raises_of_not fun _ _ => trivial) ?_
    intro notional _ _
    exact ⟨book, _, accepts, rfl⟩

/-! ## Sales -/

theorem retrySell_eq_ok {contractId : String} {quantity : ℕ} {decided : ℤ}
    (sells : ∀ session, ∀ order ∈ state.pendingExits session, order.side = .sell)
    (retried : retrySell input contractId quantity decided state = .ok next) :
    ∃ exits, next = { state with pendingExits := exits } ∧
      ∀ session, ∀ order ∈ exits session, order.side = .sell := by
  rw [retrySell] at retried
  split at retried
  case h_1 =>
    cases retried
    exact ⟨state.pendingExits, rfl, sells⟩
  case h_2 retry isRetry =>
    obtain ⟨decisionAt, -, retried⟩ := bind_eq_ok.mp retried
    obtain ⟨order, isOrder, retried⟩ := bind_eq_ok.mp retried
    cases retried
    exact ⟨_, rfl, forall_update_append sells (closeLong_eq_ok isOrder).1⟩

theorem quantity_of_meets {call : Guards.Call} {held : ℕ}
    (fills : FillsFrom engine engineState call fill) (whole : call.order.quantity = held)
    (meets : (Note.sale engine engineState call).Meets) : fill.quantity.toNat = held := by
  obtain ⟨tradable, graded, quantity⟩ := fills.available
  rw [quantity, min_eq_left (meets tradable graded), whole, Int.toNat_natCast]

section

variable (ready : Ready input state)

include ready

/-- **What is held is sold, or ordered again.** -/
theorem ensures_sellHeld {held : ℕ} {rejected : String → OptionsCounters → OptionsCounters}
    {filled : OptionsCounters → OptionsCounters} (sells : order.side = .sell)
    (whole : order.quantity = held) (isHeld : held = state.ledger.quantity order.contractId) :
    Ensures (Raises state instant) (Trade input session instant state)
      (sellHeld input session instant rejected filled order held state) := by
  rw [sellHeld]
  refine Ensures.bind (ensures_lift raises_of_not fun _ _ => trivial) ?_
  rintro ⟨executed, outcome⟩ ran -
  obtain ⟨engine, audit, kept, rfl, fills⟩ :=
    executeFill_eq_ok ready.orders.engine (lift_eq_ok.mp ran)
  cases outcome with
  | rejected code =>
    refine ensures_lift raises_of_not ?_
    intro last retried
    obtain ⟨exits, rfl, sells'⟩ := retrySell_eq_ok (by exact ready.orders.sells) retried
    exact .quiet ⟨rfl, rfl, rfl, rfl, kept, ready.orders.buys, sells'⟩
  | filled fill =>
    obtain ⟨contract, isContract, fills⟩ := fills fill rfl
    obtain rfl := executionAt_of_fillsFrom fills
    refine Ensures.bind (ensures_lift raises_of_not fun known isKnown => isKnown) ?_
    intro known _ isKnown
    cases isContract.symm.trans isKnown
    refine Ensures.bind (ensures_settleFill (by exact ready.sound) fill) ?_
    rintro settled - ⟨book, notional, accepts, rfl⟩
    have side : (bookFill fill).side = .sell :=
      bookFill_sells (fills.side_eq.trans sells)
    have named : order.contractId = (Event.fill (bookFill fill)).contractId :=
      fills.contractId_eq.symm
    rw [named]
    refine Trade.sale (bookFill fill) _ rfl (Closes.of_closePositionRow accepts ?_ rfl rfl rfl rfl
      ⟨kept, ready.orders.buys, ready.orders.sells⟩) ?_
    · simp [Event.closes, side]
    · intro meets
      exact (quantity_of_meets fills whole meets).trans (isHeld.trans (by rw [named]; rfl))

theorem ensures_forceClose (contractId : String) :
    Ensures (Raises state instant) (Trade input session instant state)
      (forceClose input session instant state contractId) := by
  rw [forceClose]
  refine Ensures.bind (ensures_lift raises_of_not fun _ _ => trivial) ?_
  intro position _ _
  dsimp only
  refine Ensures.ite (fun _ => ?_) fun _ => ?_
  · exact .quiet ⟨rfl, rfl, rfl, rfl, ready.orders⟩
  · refine Ensures.bind (ensures_lift raises_of_not fun order isOrder => isOrder) ?_
    intro order _ isOrder
    rw [forceCloseOrder] at isOrder
    obtain ⟨decided, -, isOrder⟩ := bind_eq_ok.mp isOrder
    obtain ⟨decisionAt, -, isOrder⟩ := bind_eq_ok.mp isOrder
    obtain ⟨sells, named, whole⟩ := closeLong_eq_ok isOrder
    exact ensures_sellHeld ready sells whole (by rw [named])

theorem ensures_forceCloses :
    Ensures (Raises state instant) (Trades input session instant state)
      (forceCloses input session instant state) := by
  rw [forceCloses]
  refine Ensures.ite (fun _ => .refl) fun _ => ?_
  exact ensures_trades ready fun contractId _ middle ready => ensures_forceClose ready contractId

theorem ensures_scheduledExit (sells : order.side = .sell) :
    Ensures (Raises state instant) (Trade input session instant state)
      (scheduledExit input session instant state order) := by
  rw [scheduledExit]
  split
  case isTrue held => exact ensures_sellHeld ready sells rfl rfl
  case isFalse => exact .quiet ⟨rfl, rfl, rfl, rfl, ready.orders⟩

theorem ensures_scheduledExits :
    Ensures (Raises state instant) (Trades input session instant state)
      (scheduledExits input session instant state) := by
  rw [scheduledExits]
  have popped : Quiet state
      { state with pendingExits := Function.update state.pendingExits session [] } :=
    ⟨rfl, rfl, rfl, rfl, ready.orders.engine, ready.orders.buys,
      forall_update ready.orders.sells fun order isMember => by cases isMember⟩
  refine Ensures.mono (ensures_trades (popped.ready ready) ?_) (fun error raised => raised)
    fun last trades => .head (.quiet popped) trades
  intro order isMember middle ready'
  exact ensures_scheduledExit ready' (ready.orders.sells session order isMember)

end

/-! ## Elections -/

/-- **Each open contract is elected once at most.** -/
theorem elections_eq_ok (ready : Ready input state) {elected : List (String × ℕ)}
    (ran : elections input session instant state = .ok elected) :
    (elected.map Prod.fst).Nodup ∧ ∀ election ∈ elected, Known input election.1 := by
  rw [elections] at ran
  cases arm : input.arm with
  | a =>
    simp only [arm] at ran
    cases ran
    exact ⟨List.nodup_nil, fun election isMember => by cases isMember⟩
  | b =>
    simp only [arm] at ran
    have unique : state.openIds.Nodup :=
      (sortedBy_perm _ _).nodup_iff.mpr ready.distinct
    suffices kept : (elected.map Prod.fst).Sublist state.openIds ∧
        ∀ election ∈ elected, Known input election.1 from ⟨unique.sublist kept.1, kept.2⟩
    have started : (([] : List (String × ℕ)).map Prod.fst).Sublist ([] : List String) ∧
        ∀ election ∈ ([] : List (String × ℕ)), Known input election.1 := by simp
    refine foldlM_invariant
      (fun (done : List String) (elected : List (String × ℕ)) =>
        (elected.map Prod.fst).Sublist done ∧ ∀ election ∈ elected, Known input election.1)
      ?_ started ran
    rintro done contractId elected next ⟨sublist, known⟩ step
    rw [elect] at step
    obtain ⟨position, isPosition, step⟩ := bind_eq_ok.mp step
    obtain ⟨contract, isContract, step⟩ := bind_eq_ok.mp step
    have skipped : (elected.map Prod.fst).Sublist (done ++ [contractId]) :=
      sublist.trans (List.sublist_append_left _ _)
    split at step
    case isTrue =>
      cases step
      exact ⟨skipped, known⟩
    case isFalse =>
      obtain ⟨inputs, -, step⟩ := bind_eq_ok.mp step
      cases step
      split
      case isFalse => exact ⟨skipped, known⟩
      case isTrue =>
        rw [List.map_append, List.map_singleton]
        refine ⟨sublist.append (List.Sublist.refl _), ?_⟩
        intro election isMember
        rcases List.mem_append.mp isMember with before | isNew
        · exact known election before
        · obtain rfl := List.mem_singleton.mp isNew
          rw [orRaise_eq_ok, OptionsState.position?] at isPosition
          have isOpen := List.mem_of_find?_eq_some isPosition
          have same : position.contractId = contractId := by
            simpa using List.find?_some isPosition
          obtain ⟨contract', isContract', named, -⟩ := ready.known position isOpen
          rw [same] at isContract' named
          exact ⟨contract', isContract', named⟩

/-! ## Entries -/

theorem scheduleExit_eq_ok
    (sells : ∀ session, ∀ order ∈ state.pendingExits session, order.side = .sell)
    (scheduled : scheduleExit input session fill state = .ok next) :
    ∃ exits, next = { state with pendingExits := exits } ∧
      ∀ session, ∀ order ∈ exits session, order.side = .sell := by
  rw [scheduleExit] at scheduled
  cases arm : input.arm with
  | b =>
    simp only [arm] at scheduled
    cases scheduled
    exact ⟨state.pendingExits, rfl, sells⟩
  | a =>
    simp only [arm] at scheduled
    simp only [bind_eq_ok] at scheduled
    obtain ⟨exitSession, -, decision, -, decisionAt, -, order, isOrder, scheduled⟩ := scheduled
    cases scheduled
    exact ⟨_, rfl, forall_update_append sells (closeLong_eq_ok isOrder).1⟩

/-- **A fill opens a position**, unless the order is rejected. -/
theorem ensures_buyEntry (ready : Ready input state) {underlyingId : String}
    {contract : OptionContract} (buys : order.side = .buy)
    (fresh : state.isOpen order.contractId = false)
    (isContract : input.surface.contract order.contractId = .ok contract) :
    Ensures (Raises state instant) (Trade input session instant state)
      (buyEntry input session instant state order underlyingId contract) := by
  rw [buyEntry]
  refine Ensures.bind (ensures_lift raises_of_not fun _ _ => trivial) ?_
  rintro ⟨executed, outcome⟩ ran -
  obtain ⟨engine, audit, kept, rfl, fills⟩ :=
    executeFill_eq_ok ready.orders.engine (lift_eq_ok.mp ran)
  cases outcome with
  | rejected code => exact .quiet ⟨rfl, rfl, rfl, rfl, kept, ready.orders.buys, ready.orders.sells⟩
  | filled fill =>
    obtain ⟨contract', isContract', fills⟩ := fills fill rfl
    cases isContract'.symm.trans isContract
    obtain rfl := executionAt_of_fillsFrom fills
    refine Ensures.bind (ensures_settleFill (by exact ready.sound) fill) ?_
    rintro settled - ⟨book, notional, accepts, rfl⟩
    refine Ensures.bind (ensures_lift raises_of_not fun opened scheduled => scheduled) ?_
    intro opened _ scheduled
    obtain ⟨exits, rfl, sells⟩ := scheduleExit_eq_ok (by exact ready.orders.sells) scheduled
    have side : (bookFill fill).side = .buy :=
      bookFill_buys (fills.side_eq.trans buys)
    have named : (bookFill fill).contractId = order.contractId := fills.contractId_eq
    refine Trade.entry (bookFill fill) rfl ⟨accepts, side, ?_, ?_, rfl, rfl, kept,
      ready.orders.buys, sells⟩
    · rw [named]
      exact fresh
    · exact ⟨_, ⟨contract, by exact isContract, by exact fills.named, rfl⟩, by exact named.symm,
        rfl, by exact fills.notExpired, rfl⟩

theorem ensures_enter (ready : Ready input state) {cancelled : List String}
    (buys : order.side = .buy) :
    Ensures (Raises state instant) (Trade input session instant state)
      (enter input session instant cancelled state order) := by
  rw [enter]
  refine Ensures.ite (fun _ => .quiet (ready.orders.quiet_count _)) fun _ => ?_
  refine Ensures.ite (fun _ => .quiet (ready.orders.quiet_count _)) fun fresh => ?_
  refine Ensures.bind (ensures_lift raises_of_not fun _ _ => trivial) ?_
  intro underlyingId _ _
  refine Ensures.bind (ensures_lift raises_of_not fun contract isContract => isContract) ?_
  intro contract _ isContract
  refine Ensures.bind (ensures_lift raises_of_not fun _ _ => trivial) ?_
  intro entry _ _
  cases entry with
  | none => exact .quiet (ready.orders.quiet_count _)
  | some entry =>
    refine Ensures.bind (ensures_lift raises_of_not fun _ _ => trivial) ?_
    intro clamped _ _
    split
    case isTrue affords =>
      exact ensures_buyEntry ready (by exact buys) (Bool.not_eq_true _ ▸ fresh) isContract
    case isFalse => exact .quiet (ready.orders.quiet_count _)

theorem ensures_entries (ready : Ready input state) :
    Ensures (Raises state instant) (Trades input session instant state)
      (entries input session instant state) := by
  rw [entries]
  have popped : Quiet state
      { state with pendingEntries := Function.update state.pendingEntries session [] } :=
    ⟨rfl, rfl, rfl, rfl, ready.orders.engine,
      forall_update ready.orders.buys fun order isMember => (by cases isMember),
      ready.orders.sells⟩
  refine Ensures.mono (ensures_trades (popped.ready ready) ?_) (fun error raised => raised)
    fun last trades => .head (.quiet popped) trades
  intro order isMember middle ready'
  exact ensures_enter ready' (ready.orders.buys session order isMember)

/-! ## Trading -/

theorem ready_beginSession (ready : Ready input state) :
    Ready input (beginSession session state) :=
  ⟨⟨ready.orders.engine, ready.orders.buys, ready.orders.sells⟩, ready.sound, ready.distinct,
    ready.known⟩

/-- **Whatever a session does at 10:00 is a run of trades.** -/
theorem ensures_tradeSession (ready : Ready input state) :
    Ensures (Raises state instant)
      (fun traded => Trades input session instant (beginSession session state) traded.1 ∧
        (traded.2.map Prod.fst).Nodup ∧ ∀ election ∈ traded.2, Known input election.1)
      (tradeSession input session instant state) := by
  rw [tradeSession]
  have begun : Ready input (beginSession session state) := ready_beginSession ready
  refine Ensures.bind (ensures_forceCloses begun) ?_
  intro closed _ closes
  refine Ensures.bind (ensures_lift (fun error inOrder => raises_of_not error inOrder)
    fun elected ran => elections_eq_ok (closes.ready begun) ran) ?_
  rintro elected - electedOnce
  refine Ensures.bind ((ensures_scheduledExits (closes.ready begun)).mono
    (fun error raised => closes.raises raised) fun last sells => closes.trans sells) ?_
  rintro sold - (sells : Trades input session instant (beginSession session state) sold)
  refine Ensures.bind ((ensures_entries (sells.ready begun)).mono
    (fun error raised => sells.raises raised) fun last buys => sells.trans buys) ?_
  intro bought _ trades
  exact ⟨trades, electedOnce⟩

/-! ## Settlements -/

theorem noteElection_eq (state : OptionsState) (due : Due) :
    noteElection state due =
      { state with notes := state.notes ++ electionNotes state due } := by
  rw [noteElection, electionNotes]
  split
  case isTrue => rfl
  case isFalse =>
    rw [List.append_nil]

/-- **What is due is settled**, or it is refused at its own stamp. -/
theorem ensures_settleDue (ready : Ready input state) {due : Due}
    (known : Known input due.contractId) :
    Ensures
      (fun error => error.OutOfOrder → ∃ stamp,
        settlementStamp input session instant due = .ok stamp ∧ state.ledger.Precedes stamp)
      (Settles input session instant due state)
      (settleDue input session instant state due) := by
  rw [settleDue]
  refine Ensures.bind (ensures_lift (fun error inOrder outOfOrder => absurd outOfOrder inOrder)
    fun settlement isSettlement => isSettlement) ?_
  intro settlement _ isSettlement
  rw [settlementFor] at isSettlement
  obtain ⟨contract, isContract, isSettlement⟩ := bind_eq_ok.mp isSettlement
  obtain ⟨reference, isReference, minted⟩ := bind_eq_ok.mp isSettlement
  obtain ⟨isMinted, -⟩ := mintSettlement_eq_ok minted
  have stamped : settlementStamp input session instant due = .ok settlement.ts := by
    rw [settlementStamp, isMinted.ts_eq]
    exact bind_eq_ok.mpr ⟨contract, isContract, bind_eq_ok.mpr ⟨reference, isReference, rfl⟩⟩
  have named : settlement.contractId = due.contractId := by
    obtain ⟨contract', isContract', named⟩ := known
    cases isContract'.symm.trans isContract
    rw [isMinted.contractId_eq, named]
  rcases applySettlement_accepts ready.sound settlement with
    ⟨error, refused, order⟩ | ⟨book, ran, accepts⟩
  · rw [refused]
    exact fun outOfOrder => ⟨settlement.ts, stamped, order outOfOrder⟩
  · rw [ran]
    refine Ensures.bind (ensures_lift (fun error inOrder outOfOrder => absurd outOfOrder inOrder)
      fun _ _ => trivial) ?_
    intro price _ _
    refine ⟨settlement, named, isMinted.quantity_eq, stamped, ?_⟩
    rw [noteElection_eq]
    let settled : OptionsState := { state with
      ledger := book, notes := state.notes ++ electionNotes state due }
    have orders : OrdersKept settled :=
      ⟨ready.orders.engine, ready.orders.buys, ready.orders.sells⟩
    have accepted : state.ledger.Accepts settled.ledger (.settlement settlement) := accepts
    let exit : Exit := ⟨exitKindOf due.kind.settles, none, price, settlement.session⟩
    have closes : Closes state (settled.closePositionRow settlement.contractId exit)
        (.settlement settlement) (electionNotes state due) :=
      Closes.of_closePositionRow accepted (by simp [Event.closes]) rfl rfl rfl rfl orders
    exact closes.count _

end TreeOptions.Options
