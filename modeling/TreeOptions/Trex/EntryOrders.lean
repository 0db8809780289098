import TreeOptions.Trex.EntryAccounts

/-!
# The entry runner acts on one structure

What each part of the runner does to the structure it acts on, whatever happens between its steps.
Merging the last fills of an order makes the book complete (`safe_mergeFills`), and an order is
placed only where the book is complete, saved, and no other order is working (`safe_place`).
-/

set_option autoImplicit false

namespace TreeOptions.Trex.Enter

open Decimal

section

variable {plan : TradePlan} {spread : PutSpread}

/-- What holds in every world. -/
def Always (plan : TradePlan) (spread : PutSpread) : World → Prop :=
  Holds plan spread.id fun view _ => Idle spread.quantity view

/-- The handle of the runner is that of the working order, and its memory is faithful. -/
def LiveRef (spread : PutSpread) : ViewCondition :=
  fun view ref => Live (handled ref) spread.quantity view

/-- The handle of the runner is that of the working order. -/
def LooseRef (spread : PutSpread) : ViewCondition :=
  fun view ref => Tracks (handled ref) spread.quantity view

abbrev SafeEntry {Value : Type} (plan : TradePlan) (spread : PutSpread)
    (ends : Value → ViewCondition) (program : Program World Value) (world : World) : Prop :=
  Safe worldEvent (Always plan spread) (fun value => Holds plan spread.id (ends value))
    (Holds plan spread.id (LooseRef spread)) program world

/-- A condition that may be assumed at a step. -/
structure Assertable (spread : PutSpread) (condition : ViewCondition) : Prop where
  forward : Forward condition
  loose : ∀ view ref, condition view ref → LooseRef spread view ref

namespace Assertable

variable {condition other : ViewCondition} {Value : Type} {ends : Value → ViewCondition}
  {world : World}

section

variable (assertable : Assertable spread condition)

include assertable

theorem stable : Stable worldEvent (Holds plan spread.id condition) :=
  assertable.forward.stable

theorem always {now : World} (holds : Holds plan spread.id condition now) :
    Always plan spread now :=
  holds.mono fun _ _ met => (assertable.loose _ _ met).idle

theorem and (forward : Forward other) :
    Assertable spread fun view ref => condition view ref ∧ other view ref where
  forward := assertable.forward.and forward
  loose view ref both := assertable.loose view ref both.1

section

variable (before : Holds plan spread.id condition world)

include before

theorem safe_read {look : World → Value}
    (ended : ∀ now, Holds plan spread.id condition now →
      Holds plan spread.id (ends (look now)) now) :
    SafeEntry plan spread ends (.read look) world :=
  Safe.read assertable.stable before (fun _ => assertable.always) ended

theorem safe_readOrFail {look : World → Option Value}
    (ended : ∀ now value, Holds plan spread.id condition now → look now = some value →
      Holds plan spread.id (ends value) now) :
    SafeEntry plan spread ends (.readOrFail look) world :=
  Safe.readOrFail assertable.stable before (fun _ => assertable.always) ended
    fun _ met _ => met.mono assertable.loose

theorem safe_modify {change : World → World} {ends : Unit → ViewCondition}
    (ended : ∀ now, Holds plan spread.id condition now →
      Holds plan spread.id (ends ()) (change now)) :
    SafeEntry plan spread ends (.modify change) world :=
  Safe.modify assertable.stable before (fun _ => assertable.always) ended

theorem safe_modifyOrFail {change : World → Option World} {ends : Unit → ViewCondition}
    (ended : ∀ now next, Holds plan spread.id condition now → change now = some next →
      Holds plan spread.id (ends ()) next) :
    SafeEntry plan spread ends (.modifyOrFail change) world :=
  Safe.modifyOrFail assertable.stable before (fun _ => assertable.always) ended
    fun _ met _ => met.mono assertable.loose

theorem safe_act {change : World → World × Value}
    (ended : ∀ now, Holds plan spread.id condition now →
      Holds plan spread.id (ends (change now).2) (change now).1) :
    SafeEntry plan spread ends (.act change) world :=
  Safe.act assertable.stable before (fun _ => assertable.always) ended

theorem safe_structureOf :
    SafeEntry plan spread (fun st view ref => condition view ref ∧ view.memory = some st)
      (structureOf spread.id) world := by
  refine assertable.safe_readOrFail before ?_
  intro now st met found
  exact ⟨met.1, met.2, found⟩

theorem safe_of_keeps {program : Program World Value}
    (keeps : program.Keeps (Holds plan spread.id condition)) :
    SafeEntry plan spread (fun _ => condition) program world := by
  refine Safe.weaken (Safe.of_keeps keeps assertable.stable before fun _ => assertable.always)
    ?_ ?_
  · exact fun _ _ met => met
  · exact fun _ met => met.mono assertable.loose

end

end

end Assertable

theorem assertable_live : Assertable spread (LiveRef spread) :=
  ⟨forward_of_live, fun _ _ => Live.toTracks⟩
where
  forward_of_live : Forward (LiveRef spread) := fun _ _ _ moves live => Live.moves live moves

theorem assertable_loose : Assertable spread (LooseRef spread) :=
  ⟨fun _ _ _ moves tracks => Tracks.moves tracks moves, fun _ _ => id⟩

theorem forward_memoryIs (st : StructureState) : Forward fun view _ => view.memory = some st :=
  forward_memory fun memory => memory = some st

/-! ## Steps that any structure survives -/

section

variable {condition : ViewCondition}

theorem keeps_waitFor {holds : World → Prop} (stop : World → Bool) (polls : ℕ) :
    (waitFor stop polls).Keeps holds := by
  induction polls with
  | zero => exact .done
  | succ polls ih =>
    refine .bind .read ?_
    intro stopped
    exact .ite .done ih

/-- Asking for a cancel is not yet one. -/
theorem keeps_cancel (forward : Forward condition) (ref : OrderRef) :
    (cancel ref).Keeps (Holds plan spread.id condition) := by
  refine .modify ?_
  intro world holds
  have later : ∀ trade ∈ world.trades, trade.orderId = ref.orderId →
      Later trade (cancelTrade trade) :=
    fun trade _ _ => later_cancelTrade trade
  exact ⟨holds.1.withTrade later, forward _ _ _ (World.moves_withTrade later) holds.2⟩

end

variable {world : World}

theorem Steady.put (steady : Steady plan world) (structureId : String) (st : StructureState) :
    Steady plan (world.put structureId st) :=
  ⟨steady.unique, steady.fresh, steady.planned⟩

theorem holds_put (condition : ViewCondition) {st : StructureState} (steady : Steady plan world)
    (met : condition { world.view spread.id with memory := some st } (world.orders spread.id)) :
    Holds plan spread.id condition (world.put spread.id st) := by
  refine ⟨Steady.put steady spread.id st, ?_⟩
  rw [World.view_put]
  exact met

variable {condition : ViewCondition} {ends : Unit → ViewCondition}

theorem safe_save (assertable : Assertable spread condition)
    (live : ∀ view ref, condition view ref → LiveRef spread view ref)
    (before : Holds plan spread.id condition world)
    (ended : ∀ view ref st, condition view ref → view.memory = some st →
      ends () { view with
        disk := keptState view.disk st, memory := some (keptState view.disk st) } ref) :
    SafeEntry plan spread ends save world := by
  refine Safe.step assertable.stable before (fun _ => assertable.always) ?_
  intro now met
  obtain ⟨st, isMemory, _⟩ := (live _ _ met.2).loaded
  have kept := saveOwned_structures now.memory now.disk spread.id isMemory
  by_cases writable : now.writable
  · simp only [writable, if_true]
    refine ⟨⟨met.1.unique, met.1.fresh, met.1.planned⟩, ?_⟩
    have after := ended _ _ st met.2 isMemory
    simpa [World.view, World.onDisk, kept, World.placedFor] using after
  · simp only [writable, Bool.false_eq_true, if_false]
    refine ⟨⟨met.1.unique, met.1.fresh, met.1.planned⟩, ?_⟩
    have after := (Live.save (live _ _ met.2) isMemory).1.toTracks
    simpa [LooseRef, World.view, World.onDisk, kept, World.placedFor] using after

theorem safe_saveLive (before : Holds plan spread.id (LiveRef spread) world) :
    SafeEntry plan spread (fun _ => LiveRef spread) save world := by
  refine safe_save assertable_live (fun _ _ => id) before ?_
  intro view ref st live isMemory
  exact (Live.save live isMemory).2

section

variable (assertable : Assertable spread condition)

include assertable

section

variable (before : Holds plan spread.id condition world)

include before

theorem safe_transition {target : Status}
    (ended : ∀ view ref st, condition view ref → view.memory = some st →
      transitionAllowed st.status target →
        ends () { view with memory := some { st with status := target } } ref) :
    SafeEntry plan spread ends (transition spread.id target) world := by
  refine assertable.safe_modifyOrFail before ?_
  intro now next met changed
  obtain ⟨st, isMemory, moved⟩ := Option.bind_eq_some_iff.mp changed
  by_cases allowed : transitionAllowed st.status target
  · rw [if_pos allowed] at moved
    cases moved
    exact holds_put (ends ()) met.1 (ended _ _ st met.2 isMemory allowed)
  · rw [if_neg allowed] at moved
    cases moved

theorem safe_update {change : StructureState → StructureState}
    (ended : ∀ view ref st, condition view ref → view.memory = some st →
      ends () { view with memory := some (change st) } ref) :
    SafeEntry plan spread ends (update spread.id change) world := by
  refine assertable.safe_modifyOrFail before ?_
  intro now next met changed
  obtain ⟨st, isMemory, rfl⟩ := Option.map_eq_some_iff.mp changed
  exact holds_put (ends ()) met.1 (ended _ _ st met.2 isMemory)

theorem safe_setOrder {ref : Option OrderRef}
    (ended : ∀ view was, condition view was → ends () view ref) :
    SafeEntry plan spread ends (setOrder spread.id ref) world := by
  refine assertable.safe_modify before ?_
  intro now met
  refine ⟨⟨met.1.unique, met.1.fresh, met.1.planned⟩, ?_⟩
  have isSet : (now.setOrder spread.id ref).orders spread.id = ref := Function.update_self ..
  rw [World.view_setOrder, isSet]
  exact ended _ _ met.2

end

end

/-! ## Merging the fills of an order -/

/-- The structure is entering under a handle. -/
def Entering (spread : PutSpread) (ref : OrderRef) : ViewCondition :=
  fun view held => held = some ref ∧ LiveRef spread view held ∧
    ∃ st, view.memory = some st ∧ st.status = .enterWorking

/-- The book holds all fills, and no order is working. -/
def Counted (view : View) : Prop :=
  AllFinal view.placed ∧ ∃ st, view.memory = some st ∧ st.status = .enterWorking ∧
    st.filledQty = packages view.placed

/-- A report on the order of the handle: its last one where it says so, or where the order is known
to be over. -/
def Reported (spread : PutSpread) (ref : OrderRef) (known : Prop) (info : OrderStatusInfo) :
    ViewCondition :=
  fun view held => Entering spread ref view held ∧ ∃ trade ∈ view.placed,
    trade.orderId = ref.orderId ∧ info.filled ≤ trade.filled ∧
      (info.Terminal ∨ known → trade.Terminal ∧ trade.filled = info.filled)

variable {ref : OrderRef}

theorem assertable_entering : Assertable spread (Entering spread ref) where
  forward := by
    intro before after held moves entering
    refine ⟨entering.1, Live.moves entering.2.1 moves, ?_⟩
    rw [moves.memory]
    exact entering.2.2
  loose _ _ entering := entering.2.1.toTracks

theorem forward_counted : Forward fun view _ => Counted view := by
  intro before after held moves counted
  obtain ⟨final, st, isMemory, entering, complete⟩ := counted
  obtain ⟨sum, finalAfter⟩ := moves.placed.packages_of_terminal final
  exact ⟨finalAfter, st, moves.memory.trans isMemory, entering, complete.trans sum.symm⟩

variable {known : Prop}

theorem assertable_reported {info : OrderStatusInfo} :
    Assertable spread (Reported spread ref known info) where
  forward := by
    intro before after held moves reported
    obtain ⟨entering, trade, isMember, same, le, last⟩ := reported
    obtain ⟨now, isNow, later⟩ := moves.placed.next isMember
    refine ⟨assertable_entering.forward before after held moves entering, now, isNow,
      later.orderId.trans same, le.trans later.grows, ?_⟩
    intro ended
    obtain ⟨final, filled⟩ := last ended
    exact ⟨(later.final final).1, (later.final final).2.trans filled⟩
  loose _ _ reported := reported.1.2.1.toTracks

theorem terminal_info {trade : Trade} : trade.info.Terminal ↔ trade.Terminal := by
  rw [OrderStatusInfo.Terminal, Trade.Terminal, Trade.info]
  by_cases empty : trade.status = ""
  · simp [empty, terminalStatuses]
  · simp [empty]

/-- The broker is asked for the order of the handle. -/
theorem safe_orderStatus (before : Holds plan spread.id
      (fun view held => Entering spread ref view held ∧ (known → AllFinal view.placed)) world) :
    SafeEntry plan spread (Reported spread ref known) (orderStatus ref) world := by
  have forward : Forward fun view _ => known → AllFinal view.placed :=
    fun _ _ _ moves met ended => (met ended).later moves.placed
  refine (assertable_entering.and forward).safe_readOrFail before ?_
  intro now info met found
  obtain ⟨trade, isTrade, rfl⟩ := Option.map_eq_some_iff.mp found
  obtain ⟨inTrades, sameId⟩ := World.mem_of_trade isTrade
  obtain ⟨entering, ended⟩ := met.2
  have candidate : handled (now.orders spread.id) ref.orderId := by
    rw [entering.1]
    exact ⟨ref, rfl, rfl⟩
  obtain ⟨placed, isPlaced, samePlaced⟩ := entering.2.1.placed ref.orderId candidate
  obtain rfl : placed = trade :=
    List.inj_on_of_nodup_map met.1.unique (World.mem_placedFor.mp isPlaced).1 inTrades
      (samePlaced.trans sameId.symm)
  refine ⟨met.1, entering, placed, isPlaced, sameId, le_refl _, ?_⟩
  intro last
  refine ⟨?_, rfl⟩
  rcases last with final | isOver
  · exact terminal_info.mp final
  · exact ended isOver placed isPlaced

/-- The accounting either moves the checkpoint of the order or raises. -/
theorem drain_entry (st : StructureState) (report : WorkingOrder) (entry : report.role = .entry) :
    (∃ after new, drain st report = .ok ({ st with entry := after }, new) ∧
      Drains (st.entry.adopt report.orderId) report.filled after) ∨
      ∃ error, drain st report = .error error := by
  rw [drain, entry]
  cases drained : st.entry.drain report with
  | ok result => exact .inl ⟨result.1, result.2, rfl, drains_drain drained⟩
  | error error => exact .inr ⟨error, rfl⟩

theorem entering_inLane {st : StructureState} (entering : st.status = .enterWorking) :
    st.status ∈ entryLane := by
  rw [entering]
  decide

section

variable {ref : OrderRef} {known : Prop} {info : OrderStatusInfo} {view : View}
  {held : Option OrderRef} {st : StructureState} {lane : Lane}

section

variable (entering : Entering spread ref view held)

include entering

theorem Entering.records (isMemory : view.memory = some st) :
    Records view.placed st.entry ref.orderId := by
  obtain ⟨isHeld, live, other, isOther, working⟩ := entering
  cases isOther.symm.trans isMemory
  have candidate : handled held ref.orderId := isHeld ▸ ⟨ref, rfl, rfl⟩
  obtain ⟨trade, isPlaced, same⟩ := live.placed ref.orderId candidate
  have recorded := (live.memory st isMemory).recorded (entering_inLane working) trade isPlaced
  rw [same] at recorded
  exact recorded (.inl candidate)

theorem Entering.putLane (isMemory : view.memory = some st)
    (records : Records view.placed lane ref.orderId)
    (order : lane.order = some (toString ref.orderId)) :
    Entering spread ref { view with memory := some { st with entry := lane } } held := by
  obtain ⟨isHeld, live, other, isOther, working⟩ := entering
  cases isOther.symm.trans isMemory
  have candidate : handled held ref.orderId := isHeld ▸ ⟨ref, rfl, rfl⟩
  refine ⟨isHeld, Live.put live isMemory ?_ (fun _ => entering_inLane working), _, rfl, working⟩
  refine ⟨fun apart => absurd working apart, fun isPlanned => ?_, ?_, ?_⟩
  · have both : Status.enterWorking = Status.planned := working.symm.trans isPlanned
    cases both
  · intro _ trade isPlaced counts
    have isCandidate : handled held trade.orderId :=
      counts.elim id (live.working trade isPlaced)
    rw [live.sole _ _ isCandidate candidate]
    exact records
  · intro _ text isText
    obtain ⟨trade, isPlaced, same⟩ := live.placed ref.orderId candidate
    refine ⟨ref.orderId, same ▸ live.fresh trade isPlaced, ?_⟩
    exact Option.some.inj (isText.symm.trans order)

theorem Entering.bounds : ∀ trade ∈ view.placed, 0 ≤ trade.filled :=
  fun trade isPlaced => (entering.2.1.sound.bounded trade isPlaced).1

/-- The order is taken up, whatever the accounting does then. -/
theorem Entering.adopt (isMemory : view.memory = some st) :
    Entering spread ref
      { view with memory := some { st with entry := st.entry.adopt (toString ref.orderId) } }
      held :=
  entering.putLane isMemory ((entering.records isMemory).adopt entering.bounds) (adopt_order _ _)

end

/-- **The last report on an order makes the book complete.** -/
theorem Reported.merge (reported : Reported spread ref known info view held)
    (isMemory : view.memory = some st)
    (drains : Drains (st.entry.adopt (toString ref.orderId)) info.filled lane) :
    Entering spread ref { view with memory := some { st with entry := lane } } held ∧
      (info.Terminal ∨ known →
        Counted { view with memory := some { st with entry := lane } }) := by
  obtain ⟨entering, trade, isPlaced, same, le, last⟩ := reported
  have adopted := (entering.records isMemory).adopt entering.bounds
  have unique := entering.2.1.sound.unique
  have truthful : ∀ other ∈ view.placed, other.orderId = ref.orderId →
      info.filled ≤ other.filled := by
    intro other isOther sameOther
    obtain rfl := List.inj_on_of_nodup_map unique isOther isPlaced (sameOther.trans same.symm)
    exact le
  have after := adopted.drains (adopt_order _ _) drains truthful
  refine ⟨entering.putLane isMemory after (drains.order.trans (adopt_order _ _)), ?_⟩
  intro ended
  obtain ⟨final, filled⟩ := last ended
  rw [← filled] at drains
  have complete := adopted.complete (adopt_order _ _) unique isPlaced same drains
  obtain ⟨isHeld, live, other, isOther, working⟩ := entering
  cases isOther.symm.trans isMemory
  refine ⟨?_, _, rfl, working, complete⟩
  intro other isOther
  by_cases isSame : other.orderId = ref.orderId
  · rw [List.inj_on_of_nodup_map unique isOther isPlaced (isSame.trans same.symm)]
    exact final
  · have candidate : handled held ref.orderId := by
      rw [isHeld]
      exact ⟨ref, rfl, rfl⟩
    exact live.others ref.orderId candidate other isOther isSame

end

theorem safe_mergeReport {info : OrderStatusInfo}
    (before : Holds plan spread.id (Reported spread ref known info) world) : SafeEntry plan spread
      (fun _ view held => Entering spread ref view held ∧
        (info.Terminal ∨ known → Counted view))
      (mergeOrderTotal spread.id info.filled info.avgFillPrice (toString ref.orderId)) world := by
  refine Safe.step assertable_reported.stable before (fun _ => assertable_reported.always) ?_
  intro now met
  obtain ⟨st, isMemory, _⟩ := met.2.1.2.1.loaded
  have inMemory : now.memory.structures spread.id = some st := isMemory
  rw [inMemory]
  simp only [Option.elim]
  rcases drain_entry st (entryReport info.filled info.avgFillPrice (toString ref.orderId)) rfl
    with ⟨lane, new, drained, drains⟩ | ⟨error, raised⟩
  · simp only [mergeChanges, mergedState, drained]
    have merged := Reported.merge met.2 isMemory drains
    exact holds_put (fun view held => Entering spread ref view held ∧
      (info.Terminal ∨ known → Counted view)) met.1 merged
  · simp only [mergeChanges, mergedState, raised]
    exact holds_put (LooseRef spread) met.1 (met.2.1.adopt isMemory).2.1.toTracks

/-- **The fills of the order of the handle are merged**, and all of them once it is over. -/
theorem safe_mergeFills (before : Holds plan spread.id
      (fun view held => Entering spread ref view held ∧ (known → AllFinal view.placed)) world) :
    SafeEntry plan spread
      (fun result view held => Entering spread ref view held ∧
        (result.1.Terminal ∨ known → Counted view))
      (mergeFills spread.id ref) world := by
  refine Safe.bind (safe_orderStatus before) ?_
  intro info now reported
  refine Safe.bind (safe_mergeReport reported) ?_
  intro changed later merged
  exact merged

end

end TreeOptions.Trex.Enter
