import TreeOptions.Trex.EntryOrders

/-!
# Placing an entry and replacing it

Each part of the runner leaves the structure it acts on in order, from its start to its end and
wherever it is interrupted. An order for what is missing is placed where the book is complete, on
disk as in memory, and no order is working (`safe_place`). A replacement follows the last fills of
the cancelled order (`safe_reprice`).
-/

set_option autoImplicit false

namespace TreeOptions.Trex.Enter

open Decimal

section

variable {plan : TradePlan} {spread : PutSpread} {world : World} {limit : ℚ} {ref : OrderRef}

/-! ## Placing -/

/-- The book is complete and no order is working. -/
def Clear (spread : PutSpread) : ViewCondition :=
  fun view held => LiveRef spread view held ∧ AllFinal view.placed ∧
    ∃ st, view.memory = some st ∧ st.status ∈ entryLane ∧ st.filledQty = packages view.placed

/-- The structure is entering, with a complete book. -/
def Ready (spread : PutSpread) (qty : ℤ) : ViewCondition :=
  fun view held => LiveRef spread view held ∧ AllFinal view.placed ∧
    ∃ st, view.memory = some st ∧ st.status = .enterWorking ∧ st.filledQty = qty ∧
      qty = packages view.placed

/-- The complete book is on disk. -/
def Saved (spread : PutSpread) (qty : ℤ) : ViewCondition :=
  fun view held => LiveRef spread view held ∧ AllFinal view.placed ∧
    ∃ st, view.memory = some st ∧ view.disk = st ∧ st.status = .enterWorking ∧
      st.filledQty = qty ∧ qty = packages view.placed

/-- A new order is at the broker, and the runner has not yet its handle. -/
def Placed (spread : PutSpread) (ref : OrderRef) : ViewCondition :=
  fun view _ => Live (handled (some ref)) spread.quantity view ∧
    ∃ st, view.memory = some st ∧ st.status = .enterWorking ∧
      st.entry.order ≠ some (toString ref.orderId)

/-- The new order is at hand, and the book does not know it. -/
def Unrecorded (spread : PutSpread) (ref : OrderRef) : ViewCondition :=
  fun view held => Entering spread ref view held ∧
    ∀ st ∈ view.memory, st.entry.order ≠ some (toString ref.orderId)

theorem assertable_clear : Assertable spread (Clear spread) where
  forward := by
    intro before after held moves clear
    obtain ⟨live, final, st, isMemory, inLane, complete⟩ := clear
    obtain ⟨sum, finalAfter⟩ := moves.placed.packages_of_terminal final
    exact ⟨Live.moves live moves, finalAfter, st, moves.memory.trans isMemory, inLane,
      complete.trans sum.symm⟩
  loose _ _ clear := clear.1.toTracks

theorem assertable_ready {qty : ℤ} : Assertable spread (Ready spread qty) where
  forward := by
    intro before after held moves ready
    obtain ⟨live, final, st, isMemory, entering, isQty, complete⟩ := ready
    obtain ⟨sum, finalAfter⟩ := moves.placed.packages_of_terminal final
    exact ⟨Live.moves live moves, finalAfter, st, moves.memory.trans isMemory, entering, isQty,
      complete.trans sum.symm⟩
  loose _ _ ready := ready.1.toTracks

theorem assertable_saved {qty : ℤ} : Assertable spread (Saved spread qty) where
  forward := by
    intro before after held moves saved
    obtain ⟨live, final, st, isMemory, isDisk, entering, isQty, complete⟩ := saved
    obtain ⟨sum, finalAfter⟩ := moves.placed.packages_of_terminal final
    refine ⟨Live.moves live moves, finalAfter, st, moves.memory.trans isMemory, ?_, entering,
      isQty, complete.trans sum.symm⟩
    rcases moves.disk with same | ⟨past, _⟩
    · exact same.trans isDisk
    · rw [isDisk] at past
      exact absurd (entering_inLane entering) past
  loose _ _ saved := saved.1.toTracks

theorem forward_placed : Forward (Placed spread ref) := by
  intro before after held moves placed
  obtain ⟨live, isMemory⟩ := placed
  refine ⟨live.moves moves, ?_⟩
  rw [moves.memory]
  exact isMemory

theorem assertable_unrecorded : Assertable spread (Unrecorded spread ref) :=
  assertable_entering.and
    (forward_memory fun memory => ∀ st ∈ memory, st.entry.order ≠ some (toString ref.orderId))

section

variable {view : View} {held : Option OrderRef} {st : StructureState} {qty : ℤ}

theorem clear_of_planned (live : LiveRef spread view held) (isMemory : view.memory = some st)
    (planned : st.status = .planned) : Clear spread view held := by
  have faithful := live.memory st isMemory
  have apart : st.status ≠ .enterWorking := by
    rw [planned]
    decide
  have inLane : st.status ∈ entryLane := by
    rw [planned]
    decide
  exact ⟨live, faithful.settled apart, st, isMemory, inLane, faithful.planned planned⟩

theorem clear_of_counted (live : LiveRef spread view held) (counted : Counted view) :
    Clear spread view held := by
  obtain ⟨final, st, isMemory, entering, complete⟩ := counted
  exact ⟨live, final, st, isMemory, entering_inLane entering, complete⟩

/-- A planned structure starts to enter. -/
theorem Clear.enter (clear : Clear spread view held) (isMemory : view.memory = some st) :
    Ready spread st.filledQty
      { view with memory := some { st with status := .enterWorking } } held := by
  obtain ⟨live, final, other, isOther, inLane, complete⟩ := clear
  cases isOther.symm.trans isMemory
  have faithful := live.memory st isMemory
  have entered : Faithful (handled held) view.placed view.next
      { st with status := .enterWorking } :=
    ⟨fun _ => final, fun isPlanned => Status.noConfusion isPlanned,
      fun _ => faithful.recorded inLane, fun _ => faithful.known inLane⟩
  exact ⟨Live.put live isMemory entered fun _ => inLane, final, _, rfl, rfl, rfl, complete⟩

/-- **An order for what is missing** is placed while none is working and the book on disk is
complete. -/
theorem Saved.place (saved : Saved spread qty view held) (missing : 0 < spread.quantity - qty) :
    Live (handled (some (newRef spread .buy (spread.quantity - qty) limit view.next)))
      spread.quantity
      { view with
        placed := view.placed ++ [newTrade spread .buy (spread.quantity - qty) limit view.next]
        next := view.next + 1 } := by
  obtain ⟨live, final, st, isMemory, isDisk, entering, isQty, complete⟩ := saved
  have apart : ∀ trade ∈ view.placed, trade.orderId ≠ view.next :=
    fun trade isPlaced => (live.fresh trade isPlaced).ne
  have isNew : ∀ orderId,
      handled (some (newRef spread .buy (spread.quantity - qty) limit view.next)) orderId →
        orderId = view.next := by
    rintro orderId ⟨other, isOther, rfl⟩
    cases isOther
    rfl
  have unknown : st.entry.order ≠ some (toString view.next) := by
    intro order
    obtain ⟨orderId, lt, same⟩ := (live.memory st isMemory).known (entering_inLane entering) _ order
    exact absurd (toString_injective same) lt.ne'
  have records : Records
      (view.placed ++ [newTrade spread .buy (spread.quantity - qty) limit view.next])
      st.entry view.next := by
    refine ⟨?_, fun order => absurd order unknown⟩
    rw [recordedBesides, if_neg unknown, besides, List.filter_append, ← besides,
      besides_of_fresh apart]
    have filled : st.entry.filledQty = packages view.placed := isQty.trans complete
    simpa [newTrade] using filled
  have faithful : Faithful
      (handled (some (newRef spread .buy (spread.quantity - qty) limit view.next)))
      (view.placed ++ [newTrade spread .buy (spread.quantity - qty) limit view.next])
      (view.next + 1) st := by
    refine ⟨fun different => absurd entering different, ?_, ?_, ?_⟩
    · intro planned
      exact Status.noConfusion (entering.symm.trans planned)
    · intro _ trade isPlaced counts
      rcases List.mem_append.mp isPlaced with inside | new
      · rcases counts with candidate | works
        · exact absurd (isNew _ candidate) (apart trade inside)
        · exact absurd (final trade inside) works
      · rw [List.mem_singleton.mp new]
        exact records
    · intro inLane text order
      obtain ⟨orderId, lt, same⟩ := (live.memory st isMemory).known inLane text order
      exact ⟨orderId, lt.trans (Nat.lt_succ_self _), same⟩
  refine ⟨⟨?_, ?_, ?_, ?_, ?_, ?_, ?_, ?_⟩, ?_, ?_⟩
  · refine live.sound.place final apart rfl rfl missing.le ?_
    show packages view.placed + (spread.quantity - qty) ≤ spread.quantity
    omega
  · exact List.forall_mem_append.mpr ⟨fun trade inside => (live.fresh trade inside).trans
      (Nat.lt_succ_self _), List.forall_mem_singleton.mpr (Nat.lt_succ_self _)⟩
  · intro first second isFirst isSecond
    rw [isNew first isFirst, isNew second isSecond]
  · intro orderId candidate
    exact ⟨_, List.mem_concat_self, (isNew orderId candidate).symm⟩
  · intro orderId candidate trade isPlaced different
    rcases List.mem_append.mp isPlaced with inside | new
    · exact final trade inside
    · rw [List.mem_singleton.mp new, isNew orderId candidate] at different
      exact absurd rfl different
  · exact List.forall_mem_append.mpr ⟨fun trade inside => absurd (final trade inside),
      List.forall_mem_singleton.mpr fun _ => ⟨_, rfl, rfl⟩⟩
  · show Faithful _ _ _ view.disk
    rw [isDisk]
    exact faithful
  · exact ⟨st, isMemory, fun past => absurd (entering_inLane entering) past⟩
  · intro other isOther
    cases isOther.symm.trans isMemory
    exact faithful
  · intro other isOther inLane
    show view.disk.status ∈ entryLane
    rw [isDisk]
    exact entering_inLane entering

/-- The book takes up the new order. -/
theorem Unrecorded.start (unrecorded : Unrecorded spread ref view held)
    (isMemory : view.memory = some st) :
    LiveRef spread { view with memory := some (startOrder ref.orderId st) } held := by
  obtain ⟨entering, unknown⟩ := unrecorded
  have records := entering.records isMemory
  refine (entering.putLane isMemory ?_ rfl).2.1
  refine ⟨?_, fun _ trade isPlaced _ => entering.bounds trade isPlaced⟩
  rw [← records.others, recordedBesides, recordedBesides, if_pos rfl,
    if_neg (unknown st isMemory), sub_zero]

end

/-- The new order, from the save before it to the save after it. -/
theorem safe_placeRemaining {qty : ℤ} (missing : 0 < spread.quantity - qty)
    (inPlan : spread ∈ plan.structures)
    (before : Holds plan spread.id (Ready spread qty) world) :
    SafeEntry plan spread (fun _ => LiveRef spread)
      (placeRemaining spread limit (spread.quantity - qty)) world := by
  refine Safe.via (fun _ => Holds plan spread.id (Saved spread qty)) ?_ ?_
  · refine safe_save assertable_ready (fun _ _ => And.left) before ?_
    intro view held st ready isMemory
    obtain ⟨live, final, other, isOther, entering, isQty, complete⟩ := ready
    cases isOther.symm.trans isMemory
    have kept : keptState view.disk st = st :=
      if_pos (live.lanes st isMemory (entering_inLane entering))
    have both := (Live.save live isMemory).2
    rw [kept] at both ⊢
    exact ⟨both, final, st, rfl, rfl, entering, isQty, complete⟩
  intro _ now saved
  refine Safe.via (fun ref => Holds plan spread.id (Placed spread ref)) ?_ ?_
  · refine assertable_saved.safe_act saved ?_
    intro then' met
    refine ⟨met.1.withOrder inPlan .buy (spread.quantity - qty) limit, ?_⟩
    show Placed spread _ ((then'.withOrder spread .buy (spread.quantity - qty) limit).view
      spread.id) _
    rw [World.view_withOrder]
    refine ⟨met.2.place missing, ?_⟩
    obtain ⟨live, final, st, isMemory, isDisk, entering, isQty, complete⟩ := met.2
    refine ⟨st, isMemory, entering, ?_⟩
    intro order
    obtain ⟨orderId, lt, same⟩ := (live.memory st isMemory).known (entering_inLane entering) _ order
    exact absurd (toString_injective same) lt.ne'
  intro ref now placed
  refine Safe.via (fun _ => Holds plan spread.id (Unrecorded spread ref)) ?_ ?_
  · refine Safe.modify forward_placed.stable placed ?_ ?_
    · exact fun _ met => met.mono fun _ _ isPlaced => isPlaced.1.idle
    · intro then' met
      refine ⟨⟨met.1.unique, met.1.fresh, met.1.planned⟩, ?_⟩
      have isSet : (then'.setOrder spread.id (some ref)).orders spread.id = some ref :=
        Function.update_self ..
      rw [World.view_setOrder, isSet]
      obtain ⟨live, st, isMemory, entering, unknown⟩ := met.2
      refine ⟨⟨rfl, live, st, isMemory, entering⟩, ?_⟩
      intro other isOther
      cases isOther.symm.trans isMemory
      exact unknown
  intro _ now unrecorded
  refine Safe.via (fun _ => Holds plan spread.id (LiveRef spread)) ?_ ?_
  · refine safe_update assertable_unrecorded unrecorded ?_
    intro view held st met isMemory
    exact Unrecorded.start met isMemory
  intro _ now live
  exact safe_saveLive live

theorem safe_placeNothing {qty : ℤ} (before : Holds plan spread.id (Ready spread qty) world) :
    SafeEntry plan spread (fun _ => LiveRef spread) (placeNothing spread) world := by
  refine Safe.via (fun _ => Holds plan spread.id (LiveRef spread)) ?_ ?_
  · refine safe_transition assertable_ready before ?_
    intro view held st ready _ _
    refine Tracks.leave ready.1.toTracks ready.2.1 ?_
    show Status.opened ∉ entryLane
    decide
  · intro _ now live
    exact safe_saveLive live

/-- **An order is placed only for what no order bought.** -/
theorem safe_place (inPlan : spread ∈ plan.structures)
    (before : Holds plan spread.id (Clear spread) world) :
    SafeEntry plan spread (fun _ => LiveRef spread) (place spread limit) world := by
  refine Safe.bind (assertable_clear.safe_structureOf before) ?_
  intro st now clear
  have assertable : Assertable spread
      (fun view held => Clear spread view held ∧ view.memory = some st) :=
    assertable_clear.and (forward_memoryIs st)
  refine Safe.via (fun _ => Holds plan spread.id (Ready spread st.filledQty)) ?_ ?_
  · refine Safe.when ?_ ?_
    · intro _
      refine safe_transition assertable clear ?_
      intro view held other met isMemory _
      cases isMemory.symm.trans met.2
      exact Clear.enter met.1 met.2
    · intro notPlanned
      refine clear.mono ?_
      intro view held met
      obtain ⟨⟨live, final, other, isOther, inLane, complete⟩, isMemory⟩ := met
      cases isOther.symm.trans isMemory
      have entering : st.status = .enterWorking := by
        simp [entryLane] at inLane
        exact inLane.resolve_left notPlanned
      exact ⟨live, final, st, isMemory, entering, rfl, complete⟩
  intro _ now ready
  refine Safe.ite ?_ ?_
  · intro _
    exact safe_placeNothing ready
  · intro more
    exact safe_placeRemaining (not_le.mp more) inPlan ready

/-! ## Replacing -/

theorem Reported.final {known : Prop} {info : OrderStatusInfo} {view : View}
    {held : Option OrderRef} (reported : Reported spread ref known info view held)
    (last : info.Terminal) : AllFinal view.placed := by
  obtain ⟨entering, trade, isPlaced, same, _, ended⟩ := reported
  intro other isOther
  by_cases isSame : other.orderId = ref.orderId
  · rw [List.inj_on_of_nodup_map entering.2.1.sound.unique isOther isPlaced
      (isSame.trans same.symm)]
    exact (ended (.inl last)).1
  · have candidate : handled held ref.orderId := by
      rw [entering.1]
      exact ⟨ref, rfl, rfl⟩
    exact entering.2.1.others ref.orderId candidate other isOther isSame

theorem holds_entering (before : Holds plan spread.id (Entering spread ref) world) :
    Holds plan spread.id
      (fun view held => Entering spread ref view held ∧ (False → AllFinal view.placed)) world :=
  before.mono fun _ _ entering => ⟨entering, False.elim⟩

theorem safe_placeConfirmed (inPlan : spread ∈ plan.structures)
    (before : Holds plan spread.id (Entering spread ref) world) :
    SafeEntry plan spread (fun _ => LiveRef spread) (placeConfirmed spread limit ref) world := by
  refine Safe.bind (safe_orderStatus (holds_entering before)) ?_
  intro info now reported
  refine Safe.ite ?_ ?_
  · intro last
    have ended : Holds plan spread.id
        (fun view held => Entering spread ref view held ∧ (True → AllFinal view.placed)) now :=
      reported.mono fun _ _ met => ⟨met.1, fun _ => Reported.final met last⟩
    refine Safe.bind (safe_mergeFills ended) ?_
    intro result later merged
    refine safe_place inPlan (merged.mono ?_)
    intro view held met
    exact clear_of_counted met.1.2.1 (met.2 (.inr trivial))
  · intro _
    exact reported.mono fun _ _ met => met.1.2.1

theorem safe_placeAfterCancel (inPlan : spread ∈ plan.structures)
    (before : Holds plan spread.id (Entering spread ref) world) :
    SafeEntry plan spread (fun _ => LiveRef spread) (placeAfterCancel spread limit) world := by
  refine Safe.bind
    (assertable_entering.safe_of_keeps before (keeps_waitFor (noneWorking spread.id) 6)) ?_
  intro _ now waited
  refine Safe.via (fun held now =>
    held = some ref ∧ Holds plan spread.id (Entering spread ref) now) ?_ ?_
  · refine Safe.read assertable_entering.stable waited (fun _ => assertable_entering.always) ?_
    intro later met
    exact ⟨met.2.1, met⟩
  rintro _ later ⟨rfl, entering⟩
  exact safe_placeConfirmed inPlan entering

theorem Faithful.countCycle {candidate : ℕ → Prop} {placed : List Trade} {next : ℕ}
    {st : StructureState} (faithful : Faithful candidate placed next st) :
    Faithful candidate placed next (countCycle st) where
  settled := faithful.settled
  planned := faithful.planned
  recorded inLane trade isPlaced counts :=
    ⟨(faithful.recorded inLane trade isPlaced counts).others,
      (faithful.recorded inLane trade isPlaced counts).seen⟩
  known := faithful.known

theorem safe_repriceOrder (inPlan : spread ∈ plan.structures)
    (before : Holds plan spread.id (Entering spread ref) world) :
    SafeEntry plan spread (fun _ => LiveRef spread) (repriceOrder spread limit ref) world := by
  refine Safe.bind (safe_orderStatus (holds_entering before)) ?_
  intro info now reported
  have entering : Holds plan spread.id (Entering spread ref) now :=
    reported.mono fun _ _ met => met.1
  refine Safe.ite ?_ ?_
  · intro _
    exact entering.mono fun _ _ met => met.2.1
  · intro _
    refine Safe.bind (assertable_entering.safe_of_keeps entering
      (keeps_cancel assertable_entering.forward ref)) ?_
    intro _ asked cancelled
    refine Safe.via (fun _ => Holds plan spread.id (Entering spread ref)) ?_ ?_
    · refine safe_update assertable_entering cancelled ?_
      intro view held st met isMemory
      obtain ⟨isHeld, live, other, isOther, working⟩ := met
      cases isOther.symm.trans isMemory
      exact ⟨isHeld, Live.put live isMemory (live.memory st isMemory).countCycle id, _, rfl,
        working⟩
    · intro _ counted met
      exact safe_placeAfterCancel inPlan met

/-- The structure is entering. -/
def EnteringRef (spread : PutSpread) : ViewCondition :=
  fun view held => LiveRef spread view held ∧
    ∃ st, view.memory = some st ∧ st.status = .enterWorking

theorem assertable_enteringRef : Assertable spread (EnteringRef spread) :=
  assertable_live.and
    (forward_memory fun memory => ∃ st, memory = some st ∧ st.status = .enterWorking)

theorem safe_readRef {Value : Type} {ends : Value → ViewCondition}
    {next : Option OrderRef → Program World Value}
    (before : Holds plan spread.id (EnteringRef spread) world)
    (none : ∀ now, Holds plan spread.id
      (fun view held => held = none ∧ EnteringRef spread view held) now →
        SafeEntry plan spread ends (next none) now)
    (some : ∀ ref now, Holds plan spread.id (Entering spread ref) now →
      SafeEntry plan spread ends (next (some ref)) now) :
    SafeEntry plan spread ends ((Program.read fun world => world.orders spread.id) >>= next)
      world := by
  refine Safe.via (fun held now => now.orders spread.id = held ∧
    Holds plan spread.id (EnteringRef spread) now) ?_ ?_
  · refine Safe.read assertable_enteringRef.stable before (fun _ => assertable_enteringRef.always)
      ?_
    intro now met
    exact ⟨rfl, met⟩
  rintro held now ⟨rfl, met⟩
  cases isHeld : now.orders spread.id with
  | none => exact none now ⟨met.1, isHeld, met.2⟩
  | some ref => exact some ref now ⟨met.1, isHeld, met.2⟩

theorem safe_reprice (inPlan : spread ∈ plan.structures)
    (before : Holds plan spread.id (EnteringRef spread) world) :
    SafeEntry plan spread (fun _ => LiveRef spread) (reprice spread limit) world := by
  refine safe_readRef before ?_ ?_
  · intro now met
    exact met.mono fun _ _ entering => entering.2.1
  · intro ref now entering
    refine Safe.ite ?_ ?_
    · intro _
      exact entering.mono fun _ _ met => met.2.1
    · intro _
      exact safe_repriceOrder inPlan entering

end

end TreeOptions.Trex.Enter
