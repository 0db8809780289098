import TreeOptions.Trex.EntryPlacing

/-!
# Stopping an entry and draining its fills

A structure leaves the entry lane only when all its orders are over: the order of the handle is
reported terminal, or there is no handle, and then no order is working (`safe_cancelAndSettle`). The
evidence the broker gives for an order without a handle need not be right. A handle is dropped only
after the order is over (`safe_drainFill`).
-/

set_option autoImplicit false

namespace TreeOptions.Trex.Enter

open Decimal

section

variable {conId : OptionContract → ℕ} {plan : TradePlan} {spread : PutSpread} {world : World}
  {ref : OrderRef}

/-! ## Settling -/

/-- All orders are over, and the structure is still in the lane. -/
def Leaving (spread : PutSpread) : ViewCondition :=
  fun view held => LooseRef spread view held ∧ AllFinal view.placed ∧
    ∃ st, view.memory = some st ∧ st.status ∈ entryLane

/-- Settled, or still working. -/
def SettledOrLive (spread : PutSpread) (settled : Bool) : ViewCondition :=
  fun view held => if settled then Leaving spread view held else LiveRef spread view held

theorem assertable_leaving : Assertable spread (Leaving spread) where
  forward := by
    intro before after held moves leaving
    obtain ⟨loose, final, isMemory⟩ := leaving
    refine ⟨Tracks.moves loose moves, final.later moves.placed, ?_⟩
    rw [moves.memory]
    exact isMemory
  loose _ _ leaving := leaving.1

/-- Without a handle no order is working. -/
theorem final_of_no_ref {view : View} {held : Option OrderRef} (noRef : held = none)
    (loose : LooseRef spread view held) : AllFinal view.placed := by
  intro trade isPlaced
  by_contra working
  obtain ⟨ref, isHeld, _⟩ := Tracks.working loose trade isPlaced working
  rw [noRef] at isHeld
  cases isHeld

/-- What the accounting does leaves the structure in the lane. -/
theorem safe_mergeOrderTotal {filled : ℤ} {avg : Number} {orderId : String}
    (before : Holds plan spread.id (Leaving spread) world) :
    SafeEntry plan spread (fun _ => Leaving spread)
      (mergeOrderTotal spread.id filled avg orderId) world := by
  refine Safe.step assertable_leaving.stable before (fun _ => assertable_leaving.always) ?_
  intro now met
  obtain ⟨loose, final, st, isMemory, inLane⟩ := met.2
  have inMemory : now.memory.structures spread.id = some st := isMemory
  rw [inMemory]
  simp only [Option.elim]
  rcases drain_entry st (entryReport filled avg orderId) rfl
    with ⟨lane, new, drained, drains⟩ | ⟨error, raised⟩
  · simp only [mergeChanges, mergedState, drained]
    exact holds_put (Leaving spread) met.1 ⟨Tracks.put loose inLane, final, _, rfl, inLane⟩
  · simp only [mergeChanges, mergedState, raised]
    exact holds_put (LooseRef spread) met.1 (Tracks.put loose inLane)

/-- **Evidence settles a structure without a handle**, whatever it says was filled. -/
theorem safe_reconcile
    (before : Holds plan spread.id (fun view held => held = none ∧ EnteringRef spread view held)
      world) :
    SafeEntry plan spread (SettledOrLive spread) (reconcile conId spread) world := by
  have assertable : Assertable spread
      (fun view held => held = none ∧ EnteringRef spread view held) :=
    ⟨(forward_ref fun held => held = none).and assertable_enteringRef.forward,
      fun view held met => assertable_enteringRef.loose view held met.2⟩
  refine Safe.bind (assertable.safe_structureOf before) ?_
  intro st now known
  have still : Holds plan spread.id
      (fun view held => held = none ∧ EnteringRef spread view held) now :=
    known.mono fun _ _ met => met.1
  refine Safe.via (fun _ => Holds plan spread.id
    (fun view held => held = none ∧ EnteringRef spread view held)) ?_ ?_
  · exact assertable.safe_read still fun _ met => met
  intro evidence later met
  cases evidence with
  | none => exact met.mono fun _ _ entering => entering.2.1
  | some evidence =>
    have leaving : Holds plan spread.id (Leaving spread) later := by
      refine met.mono ?_
      intro view held entering
      obtain ⟨noRef, live, st, isMemory, working⟩ := entering
      exact ⟨live.toTracks, final_of_no_ref noRef live.toTracks, st, isMemory,
        entering_inLane working⟩
    refine Safe.bind (safe_mergeOrderTotal leaving) ?_
    intro _ merged settled
    exact settled

/-- The handle is dropped once its order is over and merged. -/
theorem leaving_of_counted {view : View} {held : Option OrderRef}
    (live : LiveRef spread view held) (counted : Counted view) : Leaving spread view none := by
  obtain ⟨final, st, isMemory, entering, _⟩ := counted
  refine ⟨?_, final, st, isMemory, entering_inLane entering⟩
  refine (Live.congr (Live.drop live final) ?_).toTracks
  intro orderId
  refine ⟨False.elim, ?_⟩
  rintro ⟨other, isOther, _⟩
  cases isOther

theorem safe_settleOrder (before : Holds plan spread.id (Entering spread ref) world) :
    SafeEntry plan spread (SettledOrLive spread) (settleOrder spread ref) world := by
  refine Safe.bind (safe_orderStatus (holds_entering before)) ?_
  intro info now reported
  have entering : Holds plan spread.id (Entering spread ref) now :=
    reported.mono fun _ _ met => met.1
  refine Safe.via (fun _ => Holds plan spread.id (Entering spread ref)) ?_ ?_
  · refine Safe.when ?_ fun _ => entering
    intro _
    refine assertable_entering.safe_of_keeps entering ?_
    exact .bind (keeps_cancel assertable_entering.forward ref) fun _ => keeps_waitFor _ _
  intro _ waited met
  refine Safe.bind (safe_mergeFills (holds_entering met)) ?_
  intro result later merged
  refine Safe.ite ?_ ?_
  · intro last
    have counted : Holds plan spread.id
        (fun view held => LiveRef spread view held ∧ Counted view) later :=
      merged.mono fun _ _ both => ⟨both.1.2.1, both.2 (.inl last)⟩
    refine Safe.via (fun _ => Holds plan spread.id (Leaving spread)) ?_ ?_
    · refine safe_setOrder (assertable_live.and forward_counted) counted ?_
      intro view held both
      exact leaving_of_counted both.1 both.2
    · intro _ dropped leaving
      exact leaving
  · intro _
    exact merged.mono fun _ _ both => both.1.2.1

theorem safe_settleWorking (before : Holds plan spread.id (EnteringRef spread) world) :
    SafeEntry plan spread (SettledOrLive spread) (settleWorking conId spread) world := by
  refine safe_readRef before ?_ ?_
  · intro now met
    exact safe_reconcile met
  · intro ref now entering
    exact safe_settleOrder entering

theorem safe_leaveLane (before : Holds plan spread.id (Leaving spread) world) :
    SafeEntry plan spread (fun _ => LiveRef spread) (leaveLane spread) world := by
  refine Safe.bind (assertable_leaving.safe_structureOf before) ?_
  intro st now leaving
  refine safe_transition assertable_leaving (leaving.mono fun _ _ met => met.1) ?_
  intro view held other met _ _
  refine Tracks.leave met.1 met.2.1 ?_
  show (if 0 < st.filledQty then Status.opened else Status.closed) ∉ entryLane
  split <;> decide

/-- The structure is in the entry lane. -/
def InLane (spread : PutSpread) : ViewCondition :=
  fun view held => LiveRef spread view held ∧
    ∃ st, view.memory = some st ∧ st.status ∈ entryLane

theorem assertable_inLane : Assertable spread (InLane spread) :=
  assertable_live.and (forward_memory fun memory => ∃ st, memory = some st ∧ st.status ∈ entryLane)

/-- **A structure leaves the lane only when all its orders are over.** -/
theorem safe_cancelAndSettle (before : Holds plan spread.id (InLane spread) world) :
    SafeEntry plan spread (fun _ => LiveRef spread) (cancelAndSettle conId spread) world := by
  refine Safe.bind (assertable_inLane.safe_structureOf before) ?_
  intro st now inLane
  refine Safe.via (fun settled => Holds plan spread.id (SettledOrLive spread settled)) ?_ ?_
  · refine Safe.ite ?_ ?_
    · intro entering
      refine safe_settleWorking (inLane.mono ?_)
      intro view held met
      exact ⟨met.1.1, st, met.2, entering⟩
    · intro notEntering
      refine inLane.mono ?_
      intro view held met
      obtain ⟨⟨live, other, isOther, otherLane⟩, isMemory⟩ := met
      cases isOther.symm.trans isMemory
      exact ⟨live.toTracks, (live.memory st isMemory).settled notEntering, st, isMemory, otherLane⟩
  intro settled later met
  cases settled with
  | false => exact met
  | true =>
    refine Safe.bind (safe_leaveLane met) ?_
    intro _ left live
    exact live

theorem safe_abort (before : Holds plan spread.id (InLane spread) world) :
    SafeEntry plan spread (fun _ => LiveRef spread) (abort conId spread) world := by
  refine Safe.bind (safe_cancelAndSettle before) ?_
  intro _ now live
  exact safe_saveLive live

theorem safe_flattenEntry (before : Holds plan spread.id (LiveRef spread) world) :
    SafeEntry plan spread (fun _ => LiveRef spread) (flattenEntry conId spread) world := by
  refine Safe.bind (assertable_live.safe_structureOf before) ?_
  intro st now live
  refine Safe.when ?_ fun _ => live.mono fun _ _ met => met.1
  intro inLane
  refine Safe.bind (safe_cancelAndSettle (live.mono ?_)) ?_
  · intro view held met
    exact ⟨met.1, st, met.2, inLane⟩
  · intro _ later settled
    exact settled

/-! ## Draining -/

/-- The orders of a structure whose handle is to be dropped are over. -/
def DrainedRef (spread : PutSpread) (drained : Drained) : ViewCondition :=
  fun view held => LiveRef spread view held ∧
    (spread.id ∈ drained.finished → AllFinal view.placed)

theorem assertable_drained {drained : Drained} :
    Assertable spread (DrainedRef spread drained) := by
  refine assertable_live.and ?_
  intro before after held moves final isFinished
  exact (final isFinished).later moves.placed

variable {soFar : Drained}

/-- An order is over: its structure opens with what was filled, or is planned again. -/
theorem safe_finishOrder {info : OrderStatusInfo} (before : Holds plan spread.id
      (fun view held => Entering spread ref view held ∧ Counted view) world) :
    SafeEntry plan spread (DrainedRef spread) (finishOrder spread info soFar) world := by
  have assertable : Assertable spread
      (fun view held => Entering spread ref view held ∧ Counted view) :=
    assertable_entering.and forward_counted
  refine Safe.bind (assertable.safe_structureOf before) ?_
  intro st now known
  have isKnown : Assertable spread (fun view held =>
      (Entering spread ref view held ∧ Counted view) ∧ view.memory = some st) :=
    assertable.and (forward_memoryIs st)
  refine Safe.ite ?_ fun none => Safe.ite ?_ ?_
  · intro _
    refine Safe.via (fun _ => Holds plan spread.id
      (fun view held => LiveRef spread view held ∧ AllFinal view.placed)) ?_ ?_
    · refine safe_transition isKnown known ?_
      intro view held other met _ _
      refine ⟨Tracks.leave met.1.1.2.1.toTracks met.1.2.1 ?_, met.1.2.1⟩
      show Status.opened ∉ entryLane
      decide
    · intro _ later both
      exact both.mono fun _ _ met => ⟨met.1, fun _ => met.2⟩
  · intro _
    refine Safe.via (fun _ => Holds plan spread.id
      (fun view held => LiveRef spread view held ∧ AllFinal view.placed)) ?_ ?_
    · refine safe_transition isKnown known ?_
      intro view held other met isMemory _
      obtain ⟨⟨entering, final, counted, isCounted, working, complete⟩, isSt⟩ := met
      cases isMemory.symm.trans isSt
      cases isCounted.symm.trans isSt
      have faithful := entering.2.1.memory st isSt
      have inLane := entering_inLane working
      have planned : Faithful (handled held) view.placed view.next
          { st with status := .planned } :=
        ⟨fun _ => final, fun _ => complete, fun _ => faithful.recorded inLane,
          fun _ => faithful.known inLane⟩
      exact ⟨Live.put entering.2.1 isSt planned fun _ => inLane, final⟩
    · intro _ later both
      exact both.mono fun _ _ met => ⟨met.1, fun _ => met.2⟩
  · intro _
    exact known.mono fun _ _ met => ⟨met.1.1.2.1, fun _ => met.1.2.1⟩

theorem safe_drainOrder (before : Holds plan spread.id
      (fun view held => Entering spread ref view held ∧
        (spread.id ∈ soFar.finished → AllFinal view.placed)) world) :
    SafeEntry plan spread (DrainedRef spread) (drainOrder spread ref soFar) world := by
  refine Safe.bind (safe_mergeFills before) ?_
  intro result now merged
  refine Safe.ite ?_ ?_
  · intro last
    exact safe_finishOrder (merged.mono fun _ _ met => ⟨met.1, met.2 (.inl last)⟩)
  · intro _
    refine merged.mono ?_
    intro view held met
    exact ⟨met.1.2.1, fun isFinished => (met.2 (.inr isFinished)).1⟩

theorem safe_drainFill (before : Holds plan spread.id (DrainedRef spread soFar) world) :
    SafeEntry plan spread (DrainedRef spread) (drainFill soFar spread) world := by
  refine Safe.bind (assertable_drained.safe_structureOf before) ?_
  intro st now drained
  have assertable : Assertable spread
      (fun view held => DrainedRef spread soFar view held ∧ view.memory = some st) :=
    assertable_drained.and (forward_memoryIs st)
  refine Safe.via (fun held now => now.orders spread.id = held ∧ Holds plan spread.id
    (fun view held => DrainedRef spread soFar view held ∧ view.memory = some st) now) ?_ ?_
  · refine Safe.read assertable.stable drained (fun _ => assertable.always) ?_
    intro later met
    exact ⟨rfl, met⟩
  rintro held later ⟨rfl, met⟩
  cases isHeld : later.orders spread.id with
  | none => exact met.mono fun _ _ both => both.1
  | some ref =>
    refine Safe.ite ?_ fun _ => met.mono fun _ _ both => both.1
    intro entering
    refine safe_drainOrder ⟨met.1, ⟨isHeld, met.2.1.1, st, met.2.2, entering⟩, met.2.1.2⟩

end

end TreeOptions.Trex.Enter
