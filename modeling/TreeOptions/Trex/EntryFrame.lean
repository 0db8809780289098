import TreeOptions.Trex.EntryStopping

/-!
# The entry runner acts on another structure

Whatever the runner does for one structure leaves the others in order. Only a save writes them, and
it writes a faithful memory.
-/

set_option autoImplicit false

namespace TreeOptions.Trex.Enter

open Decimal

section

variable {conId : OptionContract → ℕ} {plan : TradePlan} {spread other : PutSpread}
  {condition : ViewCondition} {candidate : ℕ → Prop} {held : Option OrderRef} {fact : Prop}

/-- A handle and its candidates, and that all orders are over where that is known. -/
def Frame (spread : PutSpread) (candidate : ℕ → Prop) (held : Option OrderRef) (fact : Prop) :
    ViewCondition :=
  fun view ref => ref = held ∧ Live candidate spread.quantity view ∧
    (fact → AllFinal view.placed)

theorem forward_frame : Forward (Frame spread candidate held fact) := by
  intro before after ref moves framed
  exact ⟨framed.1, framed.2.1.moves moves, fun known => (framed.2.2 known).later moves.placed⟩

/-! ## Steps for another structure -/

variable {holds : World → Prop}

theorem keeps_structureOf (structureId : String) : (structureOf structureId).Keeps holds :=
  .readOrFail

theorem keeps_orderStatus (ref : OrderRef) : (orderStatus ref).Keeps holds :=
  .readOrFail

variable {structureId : String}

section

variable (different : spread.id ≠ structureId)

include different

theorem keeps_setOrder (ref : Option OrderRef) :
    (setOrder structureId ref).Keeps (Holds plan spread.id condition) := by
  refine .modify ?_
  intro world holds
  refine ⟨⟨holds.1.unique, holds.1.fresh, holds.1.planned⟩, ?_⟩
  have same : (world.setOrder structureId ref).orders spread.id = world.orders spread.id :=
    Function.update_of_ne different ..
  rw [World.view_setOrder, same]
  exact holds.2

theorem holds_put_other {world : World} (st : StructureState)
    (holds : Holds plan spread.id condition world) :
    Holds plan spread.id condition (world.put structureId st) := by
  refine ⟨Steady.put holds.1 structureId st, ?_⟩
  rw [World.view_put_of_ne different]
  exact holds.2

theorem keeps_transition (target : Status) :
    (transition structureId target).Keeps (Holds plan spread.id condition) := by
  refine .modifyOrFail ?_
  intro world next holds changed
  obtain ⟨st, _, moved⟩ := Option.bind_eq_some_iff.mp changed
  by_cases allowed : transitionAllowed st.status target
  · rw [if_pos allowed] at moved
    cases moved
    exact holds_put_other different _ holds
  · rw [if_neg allowed] at moved
    cases moved

theorem keeps_update (change : StructureState → StructureState) :
    (update structureId change).Keeps (Holds plan spread.id condition) := by
  refine .modifyOrFail ?_
  intro world next holds changed
  obtain ⟨st, _, rfl⟩ := Option.map_eq_some_iff.mp changed
  exact holds_put_other different _ holds

end

theorem keeps_mergeChanges (st : StructureState) (report : WorkingOrder) :
    (mergeChanges st report).Keeps holds := by
  rw [mergeChanges]
  split
  · exact .done
  · exact .fail

theorem keeps_mergeOrderTotal (different : spread.id ≠ structureId) (filled : ℤ) (avg : Number)
    (orderId : String) :
    (mergeOrderTotal structureId filled avg orderId).Keeps (Holds plan spread.id condition) := by
  intro world holds
  cases inMemory : world.memory.structures structureId with
  | none =>
    simp only [inMemory, Option.elim]
    exact ⟨holds, .fail⟩
  | some st =>
    simp only [inMemory, Option.elim]
    exact ⟨holds_put_other different _ holds, keeps_mergeChanges _ _⟩

theorem keeps_mergeFills (different : spread.id ≠ structureId) (ref : OrderRef) :
    (mergeFills structureId ref).Keeps (Holds plan spread.id condition) := by
  refine .bind (keeps_orderStatus ref) fun info => ?_
  exact .bind (keeps_mergeOrderTotal different _ _ _) fun _ => .done

theorem keeps_placeCombo (inPlan : other ∈ plan.structures) (different : spread.id ≠ other.id)
    (forward : Forward condition) (qty : ℤ) (limit : ℚ) :
    (placeCombo other .buy qty limit).Keeps (Holds plan spread.id condition) := by
  refine .act ?_
  intro world holds
  exact ⟨holds.1.withOrder inPlan .buy qty limit,
    forward _ _ _ (World.moves_withOrder different.symm .buy qty limit) holds.2⟩

/-- A save keeps a structure whose memory is faithful. -/
theorem keeps_save : save.Keeps (Holds plan spread.id (Frame spread candidate held fact)) := by
  intro world holds
  obtain ⟨isHeld, live, final⟩ := holds.2
  obtain ⟨st, isMemory, _⟩ := live.loaded
  have kept := saveOwned_structures world.memory world.disk spread.id isMemory
  have after := Live.save live isMemory
  by_cases writable : world.writable
  · simp only [writable, if_true]
    refine ⟨⟨⟨holds.1.unique, holds.1.fresh, holds.1.planned⟩, isHeld, ?_, final⟩, .done⟩
    simpa [World.view, World.onDisk, kept, World.placedFor] using after.2
  · simp only [writable, Bool.false_eq_true, if_false]
    refine ⟨⟨⟨holds.1.unique, holds.1.fresh, holds.1.planned⟩, isHeld, ?_, final⟩, .fail⟩
    simpa [World.view, World.onDisk, kept, World.placedFor] using after.1

/-! ## The runner on another structure -/

section

variable (different : spread.id ≠ other.id)

include different

theorem keeps_reconcile :
    (reconcile conId other).Keeps
      (Holds plan spread.id (Frame spread candidate held fact)) := by
  refine .bind (keeps_structureOf _) fun st => .bind .read fun evidence => ?_
  cases evidence with
  | none => exact .done
  | some evidence => exact .bind (keeps_mergeOrderTotal different _ _ _) fun _ => .done

theorem keeps_settleOrder (ref : OrderRef) :
    (settleOrder other ref).Keeps
      (Holds plan spread.id (Frame spread candidate held fact)) := by
  refine .bind (keeps_orderStatus ref) fun info => ?_
  refine .bind (.when (.bind (keeps_cancel forward_frame ref) fun _ => keeps_waitFor _ _))
    fun _ => ?_
  refine .bind (keeps_mergeFills different ref) fun result => ?_
  exact .ite (.bind (keeps_setOrder different _) fun _ => .done) .done

theorem keeps_settle (st : StructureState) :
    (settle conId other st).Keeps
      (Holds plan spread.id (Frame spread candidate held fact)) := by
  refine .ite (.bind .read fun ref => ?_) .done
  cases ref with
  | none => exact keeps_reconcile different
  | some ref => exact keeps_settleOrder different ref

theorem keeps_cancelAndSettle :
    (cancelAndSettle conId other).Keeps
      (Holds plan spread.id (Frame spread candidate held fact)) := by
  refine .bind (keeps_structureOf _) fun st => ?_
  refine .bind (keeps_settle different st) fun settled => ?_
  refine .ite (.bind ?_ fun _ => .done) .done
  exact .bind (keeps_structureOf _) fun st => keeps_transition different _

theorem keeps_abort :
    (abort conId other).Keeps
      (Holds plan spread.id (Frame spread candidate held fact)) :=
  .bind (keeps_cancelAndSettle different) fun _ => keeps_save

theorem keeps_flattenEntry :
    (flattenEntry conId other).Keeps
      (Holds plan spread.id (Frame spread candidate held fact)) := by
  refine .bind (keeps_structureOf _) fun st => .when ?_
  exact .bind (keeps_cancelAndSettle different) fun _ => .done

theorem keeps_finishOrder (info : OrderStatusInfo) (soFar : Drained) :
    (finishOrder other info soFar).Keeps
      (Holds plan spread.id (Frame spread candidate held fact)) := by
  refine .bind (keeps_structureOf _) fun st => .ite ?_ (.ite ?_ .done)
  · exact .bind (keeps_transition different _) fun _ => .done
  · exact .bind (keeps_transition different _) fun _ => .done

theorem keeps_drainFill (soFar : Drained) :
    (drainFill soFar other).Keeps
      (Holds plan spread.id (Frame spread candidate held fact)) := by
  refine .bind (keeps_structureOf _) fun st => .bind .read fun ref => ?_
  cases ref with
  | none => exact .done
  | some ref =>
    refine .ite (.bind (keeps_mergeFills different ref) fun result => ?_) .done
    exact .ite (keeps_finishOrder different _ _) .done

theorem returns_drainFill (soFar : Drained) :
    (drainFill soFar other).Returns fun after =>
      spread.id ∈ after.finished → spread.id ∈ soFar.finished := by
  have another : ∀ mutated : Bool, (Program.done
      ⟨mutated, soFar.finished ++ [other.id]⟩ : Program World Drained).Returns
      fun after : Drained => spread.id ∈ after.finished → spread.id ∈ soFar.finished := by
    intro mutated isFinished
    rcases List.mem_append.mp isFinished with before | new
    · exact before
    · exact absurd (List.mem_singleton.mp new) different
  refine .bind fun st => .bind fun ref => ?_
  cases ref with
  | none => exact id
  | some ref =>
    refine .ite (.bind fun result => .ite ?_ id) id
    refine .bind fun st => .ite ?_ (.ite ?_ id)
    · exact .bind fun _ => another true
    · exact .bind fun _ => another true

variable (inPlan : other ∈ plan.structures)

include inPlan

theorem keeps_place (limit : ℚ) :
    (place other limit).Keeps
      (Holds plan spread.id (Frame spread candidate held fact)) := by
  refine .bind (keeps_structureOf _) fun st => ?_
  refine .bind (.when (keeps_transition different _)) fun _ => ?_
  refine .ite ?_ ?_
  · exact .bind (keeps_transition different _) fun _ => keeps_save
  · refine .bind keeps_save fun _ => ?_
    refine .bind (keeps_placeCombo inPlan different forward_frame _ _) fun ref => ?_
    refine .bind (keeps_setOrder different _) fun _ => ?_
    exact .bind (keeps_update different _) fun _ => keeps_save

theorem keeps_placeConfirmed (limit : ℚ) (ref : OrderRef) :
    (placeConfirmed other limit ref).Keeps
      (Holds plan spread.id (Frame spread candidate held fact)) := by
  refine .bind (keeps_orderStatus ref) fun info => ?_
  refine .ite ?_ .done
  exact .bind (keeps_mergeFills different ref) fun _ => keeps_place different inPlan limit

theorem keeps_placeAfterCancel (limit : ℚ) :
    (placeAfterCancel other limit).Keeps
      (Holds plan spread.id (Frame spread candidate held fact)) := by
  refine .bind (keeps_waitFor _ _) fun _ => .bind .read fun ref => ?_
  cases ref with
  | none => exact keeps_place different inPlan limit
  | some ref => exact keeps_placeConfirmed different inPlan limit ref

theorem keeps_reprice (limit : ℚ) :
    (reprice other limit).Keeps
      (Holds plan spread.id (Frame spread candidate held fact)) := by
  refine .bind .read fun ref => ?_
  cases ref with
  | none => exact .done
  | some ref =>
    refine .ite .done ?_
    refine .bind (keeps_orderStatus ref) fun info => .ite .done ?_
    refine .bind (keeps_cancel forward_frame ref) fun _ => ?_
    refine .bind (keeps_update different _) fun _ => ?_
    exact keeps_placeAfterCancel different inPlan limit

end

end

end TreeOptions.Trex.Enter
