import TreeOptions.Trex.EntryFrame

/-!
# Runs of the entry runner

The runner leaves every structure in order through each of its cycles and from each start, wherever
the broker fills an order, a cancel is late, a file cannot be written or the process dies. So a
structure never buys more than its quantity, and none of its orders is working once it has left the
entry lane (`entry_never_overbuys`).

That takes its contracts to be its own. A start takes up a working order for the first structure of
the plan with the contracts of the order. Where two structures have the same contracts, the runner
loses sight of an order, and closes a structure under it (`adopted_twin_buys_when_closed`).
-/

set_option autoImplicit false

namespace TreeOptions.Trex.Enter

open Decimal

section

variable {conId : OptionContract → ℕ}
  {decide : PutSpread → StructureState → Snapshot → Option LegacyAction} {plan : TradePlan}
  {spread other : PutSpread} {world : World}

/-! ## One cycle -/

variable {held : Option OrderRef} {fact : Prop}

theorem assertable_frame : Assertable spread (Frame spread (handled held) held fact) where
  forward := forward_frame
  loose := by
    rintro view ref ⟨rfl, live, _⟩
    exact live.toTracks

/-- What the runner does for another structure. -/
theorem safe_of_frame {Value : Type} {program : Program World Value}
    (keeps : ∀ held, program.Keeps (Holds plan spread.id (Frame spread (handled held) held fact)))
    (before : Holds plan spread.id
      (fun view held => LiveRef spread view held ∧ (fact → AllFinal view.placed)) world) :
    SafeEntry plan spread
      (fun _ view held => LiveRef spread view held ∧ (fact → AllFinal view.placed)) program
      world := by
  have framed : Holds plan spread.id
      (Frame spread (handled (world.orders spread.id)) (world.orders spread.id) fact) world :=
    ⟨before.1, rfl, before.2.1, before.2.2⟩
  refine Safe.weaken (assertable_frame.safe_of_keeps framed (keeps _)) ?_ fun _ => id
  intro _ now met
  refine met.mono ?_
  rintro view held ⟨rfl, live, final⟩
  exact ⟨live, final⟩

theorem safe_liveOfFrame {Value : Type} {program : Program World Value}
    (keeps : ∀ held, program.Keeps (Holds plan spread.id (Frame spread (handled held) held False)))
    (before : Holds plan spread.id (LiveRef spread) world) :
    SafeEntry plan spread (fun _ => LiveRef spread) program world := by
  refine Safe.weaken (safe_of_frame keeps (before.mono fun _ _ live => ⟨live, False.elim⟩))
    ?_ fun _ => id
  intro _ now met
  exact met.mono fun _ _ both => both.1

theorem id_ne (inPlan : spread ∈ plan.structures) (also : other ∈ plan.structures)
    (different : other ≠ spread) : spread.id ≠ other.id :=
  fun same => different (plan.eq_of_id also inPlan same.symm)

theorem keeps_apply (also : other ∈ plan.structures) (different : spread.id ≠ other.id)
    {candidate : ℕ → Prop} (st : StructureState) (action : LegacyAction) :
    (apply conId other st action).Keeps
      (Holds plan spread.id (Frame spread candidate held fact)) := by
  cases action with
  | noAction reason => exact .done
  | placeEntry limit =>
    refine .bind .read fun halted => .ite .done (.ite ?_ ?_)
    · exact keeps_place different also limit
    · exact keeps_reprice different also limit
  | abortEntry reason => exact keeps_abort different
  | exitOrder reason limit => exact .done

theorem keeps_decideAndApply (also : other ∈ plan.structures) (different : spread.id ≠ other.id)
    {candidate : ℕ → Prop} (snap : Snapshot) : (decideAndApply conId decide snap other).Keeps
      (Holds plan spread.id (Frame spread candidate held fact)) := by
  refine .bind (keeps_structureOf _) fun st => .when ?_
  cases decide other st snap with
  | none => exact .fail
  | some action => exact keeps_apply also different st action

def ReadInLane (spread : PutSpread) (st : StructureState) : ViewCondition :=
  fun view held => (LiveRef spread view held ∧ view.memory = some st) ∧ st.status ∈ entryLane

theorem assertable_readInLane (st : StructureState) : Assertable spread (ReadInLane spread st) :=
  (assertable_live.and (forward_memoryIs st)).and fun _ _ _ _ inLane => inLane

variable {st : StructureState}

section

variable (inPlan : spread ∈ plan.structures)

include inPlan

theorem safe_apply (action : LegacyAction)
    (before : Holds plan spread.id (ReadInLane spread st) world) :
    SafeEntry plan spread (fun _ => LiveRef spread) (apply conId spread st action) world := by
  have live : Holds plan spread.id (LiveRef spread) world := before.mono fun _ _ met => met.1.1
  cases action with
  | noAction reason => exact live
  | placeEntry limit =>
    refine Safe.via (fun _ => Holds plan spread.id (ReadInLane spread st)) ?_ ?_
    · exact (assertable_readInLane st).safe_read before fun _ met => met
    intro halted now met
    refine Safe.ite (fun _ => met.mono fun _ _ known => known.1.1) fun _ => Safe.ite ?_ ?_
    · intro planned
      exact safe_place inPlan
        (met.mono fun _ _ known => clear_of_planned known.1.1 known.1.2 planned)
    · intro notPlanned
      refine safe_reprice inPlan (met.mono ?_)
      intro view held known
      have entering : st.status = .enterWorking := by
        have inLane := known.2
        simp [entryLane] at inLane
        exact inLane.resolve_left notPlanned
      exact ⟨known.1.1, st, known.1.2, entering⟩
  | abortEntry reason =>
    exact safe_abort (before.mono fun _ _ known => ⟨known.1.1, st, known.1.2, known.2⟩)
  | exitOrder reason limit => exact live

theorem safe_decideAndApply (also : other ∈ plan.structures) {snap : Snapshot}
    (before : Holds plan spread.id (LiveRef spread) world) :
    SafeEntry plan spread (fun _ => LiveRef spread) (decideAndApply conId decide snap other)
      world := by
  by_cases same : other = spread
  · subst same
    refine Safe.bind (assertable_live.safe_structureOf before) ?_
    intro st now known
    refine Safe.when ?_ fun _ => known.mono fun _ _ met => met.1
    intro inLane
    cases decide other st snap with
    | none => exact known.mono fun _ _ met => met.1.toTracks
    | some action =>
      exact safe_apply inPlan action (known.mono fun _ _ met => ⟨met, inLane⟩)
  · have different := id_ne inPlan also same
    exact safe_liveOfFrame (fun _ => keeps_decideAndApply also different snap) before

theorem safe_drainFillAny (also : other ∈ plan.structures) {soFar : Drained}
    (before : Holds plan spread.id (DrainedRef spread soFar) world) :
    SafeEntry plan spread (DrainedRef spread) (drainFill soFar other) world := by
  by_cases same : other = spread
  · subst same
    exact safe_drainFill before
  · have different := id_ne inPlan also same
    have framed := safe_of_frame (fun _ => keeps_drainFill different soFar) before
    refine Safe.weaken (Safe.and_returns framed (returns_drainFill different soFar)) ?_
      fun _ => id
    rintro after now ⟨met, returned⟩
    exact met.mono fun _ _ both => ⟨both.1, fun isFinished => both.2 (returned isFinished)⟩

section

variable (before : Holds plan spread.id (LiveRef spread) world)

include before

theorem safe_drainFills :
    SafeEntry plan spread (fun _ => LiveRef spread) (drainFills plan) world := by
  refine Safe.via (fun drained => Holds plan spread.id (DrainedRef spread drained)) ?_ ?_
  · have start : Holds plan spread.id (DrainedRef spread ⟨false, []⟩) world :=
      before.mono fun _ _ live => ⟨live, fun isFinished => absurd isFinished List.not_mem_nil⟩
    refine Safe.fold start ?_
    intro other soFar now also met
    exact safe_drainFillAny inPlan also met
  intro drained now met
  refine Safe.via (fun _ => Holds plan spread.id (DrainedRef spread drained)) ?_ ?_
  · refine Safe.when ?_ fun _ => met
    intro _
    exact safe_of_frame (fun _ => keeps_save) met
  intro _ later saved
  have dropped : SafeEntry plan spread (fun _ => DrainedRef spread drained)
      (Program.each drained.finished fun id => setOrder id none) later := by
    refine Safe.eachOf saved ?_
    intro id now isFinished held
    by_cases same : id = spread.id
    · subst same
      refine safe_setOrder assertable_drained held ?_
      intro view was both
      refine ⟨Live.congr (Live.drop both.1 (both.2 isFinished)) ?_, both.2⟩
      intro orderId
      refine ⟨False.elim, ?_⟩
      rintro ⟨ref, isRef, _⟩
      cases isRef
    · exact safe_of_frame (fun _ => keeps_setOrder (Ne.symm same) none) held
  exact Safe.weaken dropped (fun _ _ both => both.mono fun _ _ met => met.1) fun _ => id

theorem safe_flattenEntries :
    SafeEntry plan spread (fun _ => LiveRef spread) (flattenEntries conId plan) world := by
  refine Safe.via (fun _ => Holds plan spread.id (LiveRef spread)) ?_ fun _ now live =>
    safe_saveLive live
  refine Safe.eachOf before ?_
  intro other now also live
  by_cases same : other = spread
  · subst same
    exact safe_flattenEntry live
  · exact safe_liveOfFrame (fun _ => keeps_flattenEntry (id_ne inPlan also same)) live

theorem safe_tick :
    SafeEntry plan spread (fun _ => LiveRef spread) (tick conId decide plan) world := by
  have reads : ∀ {Value : Type} {look : World → Value} {now : World},
      Holds plan spread.id (LiveRef spread) now →
        SafeEntry plan spread (fun _ => LiveRef spread) (.read look) now :=
    fun live => assertable_live.safe_read live fun _ met => met
  refine Safe.bind (reads before) ?_
  intro flatten now live
  refine Safe.ite (fun _ => safe_flattenEntries inPlan live) fun _ => ?_
  refine Safe.bind (reads live) ?_
  intro inSession now live
  refine Safe.ite (fun _ => ?_) fun _ => live
  refine Safe.bind (reads live) ?_
  intro snap now live
  refine Safe.via (fun _ => Holds plan spread.id (LiveRef spread)) ?_ fun _ later met =>
    safe_drainFills inPlan met
  refine Safe.eachOf live ?_
  intro other now also met
  exact safe_decideAndApply inPlan also met

end

end

theorem holds_sync (before : Holds plan spread.id (LooseRef spread) world) :
    Holds plan spread.id (LiveRef spread) (syncBookFromDisk world) := by
  refine ⟨⟨before.1.unique, before.1.fresh, before.1.planned⟩, ?_⟩
  obtain ⟨st, isMemory, _⟩ := before.2.loaded
  have inMemory : world.memory.structures spread.id = some st := isMemory
  have synced : (syncBookFromDisk world).view spread.id =
      { world.view spread.id with memory := some (world.view spread.id).disk } := by
    simp only [World.view, syncBookFromDisk, World.placedFor, World.onDisk, inMemory,
      Option.map_some]
    cases world.disk.bind fun book => book.structures spread.id with
    | none => rfl
    | some onDisk => rfl
  rw [synced]
  exact Tracks.sync before.2

/-- **Every cycle leaves the structure in order**, also one that fails. -/
theorem safe_cycle (inPlan : spread ∈ plan.structures)
    (before : Holds plan spread.id (LooseRef spread) world) :
    SafeEntry plan spread (fun _ => LooseRef spread) (cycle conId decide plan) world := by
  refine Safe.via (fun _ => Holds plan spread.id (LooseRef spread)) ?_ ?_
  · refine Safe.attempt ?_ fun _ (met : Holds plan spread.id (LooseRef spread) _) => met
    refine Safe.via (fun _ => Holds plan spread.id (LiveRef spread)) ?_ ?_
    · exact assertable_loose.safe_modify before fun _ met => holds_sync met
    intro _ now live
    exact Safe.weaken (safe_tick inPlan live)
      (fun _ _ met => met.mono fun _ _ => Live.toTracks) fun _ => id
  intro _ now loose
  refine Safe.via (fun _ => Holds plan spread.id (LooseRef spread)) ?_ ?_
  · exact assertable_loose.safe_read loose fun _ met => met
  intro working now loose
  refine Safe.ite (fun _ => loose) fun _ => ?_
  refine Safe.via (fun _ => Holds plan spread.id (LooseRef spread)) ?_ ?_
  · exact assertable_loose.safe_read loose fun _ met => met
  intro unfinished now loose
  refine Safe.ite (fun _ => ?_) fun _ => loose
  refine Safe.via (fun _ => Holds plan spread.id (LooseRef spread)) ?_ fun _ _ met => met
  refine assertable_loose.safe_modify loose ?_
  intro later met
  exact (holds_sync met).mono fun _ _ => Live.toTracks

/-! ## Starting -/

/-- A process that has just loaded the book has no handles. -/
def Booted (spread : PutSpread) : ViewCondition :=
  fun view held => held = none ∧ Idle spread.quantity view ∧
    ∃ st, view.memory = some st ∧ Faithful (fun _ => False) view.placed view.next st ∧
      (st.status ∈ entryLane → view.disk.status ∈ entryLane)

/-- The listed orders of a structure. -/
def listed (trades : List Trade) (spread : PutSpread) (orderId : ℕ) : Prop :=
  ∃ trade ∈ trades, trade.spread = spread ∧ trade.orderId = orderId

/-- The listed orders are the candidates, and the handle is that of one of them. -/
def Adopting (spread : PutSpread) (trades : List Trade) : ViewCondition :=
  fun view held => Live (listed trades spread) spread.quantity view ∧
    ∀ ref ∈ held, listed trades spread ref.orderId

theorem forward_booted : Forward (Booted spread) := by
  intro before after held moves booted
  obtain ⟨noRef, idle, st, isMemory, faithful, lanes⟩ := booted
  refine ⟨noRef, idle.moves moves, st, moves.memory.trans isMemory, ?_, ?_⟩
  · refine faithful.moves ?_ moves
    intro trade isPlaced counts
    exact (idle.sound.working trade isPlaced (counts.resolve_left id)).1
  · intro inLane
    rcases moves.disk with same | ⟨past, _⟩
    · rw [same]
      exact lanes inLane
    · exact absurd (lanes inLane) past

variable {trades : List Trade}

theorem forward_adopting : Forward (Adopting spread trades) :=
  fun _ _ _ moves adopting => ⟨adopting.1.moves moves, adopting.2⟩

theorem Booted.adopting {view : View} (booted : Booted spread view held)
    (lists : ∀ orderId, listed trades spread orderId ↔
      ∃ trade ∈ view.placed, ¬ trade.Terminal ∧ trade.orderId = orderId) :
    Adopting spread trades view held := by
  obtain ⟨noRef, idle, st, isMemory, faithful, lanes⟩ := booted
  have single : ∀ orderId, listed trades spread orderId → ∀ trade ∈ view.placed,
      trade.orderId = orderId → ¬ trade.Terminal := by
    intro orderId isListed trade isPlaced same
    obtain ⟨other, isOther, works, sameOther⟩ := (lists orderId).mp isListed
    rwa [List.inj_on_of_nodup_map idle.sound.unique isPlaced isOther (same.trans sameOther.symm)]
  have others : ∀ orderId, listed trades spread orderId → OthersFinal view.placed orderId := by
    intro orderId isListed
    obtain ⟨trade, isPlaced, works, rfl⟩ := (lists orderId).mp isListed
    exact (idle.sound.working trade isPlaced works).1
  have widen : ∀ {state : StructureState},
      Faithful (fun _ => False) view.placed view.next state →
        Faithful (listed trades spread) view.placed view.next state := by
    intro state known
    refine ⟨known.settled, known.planned, ?_, known.known⟩
    intro inLane trade isPlaced counts
    refine known.recorded inLane trade isPlaced (.inr ?_)
    exact counts.elim (fun isListed => single _ isListed trade isPlaced rfl) id
  refine ⟨⟨⟨idle.sound, idle.fresh, ?_, ?_, others, ?_, widen idle.disk, ?_⟩, ?_, ?_⟩, ?_⟩
  · intro first second isFirst isSecond
    obtain ⟨trade, isPlaced, works, rfl⟩ := (lists second).mp isSecond
    by_contra different
    exact works (others first isFirst trade isPlaced fun same => different same.symm)
  · intro orderId isListed
    obtain ⟨trade, isPlaced, _, same⟩ := (lists orderId).mp isListed
    exact ⟨trade, isPlaced, same⟩
  · intro trade isPlaced works
    exact (lists trade.orderId).mpr ⟨trade, isPlaced, works, rfl⟩
  · exact ⟨st, isMemory, faithful.final_of_past⟩
  · intro other isOther
    cases isOther.symm.trans isMemory
    exact widen faithful
  · intro other isOther inLane
    cases isOther.symm.trans isMemory
    exact lanes inLane
  · intro ref isRef
    rw [noRef] at isRef
    cases isRef

theorem holds_loadBook (inPlan : spread ∈ plan.structures)
    (before : Always plan spread world) :
    Holds plan spread.id (Booted spread) (loadBook plan world) := by
  refine ⟨⟨before.1.unique, before.1.fresh, before.1.planned⟩, rfl, ?_⟩
  have isId : ∃ other ∈ plan.structures, other.id = spread.id := ⟨spread, inPlan, rfl⟩
  have loaded : (loadBook plan world).view spread.id =
      { world.view spread.id with memory := some (world.view spread.id).disk } := by
    simp only [World.view, loadBook, World.placedFor, World.onDisk]
    cases world.disk with
    | none => simpa [BookState.load, BookState.ofIds] using isId
    | some book =>
      cases found : book.structures spread.id with
      | none => simpa [BookState.load, found] using isId
      | some onDisk => simp [BookState.load, found]
  rw [loaded]
  have idle := before.2
  refine ⟨⟨idle.sound, idle.fresh, idle.disk, ?_⟩, _, rfl, idle.disk, id⟩
  intro st isMemory past
  cases isMemory
  exact idle.disk.final_of_past past

section

variable (inPlan : spread ∈ plan.structures)
  (alone : ∀ other ∈ plan.structures, bag conId other = bag conId spread → other = spread)

include inPlan alone

/-- A structure with contracts of its own is the one an order of it is taken up for. -/
theorem structureForBag_self {trade : Trade} (placed : trade.spread = spread) :
    structureForBag conId plan trade = some spread.id := by
  rw [structureForBag, placed]
  cases found : plan.structures.find? fun other => bag conId other = bag conId spread with
  | none =>
    have missing := List.find?_eq_none.mp found spread inPlan
    simp at missing
  | some other =>
    have same : bag conId other = bag conId spread := by simpa using List.find?_some found
    rw [alone other (List.mem_of_find?_eq_some found) same, Option.map_some]

omit inPlan in
theorem structureForBag_other {trade : Trade} (planned : trade.spread ∈ plan.structures)
    (inPlan : spread ∈ plan.structures) (different : trade.spread ≠ spread) {structureId : String}
    (found : structureForBag conId plan trade = some structureId) :
    spread.id ≠ structureId := by
  obtain ⟨other, isOther, rfl⟩ := Option.map_eq_some_iff.mp found
  have same : bag conId other = bag conId trade.spread := by
    simpa using List.find?_some isOther
  intro sameId
  have isSpread : spread = other :=
    plan.eq_of_id inPlan (List.mem_of_find?_eq_some isOther) sameId
  rw [← isSpread] at same
  exact different (alone trade.spread planned same.symm)

end

/-- What a start does for another structure. -/
theorem keeps_adoptTrade {condition : ViewCondition} {structureId : String}
    (different : spread.id ≠ structureId) (trade : Trade) :
    (adoptTrade trade structureId).Keeps (Holds plan spread.id condition) := by
  refine .bind (keeps_setOrder different _) fun _ => ?_
  refine .bind (keeps_structureOf _) fun st => ?_
  exact .bind (.when (keeps_transition different _)) fun _ => keeps_update different _

/-- A working order is taken up: its handle is at hand and the book knows it. -/
theorem Adopting.enter {view : View} (adopting : Adopting spread trades view held)
    (isMemory : view.memory = some st) (inLane : st.status ∈ entryLane) : Adopting spread trades
      { view with memory := some { st with status := .enterWorking } } held := by
  have faithful := adopting.1.memory st isMemory
  have entered : Faithful (listed trades spread) view.placed view.next
      { st with status := .enterWorking } :=
    ⟨fun apart => absurd rfl apart, fun isPlanned => Status.noConfusion isPlanned,
      fun _ => faithful.recorded inLane, fun _ => faithful.known inLane⟩
  exact ⟨adopting.1.put isMemory entered fun _ => inLane, adopting.2⟩

theorem Adopting.adopt {view : View} {orderId : ℕ} (adopting : Adopting spread trades view held)
    (isMemory : view.memory = some st) (isListed : listed trades spread orderId) :
    Adopting spread trades
      { view with memory := some { st with entry := st.entry.adopt (toString orderId) } }
      held := by
  have faithful := adopting.1.memory st isMemory
  have bounds : ∀ trade ∈ view.placed, 0 ≤ trade.filled :=
    fun trade isPlaced => (adopting.1.sound.bounded trade isPlaced).1
  refine ⟨adopting.1.put isMemory ⟨faithful.settled, ?_, ?_, ?_⟩ id, adopting.2⟩
  · intro isPlanned
    exact (adopt_filledQty st.entry _).trans (faithful.planned isPlanned)
  · intro inLane trade isPlaced counts
    have candidate : listed trades spread trade.orderId :=
      counts.elim id (adopting.1.working trade isPlaced)
    have recorded := faithful.recorded inLane trade isPlaced counts
    rw [adopting.1.sole _ _ candidate isListed] at recorded ⊢
    exact recorded.adopt bounds
  · intro inLane text isText
    obtain ⟨trade, isPlaced, same⟩ := adopting.1.placed orderId isListed
    refine ⟨orderId, same ▸ adopting.1.fresh trade isPlaced, ?_⟩
    exact Option.some.inj (isText.symm.trans (adopt_order _ _))

/-- The orders that are not taken up yet. -/
def AdoptingRest (plan : TradePlan) (spread : PutSpread) (trades rest : List Trade)
    (world : World) : Prop :=
  Holds plan spread.id (fun view held => Adopting spread trades view held ∧
    ∀ orderId, listed trades spread orderId → listed rest spread orderId ∨ handled held orderId)
    world

theorem forward_adoptingAnd (property : Option OrderRef → Prop) :
    Forward fun view held => Adopting spread trades view held ∧ property held :=
  forward_adopting.and (forward_ref property)

theorem always_of_adopting (property : Option OrderRef → Prop) (met : Holds plan spread.id
      (fun view held => Adopting spread trades view held ∧ property held) world) :
    Always plan spread world :=
  met.mono fun _ _ both => both.1.1.toTracks.idle

theorem safe_adoptOwn {trade : Trade} (isListed : listed trades spread trade.orderId)
    (before : Holds plan spread.id (Adopting spread trades) world) :
    Safe worldEvent (Always plan spread)
      (fun _ => Holds plan spread.id fun view held =>
        Adopting spread trades view held ∧ handled held trade.orderId)
      (Always plan spread) (adoptTrade trade spread.id) world := by
  have forward : Forward fun view held =>
      Adopting spread trades view held ∧ handled held trade.orderId :=
    forward_adoptingAnd fun held => handled held trade.orderId
  have always : ∀ now, Holds plan spread.id (fun view held =>
      Adopting spread trades view held ∧ handled held trade.orderId) now →
        Always plan spread now := by
    intro now met
    exact always_of_adopting (fun held => handled held trade.orderId) met
  refine Safe.via (fun _ => Holds plan spread.id fun view held =>
    Adopting spread trades view held ∧ handled held trade.orderId) ?_ ?_
  · refine Safe.modify forward_adopting.stable before
      (fun now met => met.mono fun _ _ adopting => adopting.1.toTracks.idle) ?_
    intro now met
    refine ⟨⟨met.1.unique, met.1.fresh, met.1.planned⟩, ?_⟩
    have isSet : ∀ ref, (now.setOrder spread.id ref).orders spread.id = ref :=
      fun ref => Function.update_self ..
    rw [World.view_setOrder, isSet]
    refine ⟨⟨met.2.1, ?_⟩, _, rfl, rfl⟩
    intro ref isRef
    cases isRef
    exact isListed
  intro _ now held
  have keeps : (do
      let st ← structureOf spread.id
      Program.when (st.status = Status.planned) (transition spread.id .enterWorking)
      update spread.id fun st =>
        { st with entry := st.entry.adopt (toString trade.orderId) }).Keeps
        (Holds plan spread.id fun view held =>
          Adopting spread trades view held ∧ handled held trade.orderId) := by
    refine .bind (keeps_structureOf _) fun st => .bind (.when ?_) fun _ => ?_
    · refine .modifyOrFail ?_
      intro world next met changed
      obtain ⟨st, isMemory, moved⟩ := Option.bind_eq_some_iff.mp changed
      by_cases allowed : transitionAllowed st.status .enterWorking
      · rw [if_pos allowed] at moved
        cases moved
        have inLane : st.status ∈ entryLane := by
          revert allowed
          cases st.status <;> decide
        exact holds_put (fun view held => Adopting spread trades view held ∧
          handled held trade.orderId) met.1 ⟨met.2.1.enter isMemory inLane, met.2.2⟩
      · rw [if_neg allowed] at moved
        cases moved
    · refine .modifyOrFail ?_
      intro world next met changed
      obtain ⟨st, isMemory, rfl⟩ := Option.map_eq_some_iff.mp changed
      exact holds_put (fun view held => Adopting spread trades view held ∧
        handled held trade.orderId) met.1 ⟨met.2.1.adopt isMemory isListed, met.2.2⟩
  exact Safe.weaken (Safe.of_keeps keeps forward.stable held always) (fun _ _ => id) always

/-- **A start takes up every working order of the structure.** -/
theorem safe_adoptOpenEntries (inPlan : spread ∈ plan.structures)
    (alone : ∀ other ∈ plan.structures, bag conId other = bag conId spread → other = spread)
    (before : Holds plan spread.id (Booted spread) world) :
    Safe worldEvent (Always plan spread) (fun _ => Holds plan spread.id (LiveRef spread))
      (Always plan spread) (adoptOpenEntries conId plan) world := by
  refine Safe.via (fun trades now => AdoptingRest plan spread trades trades now ∧
    ∀ trade ∈ trades, trade.spread ∈ plan.structures ∧
      (trade.spread = spread → trade.action = .buy)) ?_ ?_
  · refine Safe.read forward_booted.stable before
      (fun _ met => met.mono fun _ _ both => both.2.1) ?_
    intro now met
    have inTrades : ∀ {trade}, trade ∈ openComboTrades now →
        trade ∈ now.trades ∧ ¬ trade.Terminal := by
      intro trade isOpen
      simpa [openComboTrades] using isOpen
    refine ⟨⟨met.1, met.2.adopting ?_, fun orderId isListed => .inl isListed⟩, ?_⟩
    · intro orderId
      constructor
      · rintro ⟨trade, isOpen, rfl, rfl⟩
        obtain ⟨isTrade, works⟩ := inTrades isOpen
        exact ⟨trade, World.mem_placedFor.mpr ⟨isTrade, rfl⟩, works, rfl⟩
      · rintro ⟨trade, isPlaced, works, rfl⟩
        obtain ⟨isTrade, sameId⟩ := World.mem_placedFor.mp isPlaced
        refine ⟨trade, ?_, plan.eq_of_id (met.1.planned trade isTrade) inPlan sameId, rfl⟩
        simpa [openComboTrades] using And.intro isTrade works
    · intro trade isOpen
      obtain ⟨isTrade, _⟩ := inTrades isOpen
      refine ⟨met.1.planned trade isTrade, ?_⟩
      rintro rfl
      exact met.2.2.1.sound.sided trade (World.mem_placedFor.mpr ⟨isTrade, rfl⟩)
  rintro trades now ⟨rest, planned⟩
  refine Safe.via (fun _ => Holds plan spread.id (LiveRef spread)) ?_ ?_
  · have adopted : Safe worldEvent (Always plan spread)
        (fun _ => AdoptingRest plan spread trades [])
        (Always plan spread) (Program.each trades (adoptOpenEntry conId plan)) now := by
      refine Safe.each rest ?_
      intro trade left later isListed met
      obtain ⟨inPlanTrade, bought⟩ := planned trade isListed
      by_cases own : trade.spread = spread
      · have self : structureForBag conId plan trade = some spread.id :=
          structureForBag_self inPlan alone own
        rw [adoptOpenEntry, self]
        simp only [bought own, if_true]
        have candidate : listed trades spread trade.orderId := ⟨trade, isListed, own, rfl⟩
        refine Safe.weaken (safe_adoptOwn candidate (met.mono fun _ _ both => both.1)) ?_
          fun _ => id
        intro _ after adopted
        refine adopted.mono ?_
        intro view held both
        refine ⟨both.1, fun orderId isCandidate => .inr ?_⟩
        rw [both.1.1.sole orderId trade.orderId isCandidate candidate]
        exact both.2
      · have skipped : AdoptingRest plan spread trades left later := by
          refine met.mono ?_
          intro view held both
          refine ⟨both.1, fun orderId isCandidate => (both.2 orderId isCandidate).imp_left ?_⟩
          rintro ⟨other, isOther, ownOther, same⟩
          rcases List.mem_cons.mp isOther with rfl | inLeft
          · exact absurd ownOther own
          · exact ⟨other, inLeft, ownOther, same⟩
        have keeps : (adoptOpenEntry conId plan trade).Keeps
            (AdoptingRest plan spread trades left) := by
          rw [adoptOpenEntry]
          cases found : structureForBag conId plan trade with
          | none => exact .done
          | some structureId =>
            have different := structureForBag_other alone inPlanTrade inPlan own found
            exact .ite (keeps_adoptTrade different trade) .done
        have stable : Stable worldEvent (AdoptingRest plan spread trades left) :=
          (forward_adoptingAnd fun held => ∀ orderId, listed trades spread orderId →
            listed left spread orderId ∨ handled held orderId).stable
        have always : ∀ now, AdoptingRest plan spread trades left now → Always plan spread now :=
          fun _ met => met.mono fun _ _ both => both.1.1.toTracks.idle
        exact Safe.weaken (Safe.of_keeps keeps stable skipped always) (fun _ _ => id) always
    refine Safe.weaken adopted ?_ fun _ => id
    intro _ after all
    refine all.mono ?_
    intro view held both
    refine Live.congr both.1.1 ?_
    intro orderId
    constructor
    · intro isCandidate
      refine (both.2 orderId isCandidate).resolve_left ?_
      rintro ⟨trade, none, _⟩
      cases none
    · rintro ⟨ref, isRef, rfl⟩
      exact both.1.2 ref isRef
  intro _ later live
  exact Safe.weaken (safe_saveLive live) (fun _ _ => id)
    fun _ met => met.mono fun _ _ tracks => Tracks.idle tracks

theorem safe_boot (inPlan : spread ∈ plan.structures)
    (alone : ∀ other ∈ plan.structures, bag conId other = bag conId spread → other = spread)
    (before : Always plan spread world) :
    Safe worldEvent (Always plan spread) (fun _ => Holds plan spread.id (LooseRef spread))
      (Always plan spread) (boot conId plan) world := by
  have forward : Forward fun view _ => Idle spread.quantity view :=
    fun _ _ _ moves idle => idle.moves moves
  have stable : Stable worldEvent (Always plan spread) := forward.stable
  refine Safe.via (fun _ => Holds plan spread.id (Booted spread)) ?_ ?_
  · exact Safe.modify stable before (fun _ => id) fun _ met => holds_loadBook inPlan met
  intro _ now booted
  refine Safe.bind (safe_adoptOpenEntries inPlan alone booted) ?_
  intro _ later live
  exact live.mono fun _ _ => Live.toTracks

/-! ## Every run -/

/-- Nothing was bought. -/
def Unbought (st : StructureState) : Prop :=
  st.status = .planned ∧ st.filledQty = 0 ∧ st.entry.order = none

/-- Before the first order of a plan. -/
def Fresh (plan : TradePlan) (world : World) : Prop :=
  world.trades = [] ∧ ∀ spread ∈ plan.structures, Unbought (world.onDisk spread.id)

/-- The packages of a structure that its orders bought. -/
def bought (world : World) (spread : PutSpread) : ℤ :=
  packages (world.placedFor spread.id)

/-- The structure is past the entry lane, on disk or for the runner. -/
def Left (world : World) (spread : PutSpread) : Prop :=
  (world.onDisk spread.id).status ∉ entryLane ∨
    ∃ st ∈ world.memory.structures spread.id, st.status ∉ entryLane

theorem always_of_fresh (inPlan : spread ∈ plan.structures) (fresh : Fresh plan world) :
    Always plan spread world := by
  obtain ⟨none, unbought⟩ := fresh
  have noTrade : ∀ {trade}, trade ∉ world.trades := by
    intro trade
    rw [none]
    exact List.not_mem_nil
  have empty : (world.view spread.id).placed = [] := by
    simp [World.view, World.placedFor, none]
  obtain ⟨planned, noFills, noOrder⟩ := unbought spread inPlan
  refine ⟨⟨by simp [none], fun _ isTrade => absurd isTrade noTrade,
    fun _ isTrade => absurd isTrade noTrade⟩, ⟨?_, ?_, ⟨?_, ?_, ?_, ?_⟩, ?_⟩⟩
  · rw [empty]
    exact ⟨List.nodup_nil, by simp, by simp, spread.quantity_pos.le, by simp⟩
  · rw [empty]
    intro trade isPlaced
    cases isPlaced
  · rw [empty]
    intro _ trade isPlaced
    cases isPlaced
  · rw [empty]
    exact fun _ => noFills
  · rw [empty]
    intro _ trade isPlaced
    cases isPlaced
  · intro _ text isText
    have isOrder : (world.onDisk spread.id).entry.order = some text := isText
    rw [noOrder] at isOrder
    cases isOrder
  · rw [empty]
    intro _ _ _ trade isPlaced
    cases isPlaced

/-- **The entry runner never overbuys a structure with contracts of its own**, and none of its
orders is working once it has left the entry lane. -/
theorem entry_never_overbuys (inPlan : spread ∈ plan.structures)
    (alone : ∀ other ∈ plan.structures, bag conId other = bag conId spread → other = spread)
    {state : World × Activity World}
    (reached : ((machine conId decide plan).system (Fresh plan)).Reachable state) :
    bought state.1 spread ≤ spread.quantity ∧
      (Left state.1 spread → ∀ trade ∈ state.1.placedFor spread.id, trade.Terminal) := by
  have forward : Forward fun view _ => Idle spread.quantity view :=
    fun _ _ _ moves idle => idle.moves moves
  have always : Always plan spread state.1 := by
    refine Machine.always_of_safe_boot
      (fun world (fresh : Fresh plan world) => always_of_fresh inPlan fresh)
      forward.stable assertable_loose.stable (fun _ => assertable_loose.always) ?_
      (fun world before => safe_boot inPlan alone before) ?_ reached
    · intro world before
      have idle := before.2
      exact ⟨⟨before.1.unique, before.1.fresh, before.1.planned⟩, idle.sound, idle.fresh, idle.disk,
        fun _ none => nomatch none⟩
    · intro world before
      refine Safe.weaken (safe_cycle inPlan before) (fun _ _ => id) ?_
      exact fun _ => assertable_loose.always
  refine ⟨always.2.sound.within, ?_⟩
  rintro (past | ⟨st, isMemory, past⟩)
  · exact always.2.disk.final_of_past past
  · exact always.2.memory st isMemory past

end

/-! ## Structures with the same contracts -/

/-- One spread under different ids. -/
def sampleSpread (id : String) : PutSpread where
  id := id
  underlying := "SPY"
  entryDate := 10
  expiry := 30
  longStrike := 500
  shortStrike := 495
  quantity := 1
  limitCap := 2
  exitDeadline := 20
  takeProfitFrac := none
  quantity_pos := Int.zero_lt_one
  limitCap_pos := by decide
  fraction := by simp
  strikes := by decide
  deadline := by decide
  entered := by decide

def samplePlan : TradePlan where
  structures := [sampleSpread "only"]
  distinct := by decide

def twinPlan : TradePlan where
  structures := [sampleSpread "first", sampleSpread "second"]
  distinct := by decide

def sampleConId (contract : OptionContract) : ℕ :=
  contract.strike.num.toNat

def sampleConfig : EngineConfig where
  entryWindow := ⟨timeOfDay 9 45, timeOfDay 12 0, by decide⟩

def sampleSnapshot : Snapshot where
  date := 10
  time := timeOfDay 10 0
  spots _ := none
  quotes _ := some ⟨1, 1⟩
  dividends _ := none
  shortCallMids _ _ _ := none

/-- Within the entry window, with a book that does not exist yet. -/
def sampleWorld : World where
  trades := []
  nextOrderId := 1
  fills := []
  positions _ := 0
  disk := none
  writable := true
  memory := ⟨fun _ => none, none⟩
  orders _ := none
  halt := false
  flatten := false
  inSession := true
  snapshot := sampleSnapshot

/-- The entry runner with the decisions of the engine. -/
def sampleSystem (plan : TradePlan) : System (World × Activity World) (Move WorldEvent) :=
  (machine sampleConId (decideSpread sampleConfig) plan).system (Fresh plan)

def advances (count : ℕ) : List (Move WorldEvent) :=
  List.replicate count .advance

/-- The runner starts and places the order of the one structure. -/
def placingMoves : List (Move WorldEvent) :=
  [.boot] ++ advances 3 ++ [.again] ++ advances 17

/-- Both orders are placed, the process dies and starts again, and at the end of the entry window
it cancels the order it took up last. -/
def twinMoves : List (Move WorldEvent) :=
  [.boot] ++ advances 3 ++ [.again] ++ advances 31 ++ [.death, .boot] ++ advances 9 ++
    [.event (.market { sampleSnapshot with time := timeOfDay 13 0 } true), .again] ++
    advances 12 ++ [.event (.report 2 "Cancelled" 0 (.finite 0))] ++ advances 7

theorem reachable_of_run {plan : TradePlan} (fresh : Fresh plan sampleWorld)
    {moves : List (Move WorldEvent)} {state : World × Activity World}
    (ran : (sampleSystem plan).run (sampleWorld, .down) moves = some state) :
    (sampleSystem plan).Reachable state := by
  have start : (sampleSystem plan).Reachable (sampleWorld, .down) := .initial ⟨fresh, rfl⟩
  exact start.run (fun _ _ _ => trivial) ran

theorem fresh_sampleWorld (plan : TradePlan) : Fresh plan sampleWorld :=
  ⟨rfl, fun _ _ => ⟨rfl, rfl, rfl⟩⟩

/-- One order is at the broker. -/
def onePlaced (state : World × Activity World) : Bool :=
  (state.1.placedFor "only").length = 1

theorem sampleSpread_alone : ∀ other ∈ samplePlan.structures,
    bag sampleConId other = bag sampleConId (sampleSpread "only") →
      other = sampleSpread "only" := by
  intro other isMember _
  exact List.mem_singleton.mp isMember

theorem entry_never_overbuys_sample : ∃ state,
    (sampleSystem samplePlan).run (sampleWorld, .down) placingMoves = some state ∧
      onePlaced state ∧ bought state.1 (sampleSpread "only") ≤ 1 ∧
      (Left state.1 (sampleSpread "only") →
        ∀ trade ∈ state.1.placedFor "only", trade.Terminal) := by
  have placed :
      ((sampleSystem samplePlan).run (sampleWorld, .down) placingMoves).any onePlaced := by
    decide +kernel
  obtain ⟨state, ran, met⟩ := (Option.any_eq_true _ _).mp placed
  exact ⟨state, ran, met, entry_never_overbuys (List.mem_singleton_self _) sampleSpread_alone
    (reachable_of_run (fresh_sampleWorld samplePlan) ran)⟩

/-- The structure is closed on disk, and an order of it is working. -/
def closedUnderOrder (structureId : String) (state : World × Activity World) : Bool :=
  (state.1.onDisk structureId).status = .closed &&
    (state.1.placedFor structureId).any fun trade => ¬ trade.Terminal

/-- **A structure with the contracts of another one may be closed while it is still buying.** -/
theorem adopted_twin_buys_when_closed : ¬ ∀ (conId : OptionContract → ℕ)
    (decide : PutSpread → StructureState → Snapshot → Option LegacyAction) (plan : TradePlan)
    (spread : PutSpread), spread ∈ plan.structures → ∀ state,
      ((machine conId decide plan).system (Fresh plan)).Reachable state →
        bought state.1 spread ≤ spread.quantity ∧
          (Left state.1 spread → ∀ trade ∈ state.1.placedFor spread.id, trade.Terminal) := by
  intro claim
  have found : ((sampleSystem twinPlan).run (sampleWorld, .down) twinMoves).any
      (closedUnderOrder "first") := by
    decide +kernel
  obtain ⟨state, ran, met⟩ := (Option.any_eq_true _ _).mp found
  rw [closedUnderOrder, Bool.and_eq_true, decide_eq_true_eq, List.any_eq_true] at met
  obtain ⟨closed, trade, isPlaced, works⟩ := met
  have reached := reachable_of_run (fresh_sampleWorld twinPlan) ran
  have final := (claim sampleConId (decideSpread sampleConfig) twinPlan (sampleSpread "first")
    List.mem_cons_self state reached).2
  have left : Left state.1 (sampleSpread "first") := by
    refine .inl ?_
    show (state.1.onDisk "first").status ∉ entryLane
    rw [closed]
    decide
  exact of_decide_eq_true works (final left trade isPlaced)

end TreeOptions.Trex.Enter
