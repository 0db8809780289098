import TreeOptions.Trex.EntryView

/-!
# What the entry runner knows of a structure

`Faithful` says that a state of the book knows what the orders filled, as far as more orders may
follow from it: a planned structure holds all fills, and one that is entering holds all but those
of its candidate orders. `Idle` is what holds whatever the runner is doing, or while it is down,
where the working orders are the candidates. `Tracks` says that the candidates are orders the
runner has at hand, and `Live` that its memory is faithful too.
-/

set_option autoImplicit false

namespace TreeOptions.Trex.Enter

open Decimal

def AllFinal (trades : List Trade) : Prop :=
  ∀ trade ∈ trades, trade.Terminal

structure Faithful (candidate : ℕ → Prop) (placed : List Trade) (next : ℕ)
    (st : StructureState) : Prop where
  settled : st.status ≠ .enterWorking → AllFinal placed
  planned : st.status = .planned → st.filledQty = packages placed
  recorded : st.status ∈ entryLane → ∀ trade ∈ placed,
    candidate trade.orderId ∨ ¬ trade.Terminal → Records placed st.entry trade.orderId
  known : st.status ∈ entryLane → ∀ text ∈ st.entry.order, ∃ orderId < next,
    text = toString orderId

/-- What holds of a structure at any time. -/
structure Idle (quantity : ℤ) (view : View) : Prop where
  sound : Sound .buy quantity view.placed
  fresh : ∀ trade ∈ view.placed, trade.orderId < view.next
  disk : Faithful (fun _ => False) view.placed view.next view.disk
  memory : ∀ st ∈ view.memory, st.status ∉ entryLane → AllFinal view.placed

/-- The candidates are the orders the runner has at hand. -/
structure Tracks (candidate : ℕ → Prop) (quantity : ℤ) (view : View) : Prop where
  sound : Sound .buy quantity view.placed
  fresh : ∀ trade ∈ view.placed, trade.orderId < view.next
  sole : ∀ first second, candidate first → candidate second → first = second
  placed : ∀ orderId, candidate orderId → ∃ trade ∈ view.placed, trade.orderId = orderId
  others : ∀ orderId, candidate orderId → OthersFinal view.placed orderId
  working : ∀ trade ∈ view.placed, ¬ trade.Terminal → candidate trade.orderId
  disk : Faithful candidate view.placed view.next view.disk
  loaded : ∃ st, view.memory = some st ∧ (st.status ∉ entryLane → AllFinal view.placed)

/-- The memory of the runner is faithful, and in the entry lane only with the book on disk. -/
structure Live (candidate : ℕ → Prop) (quantity : ℤ) (view : View) : Prop
    extends Tracks candidate quantity view where
  memory : ∀ st ∈ view.memory, Faithful candidate view.placed view.next st
  lanes : ∀ st ∈ view.memory, st.status ∈ entryLane → view.disk.status ∈ entryLane

def handled (ref : Option OrderRef) (orderId : ℕ) : Prop :=
  ∃ held ∈ ref, held.orderId = orderId

/-! ## Moving forward -/

theorem AllFinal.later {before after : List Trade} (final : AllFinal before)
    (laters : Laters before after) : AllFinal after :=
  (laters.packages_of_terminal final).2

section

variable {candidate : ℕ → Prop} {before after : List Trade} {next nextNow : ℕ}
  {st : StructureState}

theorem Faithful.later (faithful : Faithful candidate before next st)
    (others : ∀ trade ∈ before, candidate trade.orderId ∨ ¬ trade.Terminal →
      OthersFinal before trade.orderId)
    (laters : Laters before after) (le : next ≤ nextNow) : Faithful candidate after nextNow st where
  settled apart := (faithful.settled apart).later laters
  planned isPlanned := by
    have apart : st.status ≠ .enterWorking := by
      rw [isPlanned]
      decide
    rw [(laters.packages_of_terminal (faithful.settled apart)).1]
    exact faithful.planned isPlanned
  recorded inLane trade isMember counts := by
    obtain ⟨was, isWas, moved⟩ := laters.earlier isMember
    rw [moved.orderId] at counts ⊢
    have counted : candidate was.orderId ∨ ¬ was.Terminal :=
      counts.imp_right moved.working
    exact (faithful.recorded inLane was isWas counted).later (others was isWas counted) laters
  known inLane text isText := by
    obtain ⟨orderId, lt, same⟩ := faithful.known inLane text isText
    exact ⟨orderId, lt.trans_le le, same⟩

theorem faithful_of_past (past : st.status ∉ entryLane) (final : AllFinal before) :
    Faithful candidate before next st where
  settled _ := final
  planned isPlanned := absurd (by rw [isPlanned]; decide) past
  recorded inLane := absurd inLane past
  known inLane := absurd inLane past

theorem Faithful.final_of_past (faithful : Faithful candidate before next st)
    (past : st.status ∉ entryLane) : AllFinal before := by
  refine faithful.settled ?_
  intro entering
  exact past (by rw [entering]; decide)

theorem Faithful.mono {fewer : ℕ → Prop} (faithful : Faithful candidate before next st)
    (weaker : ∀ orderId, fewer orderId → candidate orderId) : Faithful fewer before next st where
  settled := faithful.settled
  planned := faithful.planned
  recorded inLane trade isMember counts :=
    faithful.recorded inLane trade isMember (counts.imp_left (weaker trade.orderId))
  known := faithful.known

end

section

variable {candidate : ℕ → Prop} {quantity : ℤ} {before after view : View} {st : StructureState}

theorem Faithful.moves (faithful : Faithful candidate before.placed before.next st)
    (others : ∀ trade ∈ before.placed, candidate trade.orderId ∨ ¬ trade.Terminal →
      OthersFinal before.placed trade.orderId) (moves : Moves before after) :
    Faithful candidate after.placed after.next st :=
  faithful.later others moves.placed moves.next

/-- The state on disk stays faithful, also where the other runner writes it. -/
theorem Faithful.disk_moves (faithful : Faithful candidate before.placed before.next before.disk)
    (others : ∀ trade ∈ before.placed, candidate trade.orderId ∨ ¬ trade.Terminal →
      OthersFinal before.placed trade.orderId)
    (moves : Moves before after) :
    Faithful candidate after.placed after.next after.disk := by
  rcases moves.disk with same | ⟨wasPast, isPast⟩
  · rw [same]
    exact faithful.moves others moves
  · exact faithful_of_past isPast ((faithful.final_of_past wasPast).later moves.placed)

theorem fresh_of_moves (moves : Moves before after)
    (fresh : ∀ trade ∈ before.placed, trade.orderId < before.next) :
    ∀ trade ∈ after.placed, trade.orderId < after.next := by
  intro trade isMember
  obtain ⟨was, isWas, later⟩ := moves.placed.earlier isMember
  rw [later.orderId]
  exact (fresh was isWas).trans_le moves.next

theorem Idle.moves (idle : Idle quantity before) (moves : Moves before after) :
    Idle quantity after where
  sound := idle.sound.later moves.placed
  fresh := fresh_of_moves moves idle.fresh
  disk := by
    refine idle.disk.disk_moves ?_ moves
    intro trade isMember counts
    exact (idle.sound.working trade isMember (counts.resolve_left id)).1
  memory := by
    rw [moves.memory]
    intro st isMemory past
    exact (idle.memory st isMemory past).later moves.placed

theorem Tracks.othersFinal (tracks : Tracks candidate quantity before) :
    ∀ trade ∈ before.placed, candidate trade.orderId ∨ ¬ trade.Terminal →
      OthersFinal before.placed trade.orderId := by
  intro trade isMember counts
  exact tracks.others trade.orderId (counts.elim id (tracks.working trade isMember))

theorem Tracks.moves (tracks : Tracks candidate quantity before) (moves : Moves before after) :
    Tracks candidate quantity after where
  sound := tracks.sound.later moves.placed
  fresh := fresh_of_moves moves tracks.fresh
  sole := tracks.sole
  placed orderId isCandidate := by
    obtain ⟨trade, isMember, same⟩ := tracks.placed orderId isCandidate
    obtain ⟨now, isNow, later⟩ := moves.placed.next isMember
    exact ⟨now, isNow, later.orderId.trans same⟩
  others orderId isCandidate := (tracks.others orderId isCandidate).later moves.placed
  working trade isMember works := by
    obtain ⟨was, isWas, later⟩ := moves.placed.earlier isMember
    rw [later.orderId]
    exact tracks.working was isWas (later.working works)
  disk := tracks.disk.disk_moves tracks.othersFinal moves
  loaded := by
    rw [moves.memory]
    obtain ⟨st, isMemory, past⟩ := tracks.loaded
    exact ⟨st, isMemory, fun apart => (past apart).later moves.placed⟩

theorem Live.moves (live : Live candidate quantity before) (moves : Moves before after) :
    Live candidate quantity after where
  toTracks := live.toTracks.moves moves
  memory := by
    rw [moves.memory]
    intro st isMemory
    exact (live.memory st isMemory).moves live.othersFinal moves
  lanes := by
    rw [moves.memory]
    intro st isMemory inLane
    have onDisk := live.lanes st isMemory inLane
    rcases moves.disk with same | ⟨wasPast, _⟩
    · rw [same]
      exact onDisk
    · exact absurd onDisk wasPast

/-- Whatever the runner has at hand, the structure is in order. -/
theorem Tracks.idle (tracks : Tracks candidate quantity view) : Idle quantity view where
  sound := tracks.sound
  fresh := tracks.fresh
  disk := tracks.disk.mono fun _ none => none.elim
  memory := by
    obtain ⟨st, isMemory, past⟩ := tracks.loaded
    intro other isOther apart
    cases isOther.symm.trans isMemory
    exact past apart

/-! ## What the runner does to its memory -/

variable {new : StructureState}

theorem Live.put (live : Live candidate quantity view) (isMemory : view.memory = some st)
    (faithful : Faithful candidate view.placed view.next new)
    (lanes : new.status ∈ entryLane → st.status ∈ entryLane) :
    Live candidate quantity { view with memory := some new } where
  toTracks := { live.toTracks with loaded := ⟨new, rfl, faithful.final_of_past⟩ }
  memory := by
    intro other isOther
    cases isOther
    exact faithful
  lanes := by
    intro other isOther inLane
    cases isOther
    exact live.lanes st isMemory (lanes inLane)

section

variable (tracks : Tracks candidate quantity view)

include tracks

theorem Tracks.leave (final : AllFinal view.placed) (past : new.status ∉ entryLane) :
    Live candidate quantity { view with memory := some new } where
  toTracks := { tracks with loaded := ⟨new, rfl, fun _ => final⟩ }
  memory := by
    intro other isOther
    cases isOther
    exact faithful_of_past past final
  lanes := by
    intro other isOther inLane
    cases isOther
    exact absurd inLane past

theorem Tracks.put (inLane : new.status ∈ entryLane) :
    Tracks candidate quantity { view with memory := some new } :=
  { tracks with loaded := ⟨new, rfl, fun past => absurd inLane past⟩ }

/-- The book on disk is taken into memory. -/
theorem Tracks.sync : Live candidate quantity { view with memory := some view.disk } where
  toTracks := { tracks with loaded := ⟨view.disk, rfl, tracks.disk.final_of_past⟩ }
  memory := by
    intro other isOther
    cases isOther
    exact tracks.disk
  lanes := by
    intro other isOther inLane
    cases isOther
    exact inLane

end

/-- The candidates, once all orders are over, may be any of them. -/
theorem Live.drop (live : Live candidate quantity view) (final : AllFinal view.placed) :
    Live (fun _ => False) quantity view where
  sound := live.sound
  fresh := live.fresh
  sole _ _ none := none.elim
  placed _ none := none.elim
  others _ none := none.elim
  working trade isMember works := absurd (final trade isMember) works
  disk := live.disk.mono fun _ none => none.elim
  loaded := live.loaded
  memory st isMemory := (live.memory st isMemory).mono fun _ none => none.elim
  lanes := live.lanes

theorem Live.congr {same : ℕ → Prop} (live : Live candidate quantity view)
    (iff : ∀ orderId, candidate orderId ↔ same orderId) : Live same quantity view := by
  obtain rfl : candidate = same := funext fun orderId => propext (iff orderId)
  exact live

/-! ## Saving -/

/-- What a save keeps of a structure, which the runner then has in memory. -/
def keptState (disk st : StructureState) : StructureState :=
  if disk.status ∈ entryLane then st else disk

theorem statusReachable_of_lane : ∀ current ∈ entryLane, ∀ target,
    statusReachable current target := by
  decide

theorem saveOwned_structures (mine : BookState) (disk : Option BookState) (structureId : String)
    (isMine : mine.structures structureId = some st) :
    (mine.saveOwned disk theirs).structures structureId =
      some (keptState ((disk.bind fun book => book.structures structureId).getD {}) st) := by
  cases disk with
  | none =>
    show mine.structures structureId = _
    rw [isMine]
    rfl
  | some book =>
    rw [BookState.saveOwned, BookState.adopt, Option.bind_some]
    dsimp only
    rw [isMine, Option.map_some]
    cases found : book.structures structureId with
    | none => rfl
    | some onDisk =>
      show some (if BookState.yields theirs st onDisk then onDisk else st) =
        some (keptState onDisk st)
      by_cases inLane : onDisk.status ∈ entryLane
      · have reachable := statusReachable_of_lane onDisk.status inLane st.status
        simp [BookState.yields, theirs, keptState, inLane, reachable]
      · simp [BookState.yields, theirs, keptState, inLane]

theorem Live.save (live : Live candidate quantity view) (isMemory : view.memory = some st) :
    Live candidate quantity { view with memory := some (keptState view.disk st) } ∧
      Live candidate quantity { view with
        disk := keptState view.disk st, memory := some (keptState view.disk st) } := by
  by_cases inLane : view.disk.status ∈ entryLane
  · have kept : keptState view.disk st = st := if_pos inLane
    rw [kept]
    have same : Live candidate quantity { view with memory := some st } := by
      rw [← isMemory]
      exact live
    refine ⟨same, ?_⟩
    exact
      { same with
        disk := live.memory st isMemory
        lanes := by
          intro other isOther
          cases isOther
          exact id }
  · have kept : keptState view.disk st = view.disk := if_neg inLane
    rw [kept]
    exact ⟨live.toTracks.sync, live.toTracks.sync⟩

end

end TreeOptions.Trex.Enter
