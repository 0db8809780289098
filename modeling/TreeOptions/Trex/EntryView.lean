import TreeOptions.Trex.Enter
import TreeOptions.Trex.OrderFills

/-!
# One structure of an entry runner

What concerns one structure: the orders placed for it, its state on disk and in memory and its
handle (`View`). The environment moves a view forward (`Moves`), and so does whatever the runner
does for another structure, but for a save, which writes all structures.

`Faithful` says that a state of the book knows what the orders filled, as far as more orders may
follow from it. `Tracks` adds that every working order is among the candidates the runner has a
handle of, and `Live` that the memory of the runner is faithful as well.
-/

set_option autoImplicit false

namespace TreeOptions.Trex

/-- What concerns one structure. -/
structure View where
  placed : List Trade
  next : ℕ
  disk : StructureState
  memory : Option StructureState

def World.view (world : World) (structureId : String) : View where
  placed := world.placedFor structureId
  next := world.nextOrderId
  disk := world.onDisk structureId
  memory := world.memory.structures structureId

/-- The broker reports, order ids are used, and the other runner writes past the entry lane. -/
structure Moves (before after : View) : Prop where
  placed : Laters before.placed after.placed
  next : before.next ≤ after.next
  memory : after.memory = before.memory
  disk : after.disk = before.disk ∨
    before.disk.status ∉ entryLane ∧ after.disk.status ∉ entryLane

theorem Moves.refl (view : View) : Moves view view :=
  ⟨Laters.refl view.placed, le_refl _, rfl, .inl rfl⟩

namespace World

variable {world : World} {structureId : String}

@[simp]
theorem view_setOrder (other : String) (ref : Option OrderRef) :
    (world.setOrder other ref).view structureId = world.view structureId :=
  rfl

theorem view_put (st : StructureState) :
    (world.put structureId st).view structureId =
      { world.view structureId with memory := some st } := by
  simp [World.view, World.put, BookState.put, World.placedFor, World.onDisk]

theorem view_put_of_ne {other : String} (different : structureId ≠ other) (st : StructureState) :
    (world.put other st).view structureId = world.view structureId := by
  simp [World.view, World.put, BookState.put, World.placedFor, World.onDisk,
    Function.update_of_ne different]

theorem laters_withTrade {orderId : ℕ} {change : Trade → Trade}
    (later : ∀ trade ∈ world.trades, trade.orderId = orderId → Later trade (change trade)) :
    Laters world.trades (world.withTrade orderId change).trades := by
  refine List.forall₂_map_right_iff.mpr (List.forall₂_same.mpr ?_)
  intro trade isMember
  by_cases same : trade.orderId = orderId
  · rw [if_pos same]
    exact later trade isMember same
  · rw [if_neg same]
    exact Later.refl trade

theorem moves_withTrade {orderId : ℕ} {change : Trade → Trade}
    (later : ∀ trade ∈ world.trades, trade.orderId = orderId → Later trade (change trade)) :
    Moves (world.view structureId) ((world.withTrade orderId change).view structureId) :=
  ⟨Laters.filter (laters_withTrade later) structureId, le_refl _, rfl, .inl rfl⟩

end World

/-! ## Orders of the plan -/

/-- All orders were placed for structures of the plan, under ids of their own. -/
structure Steady (plan : TradePlan) (world : World) : Prop where
  unique : (world.trades.map Trade.orderId).Nodup
  fresh : ∀ trade ∈ world.trades, trade.orderId < world.nextOrderId
  planned : ∀ trade ∈ world.trades, trade.spread ∈ plan.structures

section

variable {plan : TradePlan} {world : World}

theorem World.mem_of_trade {orderId : ℕ} {trade : Trade}
    (found : world.trade orderId = some trade) :
    trade ∈ world.trades ∧ trade.orderId = orderId :=
  ⟨List.mem_of_find?_eq_some found, by simpa using List.find?_some found⟩

variable {structureId : String}

theorem World.mem_placedFor {trade : Trade} : trade ∈ world.placedFor structureId ↔
      trade ∈ world.trades ∧ trade.spread.id = structureId := by
  simp [World.placedFor]

theorem Steady.withTrade (steady : Steady plan world) {orderId : ℕ} {change : Trade → Trade}
    (later : ∀ trade ∈ world.trades, trade.orderId = orderId → Later trade (change trade)) :
    Steady plan (world.withTrade orderId change) := by
  have laters := World.laters_withTrade later
  refine ⟨?_, ?_, ?_⟩
  · rw [laters.orderIds]
    exact steady.unique
  · intro trade isMember
    obtain ⟨was, isWas, later⟩ := laters.earlier isMember
    rw [later.orderId]
    exact steady.fresh was isWas
  · intro trade isMember
    obtain ⟨was, isWas, later⟩ := laters.earlier isMember
    rw [later.spread]
    exact steady.planned was isWas

theorem Steady.withOrder (steady : Steady plan world) {spread : PutSpread}
    (inPlan : spread ∈ plan.structures) (side : Action) (qty : ℤ) (limit : ℚ) :
    Steady plan (world.withOrder spread side qty limit) := by
  refine ⟨?_, ?_, ?_⟩
  · rw [World.withOrder, List.map_append, List.map_singleton]
    refine List.Nodup.append steady.unique (List.nodup_singleton _) ?_
    intro orderId inside same
    obtain ⟨trade, isTrade, rfl⟩ := List.mem_map.mp inside
    exact absurd (List.mem_singleton.mp same) (steady.fresh trade isTrade).ne
  · exact List.forall_mem_append.mpr ⟨fun trade inside => (steady.fresh trade inside).trans
      (Nat.lt_succ_self _), List.forall_mem_singleton.mpr (Nat.lt_succ_self _)⟩
  · exact List.forall_mem_append.mpr ⟨steady.planned, List.forall_mem_singleton.mpr inPlan⟩

theorem World.moves_withOrder {spread : PutSpread} (different : spread.id ≠ structureId)
    (side : Action) (qty : ℤ) (limit : ℚ) : Moves (world.view structureId)
      ((world.withOrder spread side qty limit).view structureId) := by
  have same : (world.withOrder spread side qty limit).placedFor structureId =
      world.placedFor structureId := by
    simp [World.placedFor, World.withOrder, newTrade, different]
  refine ⟨?_, Nat.le_succ _, rfl, .inl rfl⟩
  show Laters (world.placedFor structureId)
    ((world.withOrder spread side qty limit).placedFor structureId)
  rw [same]
  exact Laters.refl _

theorem World.view_withOrder (spread : PutSpread) (side : Action) (qty : ℤ) (limit : ℚ) :
    (world.withOrder spread side qty limit).view spread.id =
      { world.view spread.id with
        placed := (world.view spread.id).placed ++
          [newTrade spread side qty limit world.nextOrderId]
        next := world.nextOrderId + 1 } := by
  simp [World.view, World.placedFor, World.withOrder, newTrade, World.onDisk]

/-! ## The environment -/

/-- The other runner leaves the entry lane alone. -/
theorem moves_otherRunner {next : World} {other : String} {st : StructureState}
    {heartbeat : Option ℤ} (wrote : otherRunnerWrites world other st heartbeat = some next) :
    Moves (world.view structureId) (next.view structureId) ∧ next.trades = world.trades ∧
      next.nextOrderId = world.nextOrderId ∧ next.orders = world.orders := by
  obtain ⟨book, onDisk, written⟩ := Option.bind_eq_some_iff.mp wrote
  by_cases allowed : (world.onDisk other).status ∉ entryLane ∧ st.status ∉ entryLane
  · rw [if_pos allowed] at written
    cases written
    refine ⟨⟨Laters.refl _, le_refl _, rfl, ?_⟩, rfl, rfl, rfl⟩
    by_cases same : structureId = other
    · subst same
      refine .inr ⟨allowed.1, ?_⟩
      simpa [World.view, World.onDisk, BookState.put] using allowed.2
    · refine .inl ?_
      simp [World.view, World.onDisk, BookState.put, Function.update_of_ne same, onDisk]
  · rw [if_neg allowed] at written
    cases written

/-- **The environment moves every view forward**, and leaves the handles of the runner. -/
theorem moves_worldEvent (steady : Steady plan world) {event : WorldEvent} {next : World}
    (moved : worldEvent world event = some next) (structureId : String) :
    Steady plan next ∧ Moves (world.view structureId) (next.view structureId) ∧
      next.orders = world.orders := by
  cases event with
  | report orderId status filled avgFillPrice =>
    obtain ⟨trade, found, reported⟩ := Option.bind_eq_some_iff.mp moved
    by_cases reportable : trade.Reportable status filled
    · rw [if_pos reportable] at reported
      cases reported
      obtain ⟨isTrade, sameId⟩ := World.mem_of_trade found
      have later : ∀ other ∈ world.trades, other.orderId = orderId → Later other
          { other with status, filled, avgFillPrice } := by
        intro other isOther same
        obtain rfl := List.inj_on_of_nodup_map steady.unique isOther isTrade
          (same.trans sameId.symm)
        exact reportable.later avgFillPrice
      exact ⟨steady.withTrade later, World.moves_withTrade later, rfl⟩
    · rw [if_neg reportable] at reported
      cases reported
  | accountData fills positions =>
    cases moved
    exact ⟨⟨steady.unique, steady.fresh, steady.planned⟩, Moves.refl _, rfl⟩
  | orderIds later =>
    simp only [worldEvent] at moved
    split at moved
    case isTrue le =>
      cases moved
      refine ⟨⟨steady.unique, ?_, steady.planned⟩,
        ⟨Laters.refl _, le, rfl, .inl rfl⟩, rfl⟩
      intro trade isMember
      exact (steady.fresh trade isMember).trans_le le
    case isFalse => cases moved
  | otherRunner other st heartbeat =>
    obtain ⟨moves, trades, nextId, orders⟩ := moves_otherRunner moved
    refine ⟨⟨?_, ?_, ?_⟩, moves, orders⟩
    · rw [trades]
      exact steady.unique
    · rw [trades, nextId]
      exact steady.fresh
    · rw [trades]
      exact steady.planned
  | killFiles halt flatten =>
    cases moved
    exact ⟨⟨steady.unique, steady.fresh, steady.planned⟩, Moves.refl _, rfl⟩
  | market snapshot inSession =>
    cases moved
    exact ⟨⟨steady.unique, steady.fresh, steady.planned⟩, Moves.refl _, rfl⟩
  | diskSpace writable =>
    cases moved
    exact ⟨⟨steady.unique, steady.fresh, steady.planned⟩, Moves.refl _, rfl⟩

end

/-! ## Conditions on a view -/

/-- A condition on the view of a structure and its handle. -/
abbrev ViewCondition : Type :=
  View → Option OrderRef → Prop

/-- What the environment cannot break. -/
def Forward (condition : ViewCondition) : Prop :=
  ∀ before after ref, Moves before after → condition before ref → condition after ref

/-- A condition of a structure in a world whose orders are those of the plan. -/
def Holds (plan : TradePlan) (structureId : String) (condition : ViewCondition) (world : World) :
    Prop :=
  Steady plan world ∧ condition (world.view structureId) (world.orders structureId)

section

variable {plan : TradePlan} {structureId : String} {condition other : ViewCondition}

theorem Forward.stable (forward : Forward condition) :
    Stable worldEvent (Holds plan structureId condition) := by
  intro world event next before moved
  obtain ⟨steady, moves, orders⟩ := moves_worldEvent before.1 moved structureId
  refine ⟨steady, ?_⟩
  rw [orders]
  exact forward _ _ _ moves before.2

theorem Forward.and (first : Forward condition) (second : Forward other) :
    Forward fun view ref => condition view ref ∧ other view ref := by
  intro before after ref moves both
  exact ⟨first before after ref moves both.1, second before after ref moves both.2⟩

theorem Holds.mono (weaker : ∀ view ref, condition view ref → other view ref) {world : World}
    (holds : Holds plan structureId condition world) : Holds plan structureId other world :=
  ⟨holds.1, weaker _ _ holds.2⟩

theorem forward_memory (property : Option StructureState → Prop) :
    Forward fun view _ => property view.memory := by
  intro before after ref moves met
  rwa [moves.memory]

theorem forward_ref (property : Option OrderRef → Prop) : Forward fun _ ref => property ref :=
  fun _ _ _ _ met => met

end

end TreeOptions.Trex
