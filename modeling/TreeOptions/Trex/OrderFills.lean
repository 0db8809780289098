import TreeOptions.Trex.Broker

/-!
# What the orders of a structure filled

The orders a broker reports on only move forward (`Later`). At most one order of a structure is
working, and it fits into what the others left of the quantity (`Sound`). A side of the book
records an order (`Records`) when it holds what all other orders filled, besides the checkpoint of
that order, and the checkpoint is no more than the order filled. Recording survives whatever the
broker does meanwhile, and draining a report into the book (`Records.drain`).
-/

set_option autoImplicit false

namespace TreeOptions.Trex

open Decimal

theorem toString_injective {first second : ℕ} (same : toString first = toString second) :
    first = second := by
  have digits : Nat.toDigits 10 first = Nat.toDigits 10 second := String.ofList_injective same
  have readBack : Nat.ofDigitChars 10 (Nat.toDigits 10 first) 0 = second := by
    rw [digits, Nat.ofDigitChars_ten_toDigits]
  rwa [Nat.ofDigitChars_ten_toDigits] at readBack

/-! ## Sums of fills -/

/-- The packages that orders filled. -/
def packages (trades : List Trade) : ℤ :=
  trades.foldr (fun trade total => trade.filled + total) 0

def besides (trades : List Trade) (orderId : ℕ) : List Trade :=
  trades.filter fun trade => trade.orderId ≠ orderId

@[simp]
theorem packages_nil : packages [] = 0 :=
  rfl

@[simp]
theorem packages_cons (trade : Trade) (trades : List Trade) :
    packages (trade :: trades) = trade.filled + packages trades :=
  rfl

theorem packages_append (first second : List Trade) :
    packages (first ++ second) = packages first + packages second := by
  induction first with
  | nil => simp
  | cons trade rest ih => simp [ih, add_assoc]

theorem besides_cons_same (trade : Trade) (trades : List Trade) :
    besides (trade :: trades) trade.orderId = besides trades trade.orderId := by
  simp [besides]

variable {trades : List Trade} {orderId : ℕ}

theorem besides_cons_other {trade : Trade} (other : trade.orderId ≠ orderId) :
    besides (trade :: trades) orderId = trade :: besides trades orderId := by
  simp [besides, other]

theorem besides_of_fresh (fresh : ∀ trade ∈ trades, trade.orderId ≠ orderId) :
    besides trades orderId = trades :=
  List.filter_eq_self.mpr fun trade isMember => decide_eq_true (fresh trade isMember)

theorem packages_besides (unique : (trades.map Trade.orderId).Nodup) {trade : Trade}
    (isMember : trade ∈ trades) :
    packages trades = packages (besides trades trade.orderId) + trade.filled := by
  induction trades with
  | nil => cases isMember
  | cons first rest ih =>
    have distinct := List.nodup_cons.mp unique
    rcases List.mem_cons.mp isMember with rfl | inRest
    · have absent : ∀ other ∈ rest, other.orderId ≠ trade.orderId := by
        intro other inside same
        exact distinct.1 (same ▸ List.mem_map_of_mem inside)
      rw [besides_cons_same, besides_of_fresh absent, packages_cons, add_comm]
    · have other : first.orderId ≠ trade.orderId := by
        intro same
        exact distinct.1 (same ▸ List.mem_map_of_mem inRest)
      rw [besides_cons_other other, packages_cons, packages_cons, ih distinct.2 inRest, add_assoc]

/-! ## Orders move forward -/

/-- A later report on the same order. -/
structure Later (before after : Trade) : Prop where
  orderId : after.orderId = before.orderId
  spread : after.spread = before.spread
  action : after.action = before.action
  quantity : after.totalQuantity = before.totalQuantity
  grows : before.filled ≤ after.filled
  within : before.filled ≤ before.totalQuantity → after.filled ≤ after.totalQuantity
  final : before.Terminal → after.Terminal ∧ after.filled = before.filled

theorem Later.refl (trade : Trade) : Later trade trade :=
  ⟨rfl, rfl, rfl, rfl, le_refl _, id, fun final => ⟨final, rfl⟩⟩

theorem Trade.Reportable.later {trade : Trade} {status : String} {filled : ℤ}
    (reportable : trade.Reportable status filled) (avgFillPrice : Number) :
    Later trade
      { trade with status, filled, avgFillPrice } where
  orderId := rfl
  spread := rfl
  action := rfl
  quantity := rfl
  grows := reportable.1
  within _ := reportable.2.1
  final final := by
    obtain ⟨sameStatus, sameFilled⟩ := reportable.2.2.2 final
    rw [sameStatus]
    exact ⟨final, sameFilled⟩

theorem later_cancelTrade (trade : Trade) : Later trade (cancelTrade trade) := by
  rw [cancelTrade]
  split
  case isTrue final => exact Later.refl trade
  case isFalse working =>
    exact ⟨rfl, rfl, rfl, rfl, le_refl _, id, fun final => absurd final working⟩

abbrev Laters : List Trade → List Trade → Prop :=
  List.Forall₂ Later

theorem Laters.refl (trades : List Trade) : Laters trades trades :=
  List.forall₂_same.mpr fun trade _ => Later.refl trade

section

variable {before after : List Trade}

section

variable (laters : Laters before after)

include laters

theorem Laters.orderIds : after.map Trade.orderId = before.map Trade.orderId := by
  induction laters with
  | nil => rfl
  | cons first _ ih => rw [List.map_cons, List.map_cons, first.orderId, ih]

/-- The orders placed for one structure move forward with all orders. -/
theorem Laters.filter (structureId : String) :
    Laters (before.filter fun trade => trade.spread.id = structureId)
      (after.filter fun trade => trade.spread.id = structureId) := by
  induction laters with
  | nil => exact List.Forall₂.nil
  | @cons trade next trades nexts first _ ih =>
    have same : next.spread.id = trade.spread.id := by rw [first.spread]
    by_cases placed : trade.spread.id = structureId
    · simp only [List.filter_cons, same, placed, decide_true, if_true]
      exact List.Forall₂.cons first ih
    · simp only [List.filter_cons, same, placed, decide_false, Bool.false_eq_true, if_false]
      exact ih

/-- Other orders that are final fill nothing more. -/
theorem Laters.packages_besides {orderId : ℕ}
    (others : ∀ trade ∈ before, trade.orderId ≠ orderId → trade.Terminal) :
    packages (besides after orderId) = packages (besides before orderId) := by
  induction laters with
  | nil => rfl
  | @cons trade next trades nexts first _ ih =>
    have rest := ih (List.forall_mem_cons.mp others).2
    by_cases same : trade.orderId = orderId
    · have sameNext : next.orderId = orderId := first.orderId.trans same
      subst same
      rw [besides_cons_same, ← first.orderId, besides_cons_same, first.orderId, rest]
    · have otherNext : next.orderId ≠ orderId := by rwa [first.orderId]
      rw [besides_cons_other same, besides_cons_other otherNext, packages_cons, packages_cons,
        rest, (first.final (others trade List.mem_cons_self same)).2]

/-- Orders that are all final fill nothing more. -/
theorem Laters.packages_of_terminal (final : ∀ trade ∈ before, trade.Terminal) :
    packages after = packages before ∧ ∀ trade ∈ after, trade.Terminal := by
  induction laters with
  | nil => exact ⟨rfl, final⟩
  | @cons trade next trades nexts first _ ih =>
    obtain ⟨sum, rest⟩ := ih (List.forall_mem_cons.mp final).2
    obtain ⟨finalNext, same⟩ := first.final (final trade List.mem_cons_self)
    refine ⟨by rw [packages_cons, packages_cons, sum, same], ?_⟩
    exact List.forall_mem_cons.mpr ⟨finalNext, rest⟩

theorem Laters.earlier {trade : Trade} (isMember : trade ∈ after) :
    ∃ was ∈ before, Later was trade :=
  Checked.exists_left_of_forall₂ laters isMember

theorem Laters.next {trade : Trade} (isMember : trade ∈ before) : ∃ now ∈ after, Later trade now :=
  Checked.exists_right_of_forall₂ laters isMember

end

theorem Later.working {trade now : Trade} (later : Later trade now) (works : ¬ now.Terminal) :
    ¬ trade.Terminal :=
  fun final => works (later.final final).1

end

/-! ## One working order at a time -/

def OthersFinal (trades : List Trade) (orderId : ℕ) : Prop :=
  ∀ trade ∈ trades, trade.orderId ≠ orderId → trade.Terminal

theorem OthersFinal.later {before after : List Trade} (others : OthersFinal before orderId)
    (laters : Laters before after) : OthersFinal after orderId := by
  intro trade isMember other
  obtain ⟨was, isWas, later⟩ := laters.earlier isMember
  exact (later.final (others was isWas (later.orderId ▸ other))).1

structure Sound (side : Action) (quantity : ℤ) (trades : List Trade) : Prop where
  unique : (trades.map Trade.orderId).Nodup
  sided : ∀ trade ∈ trades, trade.action = side
  bounded : ∀ trade ∈ trades, 0 ≤ trade.filled ∧ trade.filled ≤ trade.totalQuantity
  within : packages trades ≤ quantity
  working : ∀ trade ∈ trades, ¬ trade.Terminal → OthersFinal trades trade.orderId ∧
    packages (besides trades trade.orderId) + trade.totalQuantity ≤ quantity

section

variable {side : Action} {quantity : ℤ} {before after trades : List Trade}

/-- **The broker cannot fill more than the quantity.** -/
theorem Sound.later (sound : Sound side quantity before) (laters : Laters before after) :
    Sound side quantity after := by
  have unique : (after.map Trade.orderId).Nodup := by
    rw [laters.orderIds]
    exact sound.unique
  have bounded : ∀ trade ∈ after, 0 ≤ trade.filled ∧ trade.filled ≤ trade.totalQuantity := by
    intro trade isMember
    obtain ⟨was, isWas, later⟩ := laters.earlier isMember
    have bounds := sound.bounded was isWas
    exact ⟨bounds.1.trans later.grows, later.within bounds.2⟩
  have working : ∀ trade ∈ after, ¬ trade.Terminal → OthersFinal after trade.orderId ∧
      packages (besides after trade.orderId) + trade.totalQuantity ≤ quantity := by
    intro trade isMember works
    obtain ⟨was, isWas, later⟩ := laters.earlier isMember
    obtain ⟨others, fits⟩ := sound.working was isWas (later.working works)
    rw [later.orderId, later.quantity, laters.packages_besides others]
    exact ⟨others.later laters, fits⟩
  refine ⟨unique, ?_, bounded, ?_, working⟩
  · intro trade isMember
    obtain ⟨was, isWas, later⟩ := laters.earlier isMember
    rw [later.action]
    exact sound.sided was isWas
  · by_cases final : ∀ trade ∈ before, trade.Terminal
    · rw [(laters.packages_of_terminal final).1]
      exact sound.within
    · -- one order is working: what it fills is in its quantity
      push Not at final
      obtain ⟨was, isWas, works⟩ := final
      obtain ⟨now, isNow, later⟩ := laters.next isWas
      obtain ⟨others, fits⟩ := sound.working was isWas works
      rw [packages_besides unique isNow, later.orderId, laters.packages_besides others]
      have filled := (bounded now isNow).2
      rw [later.quantity] at filled
      omega

/-- An order for no more than what is left, while none is working. -/
theorem Sound.place (sound : Sound side quantity trades)
    (final : ∀ trade ∈ trades, trade.Terminal) {trade : Trade}
    (fresh : ∀ other ∈ trades, other.orderId ≠ trade.orderId) (sided : trade.action = side)
    (empty : trade.filled = 0) (positive : 0 ≤ trade.totalQuantity)
    (fits : packages trades + trade.totalQuantity ≤ quantity) :
    Sound side quantity (trades ++ [trade]) := by
  have alone : besides (trades ++ [trade]) trade.orderId = trades := by
    rw [besides, List.filter_append, ← besides, besides_of_fresh fresh]
    simp
  constructor
  · rw [List.map_append, List.map_singleton]
    refine List.Nodup.append sound.unique (List.nodup_singleton _) ?_
    intro orderId inside same
    obtain ⟨other, isOther, rfl⟩ := List.mem_map.mp inside
    exact fresh other isOther (List.mem_singleton.mp same)
  · exact List.forall_mem_append.mpr ⟨sound.sided, List.forall_mem_singleton.mpr sided⟩
  · intro other isMember
    rcases List.mem_append.mp isMember with inside | new
    · exact sound.bounded other inside
    · rw [List.mem_singleton.mp new, empty]
      exact ⟨le_refl _, positive⟩
  · rw [packages_append, packages_cons, packages_nil, empty]
    have within := sound.within
    omega
  · intro other isMember works
    rcases List.mem_append.mp isMember with inside | new
    · exact absurd (final other inside) works
    · obtain rfl := List.mem_singleton.mp new
      refine ⟨?_, by rwa [alone]⟩
      intro another inside different
      rcases List.mem_append.mp inside with earlier | same
      · exact final another earlier
      · exact absurd (congrArg Trade.orderId (List.mem_singleton.mp same)) different

end

/-! ## Recording an order -/

/-- What a side holds besides the checkpoint of an order. -/
def recordedBesides (lane : Lane) (orderId : ℕ) : ℤ :=
  if lane.order = some (toString orderId) then lane.filledQty - lane.orderSeen else lane.filledQty

/-- A side of the book holds what the other orders filled, and no more than an order filled. -/
structure Records (trades : List Trade) (lane : Lane) (orderId : ℕ) : Prop where
  others : recordedBesides lane orderId = packages (besides trades orderId)
  seen : lane.order = some (toString orderId) →
    ∀ trade ∈ trades, trade.orderId = orderId → lane.orderSeen ≤ trade.filled

theorem Records.later {before after : List Trade} {lane : Lane}
    (records : Records before lane orderId) (others : OthersFinal before orderId)
    (laters : Laters before after) : Records after lane orderId where
  others := records.others.trans (laters.packages_besides others).symm
  seen same trade isMember found := by
    obtain ⟨was, isWas, later⟩ := laters.earlier isMember
    exact (records.seen same was isWas (later.orderId.symm.trans found)).trans later.grows

section

variable {lane : Lane} {orderId : ℕ} {trades : List Trade}

@[simp]
theorem adopt_order (lane : Lane) (text : String) : (lane.adopt text).order = some text := by
  rw [Lane.adopt]
  split
  case isTrue same => exact same
  case isFalse => rfl

@[simp]
theorem adopt_filledQty (lane : Lane) (text : String) :
    (lane.adopt text).filledQty = lane.filledQty := by
  rw [Lane.adopt]
  split <;> rfl

theorem recordedBesides_adopt :
    recordedBesides (lane.adopt (toString orderId)) orderId = recordedBesides lane orderId := by
  rw [recordedBesides, recordedBesides, Lane.adopt]
  by_cases same : lane.order = some (toString orderId)
  · rw [if_pos same, if_pos same]
  · rw [if_neg same, if_neg same, if_pos rfl, sub_zero]

/-- **Taking up an order keeps what is recorded**, whether the book knew the order or not. -/
theorem Records.adopt (records : Records trades lane orderId)
    (filled : ∀ trade ∈ trades, 0 ≤ trade.filled) :
    Records trades (lane.adopt (toString orderId)) orderId where
  others := recordedBesides_adopt.trans records.others
  seen _ trade isMember found := by
    rw [Lane.adopt]
    by_cases same : lane.order = some (toString orderId)
    · rw [if_pos same]
      exact records.seen same trade isMember found
    · rw [if_neg same]
      exact filled trade isMember

/-- What a drain keeps of a side: the order, what is held besides it, and the checkpoint moves to
what was reported, unless the report is stale. -/
structure Drains (before : Lane) (filled : ℤ) (after : Lane) : Prop where
  order : after.order = before.order
  besides : after.filledQty - after.orderSeen = before.filledQty - before.orderSeen
  seen : after.orderSeen = max before.orderSeen filled

theorem drains_recordUnpriced (lane : Lane) {filled : ℤ} (fresh : lane.orderSeen ≤ filled) :
    Drains lane filled (lane.recordUnpriced filled).1 := by
  rw [Lane.recordUnpriced]
  split
  case isTrue nothing =>
    refine ⟨rfl, rfl, ?_⟩
    rw [max_eq_right fresh]
    dsimp only
    omega
  case isFalse =>
    refine ⟨rfl, ?_, (max_eq_right fresh).symm⟩
    dsimp only
    omega

theorem drains_recordPriced {after : Lane × ℤ} {filled : ℤ} {avg : ℚ}
    (fresh : lane.orderSeen ≤ filled) (recorded : lane.recordPriced filled avg = .ok after) :
    Drains lane filled after.1 := by
  rw [Lane.recordPriced] at recorded
  by_cases nothing : filled - lane.orderSeen = 0 ∧ lane.orderUnpriced = 0 ∧
      lane.orderNotional = some (mul avg filled)
  · rw [if_pos nothing] at recorded
    cases recorded
    refine ⟨rfl, rfl, ?_⟩
    rw [max_eq_right fresh]
    dsimp only
    omega
  · rw [if_neg nothing] at recorded
    obtain ⟨fill, _, same⟩ := Checked.bind_eq_ok.mp recorded
    cases same
    refine ⟨rfl, ?_, (max_eq_right fresh).symm⟩
    dsimp only
    omega

theorem drains_record {after : Lane × ℤ} {filled : ℤ} {avg : Number}
    (fresh : lane.orderSeen ≤ filled) (recorded : lane.record filled avg = .ok after) :
    Drains lane filled after.1 := by
  cases avg with
  | finite avg =>
    rw [Lane.record] at recorded
    by_cases priced : 0 < filled ∧ 0 < avg
    · rw [if_pos priced] at recorded
      exact drains_recordPriced fresh recorded
    · rw [if_neg priced] at recorded
      cases recorded
      exact drains_recordUnpriced lane fresh
  | infinity negative =>
    cases recorded
    exact drains_recordUnpriced lane fresh
  | nan =>
    cases recorded
    exact drains_recordUnpriced lane fresh

/-- **Draining a report moves the checkpoint of its order and nothing besides.** -/
theorem drains_drain {after : Lane × ℤ} {order : WorkingOrder}
    (drained : lane.drain order = .ok after) :
    Drains (lane.adopt order.orderId) order.filled after.1 := by
  rw [Lane.drain] at drained
  by_cases stale : order.filled < (lane.adopt order.orderId).orderSeen
  · rw [if_pos stale] at drained
    cases drained
    exact ⟨rfl, rfl, (max_eq_left stale.le).symm⟩
  · rw [if_neg stale] at drained
    exact drains_record (not_lt.mp stale) drained

theorem recordedBesides_of_order {lane : Lane} (same : lane.order = some (toString orderId)) :
    recordedBesides lane orderId = lane.filledQty - lane.orderSeen :=
  if_pos same

theorem Records.drains {after : Lane} {filled : ℤ} (records : Records trades lane orderId)
    (order : lane.order = some (toString orderId)) (drains : Drains lane filled after)
    (truthful : ∀ trade ∈ trades, trade.orderId = orderId → filled ≤ trade.filled) :
    Records trades after orderId where
  others := by
    rw [recordedBesides_of_order (drains.order.trans order), drains.besides,
      ← recordedBesides_of_order order, records.others]
  seen _ trade isMember found := by
    rw [drains.seen]
    exact max_le (records.seen order trade isMember found) (truthful trade isMember found)

theorem Records.complete {after : Lane} {trade : Trade} (records : Records trades lane orderId)
    (order : lane.order = some (toString orderId))
    (unique : (trades.map Trade.orderId).Nodup) (isMember : trade ∈ trades)
    (found : trade.orderId = orderId) (drains : Drains lane trade.filled after) :
    after.filledQty = packages trades := by
  have seen := records.seen order trade isMember found
  have besides := drains.besides
  rw [drains.seen, max_eq_right seen, ← recordedBesides_of_order order, records.others] at besides
  rw [packages_besides unique isMember, found]
  omega

end

end TreeOptions.Trex
