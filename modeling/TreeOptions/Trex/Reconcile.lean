import Mathlib.Tactic.LinearCombination
import TreeOptions.Trex.Engine

/-!
# Reconciling fills and their prices

`drain` merges the reports on an order into one side of a book. It keeps a quantity, what of it
has no price yet, and one average over the rest, although prices arrive late and change.

What the side should hold is said from the reports alone (`Tally`): of each order the largest
cumulative fill, the last price that was reported for no fewer fills, and the fills since. As long
as the reports on one order follow each other, the quantities of the side are the sums
over the orders (`Counts.drain`), and so is the average times the priced quantity
where the arithmetic is exact (`Averages.drain`). No division is by zero, however the arithmetic
rounds, since the fills of the report are put back in before the division.

The arithmetic is a parameter: `drainWith roundContext` is the `drain` of the source, and
`drainWith id` the same in exact rational numbers.
-/

set_option autoImplicit false

namespace TreeOptions.Trex

open Decimal

/-! ## Draining in any arithmetic -/

section Arithmetic

variable (round : ℚ → ℚ)

def Lane.blendWith (lane : Lane) (filled : ℤ) (cumulative : ℚ) : Except EngineError ℚ :=
  let priced := lane.filledQty - lane.unpricedQty
  let others := if lane.fill.isSome then priced - (lane.orderSeen - lane.orderUnpriced) else 0
  let othersNotional :=
    match lane.fill with
    | some fill =>
      if others ≠ 0 then round (round (fill * priced) - lane.orderNotional.getD 0) else 0
    | none => 0
  orRaise (if ((others + filled : ℤ) : ℚ) = 0 then none
    else some (round (round (othersNotional + cumulative) / (others + filled : ℤ))))

def Lane.recordPricedWith (lane : Lane) (filled : ℤ) (avg : ℚ) : Except EngineError (Lane × ℤ) :=
  if filled - lane.orderSeen = 0 ∧ lane.orderUnpriced = 0 ∧
      lane.orderNotional = some (round (avg * filled)) then
    .ok (lane, 0)
  else do
    let fill ← lane.blendWith round filled (round (avg * filled))
    return ({ lane with
      filledQty := lane.filledQty + (filled - lane.orderSeen)
      fill := some fill
      orderSeen := filled
      orderNotional := some (round (avg * filled))
      unpricedQty := lane.unpricedQty - lane.orderUnpriced
      orderUnpriced := 0 }, filled - lane.orderSeen)

/-- The average of a report, where it has one: finite and positive, for fills there are. -/
def WorkingOrder.pricedAt (order : WorkingOrder) : Option ℚ :=
  match order.avgFillPrice with
  | .finite avg => if 0 < order.filled ∧ 0 < avg then some avg else none
  | .infinity _ | .nan => none

def Lane.recordWith (lane : Lane) (order : WorkingOrder) : Except EngineError (Lane × ℤ) :=
  match order.pricedAt with
  | some avg => lane.recordPricedWith round order.filled avg
  | none => .ok (lane.recordUnpriced order.filled)

def Lane.drainWith (lane : Lane) (order : WorkingOrder) : Except EngineError (Lane × ℤ) :=
  let lane := lane.adopt order.orderId
  if order.filled < lane.orderSeen then .ok (lane, 0)
  else lane.recordWith round order

def drainWith (st : StructureState) (order : WorkingOrder) :
    Except EngineError (StructureState × ℤ) :=
  match order.role with
  | .entry => do
      let (lane, new) ← st.entry.drainWith round order
      return ({ st with entry := lane }, new)
  | .exit => do
      let (lane, new) ← st.exit.drainWith round order
      return ({ st with exit := lane }, new)

end Arithmetic

theorem Lane.drainWith_context (lane : Lane) (order : WorkingOrder) :
    lane.drainWith roundContext order = lane.drain order := by
  have recorded : ∀ lane : Lane, lane.recordWith roundContext order =
      lane.record order.filled order.avgFillPrice := by
    intro lane
    simp only [Lane.recordWith, WorkingOrder.pricedAt]
    cases order.avgFillPrice with
    | finite avg =>
      by_cases priced : 0 < order.filled ∧ 0 < avg
      · simp only [Lane.record, if_pos priced, Lane.recordPricedWith, Lane.recordPriced,
          Lane.blendWith, Lane.blend, mul, add, sub, div?, Int.cast_add]
        rfl
      · simp only [Lane.record, if_neg priced]
    | infinity negative => rfl
    | nan => rfl
  rw [Lane.drainWith, Lane.drain]
  simp only [recorded]

/-- **The drain of the source is the one that rounds in the decimal context.** -/
theorem drainWith_context (st : StructureState) (order : WorkingOrder) :
    drainWith roundContext st order = drain st order := by
  cases isRole : order.role with
  | entry => simp only [drainWith, drain, isRole, Lane.drainWith_context]
  | exit => simp only [drainWith, drain, isRole, Lane.drainWith_context]

/-! ## What the reports say -/

/-- Of one order or of several: the fills, those without a price, and the price of the rest. -/
structure Tally where
  filled : ℤ
  unpriced : ℤ
  notional : ℚ

namespace Tally

def zero : Tally :=
  ⟨0, 0, 0⟩

def plus (first second : Tally) : Tally :=
  ⟨first.filled + second.filled, first.unpriced + second.unpriced,
    first.notional + second.notional⟩

theorem zero_plus (tally : Tally) : zero.plus tally = tally := by
  simp [zero, plus]

theorem plus_left_comm (first second third : Tally) :
    first.plus (second.plus third) = second.plus (first.plus third) := by
  simp only [plus, add_left_comm]

/-- A tally of some orders: what is priced has fills, and without them there is no price. -/
structure Valid (tally : Tally) : Prop where
  unpriced_nonneg : 0 ≤ tally.unpriced
  unpriced_le : tally.unpriced ≤ tally.filled
  notional_eq : tally.filled = tally.unpriced → tally.notional = 0

theorem valid_zero : zero.Valid :=
  ⟨le_rfl, le_rfl, fun _ => rfl⟩

theorem Valid.plus {first second : Tally} (valid : first.Valid) (valid' : second.Valid) :
    (first.plus second).Valid := by
  refine ⟨add_nonneg valid.unpriced_nonneg valid'.unpriced_nonneg,
    add_le_add valid.unpriced_le valid'.unpriced_le, ?_⟩
  intro same
  have low := valid.unpriced_le
  have low' := valid'.unpriced_le
  simp only [Tally.plus] at same ⊢
  rw [valid.notional_eq (by omega), valid'.notional_eq (by omega), add_zero]

end Tally

/-- The largest cumulative fill of some reports. -/
def largest : List WorkingOrder → ℤ
  | [] => 0
  | report :: earlier => max report.filled (largest earlier)

/-- The last report with a price that was not stale: its fills and its average. The latest report
comes first. -/
def lastPriced : List WorkingOrder → Option (ℤ × ℚ)
  | [] => none
  | report :: earlier =>
    match report.pricedAt with
    | some avg =>
      if report.filled < largest earlier then lastPriced earlier
      else some (report.filled, avg)
    | none => lastPriced earlier

theorem lastPriced_cons (report : WorkingOrder) (earlier : List WorkingOrder) :
    lastPriced (report :: earlier) = report.pricedAt.elim (lastPriced earlier) fun avg =>
      if report.filled < largest earlier then lastPriced earlier else some (report.filled, avg) := by
  rw [lastPriced]
  cases report.pricedAt with
  | none => rfl
  | some avg => rfl

/-- What the reports on one order say, the latest first. -/
def tallyOf (reports : List WorkingOrder) : Tally :=
  match lastPriced reports with
  | some (filled, avg) => ⟨largest reports, largest reports - filled, avg * filled⟩
  | none => ⟨largest reports, largest reports, 0⟩

def reportsOn (orderId : String) (history : List WorkingOrder) : List WorkingOrder :=
  history.filter fun report => report.orderId = orderId

/-- The orders that were reported on, each once. -/
def reportedOrders (history : List WorkingOrder) : List String :=
  (history.map WorkingOrder.orderId).dedup

/-- The sum of the tallies of some orders. -/
def tallies (history : List WorkingOrder) : List String → Tally
  | [] => .zero
  | orderId :: orderIds => (tallyOf (reportsOn orderId history)).plus (tallies history orderIds)

/-- **What a side should hold**: the sum over the orders that were reported on. -/
def reportedTotal (history : List WorkingOrder) : Tally :=
  tallies history (reportedOrders history)

/-- Each report is on the order of the one before it, or on an order no report was on. The latest
report comes first. -/
def Contiguous : List WorkingOrder → Prop
  | [] => True
  | report :: earlier =>
    (earlier.head?.map WorkingOrder.orderId = some report.orderId ∨
      ∀ other ∈ earlier, other.orderId ≠ report.orderId) ∧ Contiguous earlier

/-! ## Tallies of a history -/

theorem largest_nonneg (reports : List WorkingOrder) : 0 ≤ largest reports := by
  induction reports with
  | nil => exact le_rfl
  | cons report earlier ih => exact ih.trans (le_max_right _ _)

theorem positive_of_pricedAt {report : WorkingOrder} {avg : ℚ}
    (priced : report.pricedAt = some avg) : 0 < report.filled := by
  rw [WorkingOrder.pricedAt] at priced
  split at priced
  case h_1 => exact (Option.ite_none_right_eq_some.mp priced).1.1
  case h_2 => cases priced
  case h_3 => cases priced

theorem of_lastPriced {reports : List WorkingOrder} {filled : ℤ} {avg : ℚ}
    (isLast : lastPriced reports = some (filled, avg)) : 0 < filled ∧ filled ≤ largest reports := by
  induction reports with
  | nil => cases isLast
  | cons report earlier ih =>
    rw [lastPriced_cons] at isLast
    cases isPriced : report.pricedAt with
    | some priced =>
      rw [isPriced, Option.elim_some] at isLast
      split at isLast
      case isTrue => exact ⟨(ih isLast).1, (ih isLast).2.trans (le_max_right _ _)⟩
      case isFalse fresh =>
        cases isLast
        exact ⟨positive_of_pricedAt isPriced, le_max_left _ _⟩
    | none =>
      rw [isPriced, Option.elim_none] at isLast
      exact ⟨(ih isLast).1, (ih isLast).2.trans (le_max_right _ _)⟩

theorem tallyOf_nil : tallyOf [] = .zero :=
  rfl

theorem tallyOf_filled (reports : List WorkingOrder) :
    (tallyOf reports).filled = largest reports := by
  rw [tallyOf]
  split <;> rfl

theorem valid_tallyOf (reports : List WorkingOrder) : (tallyOf reports).Valid := by
  rw [tallyOf]
  split
  case h_1 filled avg isLast =>
    obtain ⟨positive, le⟩ := of_lastPriced isLast
    refine ⟨by dsimp only; omega, by dsimp only; omega, ?_⟩
    intro same
    dsimp only at same
    omega
  case h_2 => exact ⟨largest_nonneg reports, le_rfl, fun _ => rfl⟩

section Report

variable {report : WorkingOrder} {earlier : List WorkingOrder}

theorem lastPriced_stale (stale : report.filled < largest earlier) :
    lastPriced (report :: earlier) = lastPriced earlier := by
  rw [lastPriced_cons]
  cases report.pricedAt with
  | none => rfl
  | some avg => exact if_pos stale

theorem lastPriced_priced {avg : ℚ} (fresh : largest earlier ≤ report.filled)
    (priced : report.pricedAt = some avg) :
    lastPriced (report :: earlier) = some (report.filled, avg) := by
  rw [lastPriced_cons, priced]
  exact if_neg (not_lt.mpr fresh)

theorem lastPriced_unpriced (unpriced : report.pricedAt = none) :
    lastPriced (report :: earlier) = lastPriced earlier := by
  rw [lastPriced_cons, unpriced]
  rfl

theorem tallyOf_stale (stale : report.filled < largest earlier) :
    tallyOf (report :: earlier) = tallyOf earlier := by
  rw [tallyOf, tallyOf, lastPriced_stale stale, largest, max_eq_right stale.le]

theorem tallyOf_priced {avg : ℚ} (fresh : largest earlier ≤ report.filled)
    (priced : report.pricedAt = some avg) :
    tallyOf (report :: earlier) = ⟨report.filled, 0, avg * report.filled⟩ := by
  rw [tallyOf, lastPriced_priced fresh priced, largest, max_eq_left fresh]
  simp

theorem tallyOf_unpriced (fresh : largest earlier ≤ report.filled)
    (unpriced : report.pricedAt = none) :
    tallyOf (report :: earlier) =
      ⟨report.filled, (tallyOf earlier).unpriced + (report.filled - largest earlier),
        (tallyOf earlier).notional⟩ := by
  rw [tallyOf, tallyOf, lastPriced_unpriced unpriced, largest, max_eq_left fresh]
  split
  case h_1 filled avg isLast =>
    simp only [Tally.mk.injEq, true_and, and_true]
    omega
  case h_2 =>
    simp only [Tally.mk.injEq, true_and, and_true]
    omega

end Report

section Histories

variable {history : List WorkingOrder} {report : WorkingOrder} {orderId : String}

theorem reportsOn_cons_same (report : WorkingOrder) (history : List WorkingOrder) :
    reportsOn report.orderId (report :: history) = report :: reportsOn report.orderId history := by
  simp [reportsOn]

theorem reportsOn_cons_other (other : orderId ≠ report.orderId) :
    reportsOn orderId (report :: history) = reportsOn orderId history := by
  simp [reportsOn, Ne.symm other]

theorem reportsOn_eq_nil (fresh : ∀ other ∈ history, other.orderId ≠ orderId) :
    reportsOn orderId history = [] := by
  rw [reportsOn, List.filter_eq_nil_iff]
  intro other inside same
  exact fresh other inside (of_decide_eq_true same)

theorem valid_tallies (history : List WorkingOrder) (orderIds : List String) :
    (tallies history orderIds).Valid := by
  induction orderIds with
  | nil => exact Tally.valid_zero
  | cons orderId orderIds ih => exact (valid_tallyOf _).plus ih

theorem tallies_cons {orderIds : List String} (others : report.orderId ∉ orderIds) :
    tallies (report :: history) orderIds = tallies history orderIds := by
  induction orderIds with
  | nil => rfl
  | cons orderId orderIds ih =>
    obtain ⟨other, rest⟩ := not_or.mp (List.mem_cons.not.mp others)
    rw [tallies, tallies, reportsOn_cons_other (Ne.symm other), ih rest]

theorem tallies_split {orderIds : List String} (distinct : orderIds.Nodup)
    (member : orderId ∈ orderIds) :
    tallies history orderIds = (tallyOf (reportsOn orderId history)).plus
      (tallies history (orderIds.filter (· ≠ orderId))) := by
  induction orderIds with
  | nil => cases member
  | cons first rest ih =>
    obtain ⟨fresh, distinct⟩ := List.nodup_cons.mp distinct
    by_cases same : first = orderId
    · subst same
      have absent : rest.filter (· ≠ first) = rest :=
        List.filter_eq_self.mpr fun other inside =>
          decide_eq_true fun equal => fresh (equal ▸ inside)
      rw [List.filter_cons_of_neg (by simp), absent, tallies]
    · have later := (List.mem_cons.mp member).resolve_left (Ne.symm same)
      rw [List.filter_cons_of_pos (by simpa using same), tallies, tallies, ih distinct later,
        Tally.plus_left_comm]

def othersTotal (orderId : String) (history : List WorkingOrder) : Tally :=
  tallies history ((reportedOrders history).filter (· ≠ orderId))

/-- **The total is the tally of an order and that of the others**, whether it was reported
on or not. -/
theorem reportedTotal_split (orderId : String) (history : List WorkingOrder) :
    reportedTotal history =
      (tallyOf (reportsOn orderId history)).plus (othersTotal orderId history) := by
  rw [reportedTotal, othersTotal]
  by_cases member : orderId ∈ reportedOrders history
  · exact tallies_split (List.nodup_dedup _) member
  · have fresh : ∀ other ∈ history, other.orderId ≠ orderId := by
      intro other inside same
      exact member (List.mem_dedup.mpr (same ▸ List.mem_map_of_mem inside))
    have absent : (reportedOrders history).filter (· ≠ orderId) = reportedOrders history :=
      List.filter_eq_self.mpr fun other inside =>
        decide_eq_true fun equal => member (equal ▸ inside)
    rw [reportsOn_eq_nil fresh, tallyOf_nil, Tally.zero_plus, absent]

theorem othersTotal_cons (report : WorkingOrder) (history : List WorkingOrder) :
    othersTotal report.orderId (report :: history) = othersTotal report.orderId history := by
  have orders : (reportedOrders (report :: history)).filter (· ≠ report.orderId) =
      (reportedOrders history).filter (· ≠ report.orderId) := by
    rw [reportedOrders, List.map_cons, List.dedup_cons]
    split
    case isTrue => rfl
    case isFalse => rw [List.filter_cons_of_neg (by simp), reportedOrders]
  rw [othersTotal, othersTotal, orders]
  apply tallies_cons
  intro inside
  simpa using (List.mem_filter.mp inside).2

end Histories

/-! ## The quantities -/

/-- A side whose checkpoint is that of an order holds what all orders filled. -/
structure Counts (round : ℚ → ℚ) (lane : Lane) (orderId : String) (history : List WorkingOrder) :
    Prop where
  order : lane.order = some orderId
  seen : lane.orderSeen = largest (reportsOn orderId history)
  notional : lane.orderNotional =
    (lastPriced (reportsOn orderId history)).map fun last => round (last.2 * last.1)
  orderUnpriced : lane.orderUnpriced = (tallyOf (reportsOn orderId history)).unpriced
  filled : lane.filledQty = (reportedTotal history).filled
  unpriced : lane.unpricedQty = (reportedTotal history).unpriced
  unpriced_of_none : lane.fill = none →
    (reportedTotal history).filled = (reportedTotal history).unpriced

/-- The average of a side is that of what is priced. -/
def Averages (lane : Lane) (history : List WorkingOrder) : Prop :=
  lane.fill.getD 0 * (lane.filledQty - lane.unpricedQty) = (reportedTotal history).notional

section Steps

variable {round : ℚ → ℚ} {lane : Lane} {orderId : String} {history : List WorkingOrder}
  {report : WorkingOrder}

theorem adopt_of_order (ofOrder : lane.order = some orderId) : lane.adopt orderId = lane := by
  rw [Lane.adopt, if_pos ofOrder]

/-- The checkpoint moves to an order that no report was on. -/
theorem Counts.adopt_fresh {orderId' : String} (counts : Counts round lane orderId history)
    (fresh : ∀ other ∈ history, other.orderId ≠ orderId') (switches : lane.order ≠ some orderId') :
    Counts round (lane.adopt orderId') orderId' history := by
  rw [Lane.adopt, if_neg switches]
  have nothing := reportsOn_eq_nil fresh
  refine ⟨rfl, ?_, ?_, ?_, counts.filled, counts.unpriced, counts.unpriced_of_none⟩
  · rw [nothing]
    rfl
  · rw [nothing]
    rfl
  · rw [nothing]
    rfl

/-- A fresh side holds nothing. -/
theorem counts_fresh (orderId : String) : Counts round (({} : Lane).adopt orderId) orderId [] :=
  ⟨rfl, rfl, rfl, rfl, rfl, rfl, fun _ => rfl⟩

theorem reportedTotal_before (report : WorkingOrder) (history : List WorkingOrder) :
    reportedTotal history = (tallyOf (reportsOn report.orderId history)).plus
      (othersTotal report.orderId history) :=
  reportedTotal_split report.orderId history

theorem reportedTotal_after (report : WorkingOrder) (history : List WorkingOrder) :
    reportedTotal (report :: history) =
      (tallyOf (report :: reportsOn report.orderId history)).plus
        (othersTotal report.orderId history) := by
  rw [reportedTotal_split report.orderId, reportsOn_cons_same, othersTotal_cons]

/-- **The blend divides by the packages that are priced**, of which there are some. In exact
arithmetic it puts the fills of the report beside what the others cost. -/
theorem Counts.blend (counts : Counts round lane report.orderId history)
    (positive : 0 < report.filled) (cumulative : ℚ) :
    ∃ fill, lane.blendWith round report.filled cumulative = .ok fill ∧
      ((∀ x, round x = x) → Averages lane history →
        fill * ((othersTotal report.orderId history).filled -
            (othersTotal report.orderId history).unpriced + report.filled) =
          (othersTotal report.orderId history).notional + cumulative) := by
  have own := valid_tallyOf (reportsOn report.orderId history)
  have others : (othersTotal report.orderId history).Valid := valid_tallies _ _
  have ownPriced := own.unpriced_le
  have othersPriced := others.unpriced_le
  have total := reportedTotal_before report history
  have filled : lane.filledQty = _ := counts.filled.trans (congrArg Tally.filled total)
  have unpriced : lane.unpricedQty = _ := counts.unpriced.trans (congrArg Tally.unpriced total)
  have seen : lane.orderSeen = (tallyOf (reportsOn report.orderId history)).filled :=
    counts.seen.trans (tallyOf_filled _).symm
  have orderUnpriced := counts.orderUnpriced
  simp only [Tally.plus] at filled unpriced
  set mine := tallyOf (reportsOn report.orderId history) with isMine
  set rest := othersTotal report.orderId history
  have nonzero : (rest.filled - rest.unpriced + report.filled : ℚ) ≠ 0 := by
    have some : 0 < rest.filled - rest.unpriced + report.filled := by omega
    exact_mod_cast some.ne'
  cases isFill : lane.fill with
  | none =>
    have nothing := counts.unpriced_of_none isFill
    rw [total] at nothing
    simp only [Tally.plus] at nothing
    have same : rest.filled = rest.unpriced := by omega
    have denominator : ((0 + report.filled : ℤ) : ℚ) ≠ 0 := by
      rw [zero_add]
      exact_mod_cast positive.ne'
    refine ⟨round (round (0 + cumulative) / (0 + report.filled : ℤ)), ?_, ?_⟩
    · simp only [Lane.blendWith, isFill, Option.isSome_none, Bool.false_eq_true, if_false,
        if_neg denominator, orRaise]
    · intro isExact _
      rw [isExact, isExact, others.notional_eq same, same]
      rw [zero_add] at denominator
      rw [zero_add, zero_add, sub_self, zero_add]
      exact div_mul_cancel₀ _ denominator
  | some fill =>
    have apart : lane.filledQty - lane.unpricedQty - (lane.orderSeen - lane.orderUnpriced) =
        rest.filled - rest.unpriced := by
      omega
    have denominator : ((rest.filled - rest.unpriced + report.filled : ℤ) : ℚ) ≠ 0 := by
      exact_mod_cast nonzero
    refine ⟨round (round ((if rest.filled - rest.unpriced ≠ 0 then
        round (round (fill * (lane.filledQty - lane.unpricedQty : ℤ)) -
          lane.orderNotional.getD 0) else 0) + cumulative) /
        (rest.filled - rest.unpriced + report.filled : ℤ)), ?_, ?_⟩
    · simp only [Lane.blendWith, isFill, Option.isSome_some, if_true, apart,
        if_neg denominator, orRaise]
    · intro isExact averages
      rw [Averages, isFill, Option.getD_some, total] at averages
      have mineNotional : lane.orderNotional.getD 0 = mine.notional := by
        rw [counts.notional, isMine, tallyOf]
        cases lastPriced (reportsOn report.orderId history) with
        | none => rfl
        | some last => exact isExact _
      have othersNotional : (if rest.filled - rest.unpriced ≠ 0 then
          round (round (fill * (lane.filledQty - lane.unpricedQty : ℤ)) -
            lane.orderNotional.getD 0) else 0) = rest.notional := by
        by_cases priced : rest.filled - rest.unpriced = 0
        · rw [if_neg (not_not.mpr priced), others.notional_eq (by omega)]
        · rw [if_pos priced, isExact, isExact, mineNotional, Int.cast_sub, averages, Tally.plus]
          ring
      rw [isExact, isExact, othersNotional]
      push_cast
      exact div_mul_cancel₀ _ nonzero

theorem Counts.unchanged (counts : Counts round lane report.orderId history)
    (tally : tallyOf (report :: reportsOn report.orderId history) =
      tallyOf (reportsOn report.orderId history))
    (notional : lane.orderNotional =
      (lastPriced (report :: reportsOn report.orderId history)).map
        fun last => round (last.2 * last.1)) :
    Counts round lane report.orderId (report :: history) := by
  have total : reportedTotal (report :: history) = reportedTotal history := by
    rw [reportedTotal_after, tally, ← reportedTotal_before]
  have seen : lane.orderSeen = largest (report :: reportsOn report.orderId history) := by
    rw [← tallyOf_filled, tally, tallyOf_filled]
    exact counts.seen
  refine ⟨counts.order, ?_, ?_, ?_, ?_, ?_, ?_⟩
  · rw [reportsOn_cons_same]
    exact seen
  · rw [reportsOn_cons_same]
    exact notional
  · rw [reportsOn_cons_same, tally]
    exact counts.orderUnpriced
  · rw [total]
    exact counts.filled
  · rw [total]
    exact counts.unpriced
  · rw [total]
    exact counts.unpriced_of_none

theorem Averages.unchanged (averages : Averages lane history)
    (tally : (tallyOf (report :: reportsOn report.orderId history)).notional =
      (tallyOf (reportsOn report.orderId history)).notional) :
    Averages lane (report :: history) := by
  rw [Averages, reportedTotal_after, Tally.plus, tally]
  rw [Averages, reportedTotal_before report, Tally.plus] at averages
  exact averages

section

variable (counts : Counts round lane report.orderId history)

include counts

theorem Counts.filled_next (tally : (tallyOf (report :: reportsOn report.orderId history)).filled =
      report.filled) :
    lane.filledQty + (report.filled - lane.orderSeen) =
      (reportedTotal (report :: history)).filled := by
  have ownFilled := tallyOf_filled (reportsOn report.orderId history)
  rw [counts.filled, reportedTotal_before report history, reportedTotal_after, counts.seen]
  simp only [Tally.plus, ownFilled, tally]
  omega

theorem Counts.recordUnpriced (fresh : largest (reportsOn report.orderId history) ≤ report.filled)
    (unpriced : report.pricedAt = none) :
    Counts round (lane.recordUnpriced report.filled).1 report.orderId (report :: history) ∧
      (Averages lane history →
        Averages (lane.recordUnpriced report.filled).1 (report :: history)) := by
  have last : lastPriced (report :: reportsOn report.orderId history) =
      lastPriced (reportsOn report.orderId history) := lastPriced_unpriced unpriced
  have tally := tallyOf_unpriced fresh unpriced
  have seen := counts.seen
  rw [Lane.recordUnpriced]
  by_cases repeated : report.filled - lane.orderSeen = 0
  case pos =>
    rw [if_pos repeated]
    have same : report.filled = largest (reportsOn report.orderId history) := by omega
    have kept : tallyOf (report :: reportsOn report.orderId history) =
        tallyOf (reportsOn report.orderId history) := by
      rw [tally, same, sub_self, add_zero, ← tallyOf_filled]
    refine ⟨counts.unchanged kept ?_, fun averages => averages.unchanged (by rw [kept])⟩
    rw [last]
    exact counts.notional
  case neg =>
    rw [if_neg repeated]
    have total := reportedTotal_before report history
    have after := reportedTotal_after report history
    rw [tally] at after
    have isFilled := counts.filled_next (by rw [tally])
    have isUnpriced : lane.unpricedQty + (report.filled - lane.orderSeen) =
        (reportedTotal (report :: history)).unpriced := by
      rw [counts.unpriced, total, after, seen]
      simp only [Tally.plus]
      omega
    refine ⟨⟨counts.order, ?_, ?_, ?_, isFilled, isUnpriced, ?_⟩, ?_⟩
    · rw [reportsOn_cons_same, largest, max_eq_left fresh]
    · rw [reportsOn_cons_same, last]
      exact counts.notional
    · rw [reportsOn_cons_same, tally]
      simp only [counts.orderUnpriced, seen]
    · intro none
      have nothing := counts.unpriced_of_none none
      rw [← isFilled, ← isUnpriced]
      rw [← counts.filled, ← counts.unpriced] at nothing
      omega
    · intro averages
      rw [Averages, total, Tally.plus] at averages
      rw [Averages, after, Tally.plus, ← averages]
      push_cast
      ring

/-- **A report with a price replaces what the side held for its order.** -/
theorem Counts.recordPriced {avg : ℚ}
    (fresh : largest (reportsOn report.orderId history) ≤ report.filled)
    (priced : report.pricedAt = some avg) (positive : 0 < report.filled) :
    ∃ after new, lane.recordPricedWith round report.filled avg = .ok (after, new) ∧
      Counts round after report.orderId (report :: history) ∧
      ((∀ x, round x = x) → Averages lane history → Averages after (report :: history)) := by
  have last := lastPriced_priced fresh priced
  have tally := tallyOf_priced fresh priced
  have seen := counts.seen
  rw [Lane.recordPricedWith]
  by_cases repeated : report.filled - lane.orderSeen = 0 ∧ lane.orderUnpriced = 0 ∧
      lane.orderNotional = some (round (avg * report.filled))
  case pos =>
    rw [if_pos repeated]
    obtain ⟨noNew, allPriced, same⟩ := repeated
    have isFilled : (tallyOf (reportsOn report.orderId history)).filled = report.filled := by
      rw [tallyOf_filled]
      omega
    have isUnpriced : (tallyOf (reportsOn report.orderId history)).unpriced = 0 :=
      counts.orderUnpriced.symm.trans allPriced
    have total : (reportedTotal (report :: history)).filled = (reportedTotal history).filled ∧
        (reportedTotal (report :: history)).unpriced = (reportedTotal history).unpriced := by
      rw [reportedTotal_after, reportedTotal_before report history, tally]
      simp [Tally.plus, isFilled, isUnpriced]
    refine ⟨lane, 0, rfl, ⟨counts.order, ?_, ?_, ?_, ?_, ?_, ?_⟩, ?_⟩
    · rw [reportsOn_cons_same, largest, max_eq_left fresh]
      omega
    · rw [reportsOn_cons_same, last]
      exact same
    · rw [reportsOn_cons_same, tally]
      exact allPriced
    · rw [total.1]
      exact counts.filled
    · rw [total.2]
      exact counts.unpriced
    · rw [total.1, total.2]
      exact counts.unpriced_of_none
    · intro isExact averages
      apply averages.unchanged
      -- the same notional, from the same average over the same fills
      have notional := counts.notional.symm.trans same
      rw [tally, tallyOf]
      cases isLast : lastPriced (reportsOn report.orderId history) with
      | none =>
        rw [isLast] at notional
        cases notional
      | some before =>
        rw [isLast, Option.map_some, isExact, isExact] at notional
        exact (Option.some.inj notional).symm
  case neg =>
    rw [if_neg repeated]
    obtain ⟨fill, isFill, blended⟩ := counts.blend positive (round (avg * report.filled))
    have total := reportedTotal_before report history
    have after := reportedTotal_after report history
    rw [tally] at after
    have isFilled := counts.filled_next (by rw [tally])
    have isUnpriced : lane.unpricedQty - lane.orderUnpriced =
        (reportedTotal (report :: history)).unpriced := by
      rw [counts.unpriced, counts.orderUnpriced, total, after]
      simp only [Tally.plus]
      omega
    refine ⟨_, _, Checked.bind_eq_ok.mpr ⟨fill, isFill, rfl⟩,
      ⟨counts.order, ?_, ?_, ?_, isFilled, isUnpriced, ?_⟩, ?_⟩
    · rw [reportsOn_cons_same, largest, max_eq_left fresh]
    · rw [reportsOn_cons_same, last]
      rfl
    · rw [reportsOn_cons_same, tally]
    · intro none
      cases none
    · intro isExact averages
      have value := blended isExact averages
      rw [isExact] at value
      rw [Averages]
      simp only [isFilled, isUnpriced, Option.getD_some]
      rw [after]
      simp only [Tally.plus]
      rw [add_comm (avg * (report.filled : ℚ)), ← value]
      push_cast
      ring

/-- **One report.** The drain returns, and the side holds what the reports say. -/
theorem Counts.drain :
    ∃ after new, lane.drainWith round report = .ok (after, new) ∧
      Counts round after report.orderId (report :: history) ∧
      ((∀ x, round x = x) → Averages lane history → Averages after (report :: history)) := by
  rw [Lane.drainWith, adopt_of_order counts.order]
  by_cases stale : report.filled < lane.orderSeen
  case pos =>
    rw [counts.seen] at stale
    refine ⟨lane, 0, ?_, counts.unchanged (tallyOf_stale stale) ?_, ?_⟩
    · rw [counts.seen]
      exact if_pos stale
    · rw [lastPriced_stale stale]
      exact counts.notional
    · exact fun _ averages => averages.unchanged (congrArg Tally.notional (tallyOf_stale stale))
  case neg =>
    simp only [if_neg stale, Lane.recordWith]
    rw [counts.seen, not_lt] at stale
    cases priced : report.pricedAt with
    | some avg => exact counts.recordPriced stale priced (positive_of_pricedAt priced)
    | none =>
      obtain ⟨after, averaged⟩ := counts.recordUnpriced stale priced
      exact ⟨_, _, rfl, after, fun _ => averaged⟩

end

/-- **The last report again changes nothing.** -/
theorem Counts.replay (counts : Counts round lane report.orderId (report :: history)) :
    lane.drainWith round report = .ok (lane, 0) := by
  have seen := counts.seen
  have orderUnpriced := counts.orderUnpriced
  have notional := counts.notional
  rw [reportsOn_cons_same] at seen orderUnpriced notional
  rw [Lane.drainWith, adopt_of_order counts.order]
  by_cases stale : report.filled < lane.orderSeen
  case pos => exact if_pos stale
  case neg =>
    rw [largest] at seen
    have fresh : largest (reportsOn report.orderId history) ≤ report.filled := by omega
    have noNew : report.filled - lane.orderSeen = 0 := by omega
    simp only [if_neg stale, Lane.recordWith]
    cases priced : report.pricedAt with
    | some avg =>
      rw [tallyOf_priced fresh priced] at orderUnpriced
      rw [lastPriced_priced fresh priced] at notional
      exact if_pos ⟨noNew, orderUnpriced, notional⟩
    | none =>
      simp only [Lane.recordUnpriced]
      rw [if_pos noNew]

end Steps

/-! ## A run of reports -/

/-- The book after some reports, the latest first, from a fresh one. -/
def afterReports (merge : StructureState → WorkingOrder → Except EngineError (StructureState × ℤ)) :
    List WorkingOrder → Except EngineError StructureState
  | [] => .ok {}
  | report :: earlier => do
      let st ← afterReports merge earlier
      let (after, _) ← merge st report
      return after

/-- The side of a book that a role works on. -/
def StructureState.side (st : StructureState) : Role → Lane
  | .entry => st.entry
  | .exit => st.exit

/-- A side holds the fills that were reported, and counts those without a price. -/
structure Recorded (lane : Lane) (history : List WorkingOrder) : Prop where
  filled : lane.filledQty = (reportedTotal history).filled
  unpriced : lane.unpricedQty = (reportedTotal history).unpriced

/-- The last of some reports, merged again, leaves a book as it is. -/
def Settled (merge : StructureState → WorkingOrder → Except EngineError (StructureState × ℤ))
    (st : StructureState) (history : List WorkingOrder) : Prop :=
  ∀ report, history.head? = some report → merge st report = .ok (st, 0)

/-- What a run keeps: nothing before the first report, then the counts of the order of the last
one. -/
def Kept (round : ℚ → ℚ) (lane : Lane) : List WorkingOrder → Prop
  | [] => lane = {}
  | report :: earlier => Counts round lane report.orderId (report :: earlier)

section Runs

variable {round : ℚ → ℚ} {role : Role} {history : List WorkingOrder}

theorem drainWith_side {st : StructureState} {report : WorkingOrder} (sided : report.role = role)
    {after : Lane} {new : ℤ} (drained : (st.side role).drainWith round report = .ok (after, new)) :
    ∃ st', drainWith round st report = .ok (st', new) ∧ st'.side role = after ∧
      (after = st.side role → st' = st) := by
  subst sided
  cases isRole : report.role with
  | entry =>
    rw [isRole] at drained
    refine ⟨{ st with entry := after }, ?_, rfl, ?_⟩
    · rw [drainWith, isRole]
      exact Checked.bind_eq_ok.mpr ⟨(after, new), drained, rfl⟩
    · rintro rfl
      rfl
  | exit =>
    rw [isRole] at drained
    refine ⟨{ st with exit := after }, ?_, rfl, ?_⟩
    · rw [drainWith, isRole]
      exact Checked.bind_eq_ok.mpr ⟨(after, new), drained, rfl⟩
    · rintro rfl
      rfl

theorem counts_adopt {lane : Lane} {report : WorkingOrder} (kept : Kept round lane history)
    (contiguous : Contiguous (report :: history)) :
    Counts round (lane.adopt report.orderId) report.orderId history := by
  cases history with
  | nil =>
    obtain rfl : lane = {} := kept
    exact counts_fresh report.orderId
  | cons before earlier =>
    have counts : Counts round lane before.orderId (before :: earlier) := kept
    rcases contiguous.1 with same | fresh
    · have isSame : before.orderId = report.orderId := Option.some.inj same
      rw [isSame] at counts
      rw [adopt_of_order counts.order]
      exact counts
    · refine counts.adopt_fresh fresh ?_
      rw [counts.order]
      exact fun same => fresh before List.mem_cons_self (Option.some.inj same)

theorem adopt_adopt (lane : Lane) (orderId : String) :
    (lane.adopt orderId).adopt orderId = lane.adopt orderId := by
  apply adopt_of_order
  rw [Lane.adopt]
  split
  case isTrue same => exact same
  case isFalse => rfl

/-- The first thing a drain does is to move the checkpoint. -/
theorem drainWith_adopt (lane : Lane) (report : WorkingOrder) :
    (lane.adopt report.orderId).drainWith round report = lane.drainWith round report := by
  rw [Lane.drainWith, Lane.drainWith, adopt_adopt]

theorem averages_adopt {lane : Lane} {report : WorkingOrder} (averages : Averages lane history) :
    Averages (lane.adopt report.orderId) history := by
  rw [Lane.adopt]
  split
  case isTrue => exact averages
  case isFalse => exact averages

/-- **Every run of contiguous reports on one side keeps the counts.** -/
theorem kept_afterReports (sided : ∀ report ∈ history, report.role = role)
    (contiguous : Contiguous history) :
    ∃ st, afterReports (drainWith round) history = .ok st ∧ Kept round (st.side role) history ∧
      ((∀ x, round x = x) → Averages (st.side role) history) := by
  induction history with
  | nil =>
    refine ⟨{}, rfl, ?_, fun _ => ?_⟩
    · cases role <;> rfl
    · cases role <;> simp [Averages, StructureState.side, reportedTotal, reportedOrders, tallies,
        Tally.zero]
  | cons report earlier ih =>
    obtain ⟨st, ran, kept, averages⟩ :=
      ih (List.forall_mem_cons.mp sided).2 contiguous.2
    obtain ⟨after, new, drained, counts, averaged⟩ := (counts_adopt kept contiguous).drain
    rw [drainWith_adopt] at drained
    obtain ⟨st', merged, isAfter, -⟩ :=
      drainWith_side (sided report List.mem_cons_self) drained
    refine ⟨st', ?_, ?_, ?_⟩
    · exact Checked.bind_eq_ok.mpr ⟨st, ran, Checked.bind_eq_ok.mpr ⟨(st', new), merged, rfl⟩⟩
    · rw [isAfter]
      exact counts
    · intro isExact
      rw [isAfter]
      exact averaged isExact (averages_adopt (averages isExact))

theorem Kept.recorded {lane : Lane} (kept : Kept round lane history) : Recorded lane history := by
  cases history with
  | nil =>
    obtain rfl : lane = {} := kept
    exact ⟨rfl, rfl⟩
  | cons report earlier =>
    have counts : Counts round lane report.orderId (report :: earlier) := kept
    exact ⟨counts.filled, counts.unpriced⟩

theorem settled_of_kept {st : StructureState} (sided : ∀ report ∈ history, report.role = role)
    (kept : Kept round (st.side role) history) : Settled (drainWith round) st history := by
  intro report isLast
  cases history with
  | nil => cases isLast
  | cons last earlier =>
    cases isLast
    have counts : Counts round (st.side role) report.orderId (report :: earlier) := kept
    obtain ⟨st', merged, -, same⟩ :=
      drainWith_side (sided report List.mem_cons_self) counts.replay
    rw [same rfl] at merged
    exact merged

/-- A run only depends on what each report does. -/
theorem afterReports_congr
    {merge merge' : StructureState → WorkingOrder → Except EngineError (StructureState × ℤ)}
    (same : ∀ st report, merge st report = merge' st report) (history : List WorkingOrder) :
    afterReports merge history = afterReports merge' history := by
  induction history with
  | nil => rfl
  | cons report earlier ih => simp only [afterReports, ih, same]

end Runs

/-- **Draining reconciles quantity and price exactly.** The first half is about the drain of the
source. The second adds the average, in exact arithmetic. -/
theorem drain_reconciles (role : Role) (history : List WorkingOrder)
    (sided : ∀ report ∈ history, report.role = role) (contiguous : Contiguous history) :
    (∃ st, afterReports drain history = .ok st ∧ Recorded (st.side role) history ∧
        Settled drain st history) ∧
      ∃ st, afterReports (drainWith id) history = .ok st ∧ Recorded (st.side role) history ∧
        Settled (drainWith id) st history ∧ Averages (st.side role) history := by
  constructor
  · obtain ⟨st, ran, kept, -⟩ : ∃ st, afterReports (drainWith roundContext) history = .ok st ∧
        Kept roundContext (st.side role) history ∧ _ := kept_afterReports sided contiguous
    refine ⟨st, ?_, kept.recorded, ?_⟩
    · rw [← ran]
      exact afterReports_congr (fun st report => (drainWith_context st report).symm) history
    · intro report isLast
      rw [← drainWith_context]
      exact settled_of_kept sided kept report isLast
  · obtain ⟨st, ran, kept, averages⟩ : ∃ st, afterReports (drainWith id) history = .ok st ∧
        Kept id (st.side role) history ∧ _ := kept_afterReports sided contiguous
    exact ⟨st, ran, kept.recorded, settled_of_kept sided kept, averages fun _ => rfl⟩

/-- Two packages of an order before their price, the price, a stale report, and another order. -/
def sampleReports : List WorkingOrder :=
  [⟨.entry, 3, .finite (101 / 100), "2"⟩, ⟨.entry, 1, .finite 5, "1"⟩, ⟨.entry, 2, .finite 1, "1"⟩,
    ⟨.entry, 2, .nan, "1"⟩]

/-- Five packages at 1.006 in all. -/
theorem drain_reconciles_sample :
    (∃ st, afterReports drain sampleReports = .ok st ∧ Recorded (st.side .entry) sampleReports ∧
        Settled drain st sampleReports) ∧
      ∃ st, afterReports (drainWith id) sampleReports = .ok st ∧
        Recorded (st.side .entry) sampleReports ∧ Settled (drainWith id) st sampleReports ∧
        Averages (st.side .entry) sampleReports :=
  drain_reconciles .entry sampleReports (by decide) (by simp [Contiguous, sampleReports])

end TreeOptions.Trex
