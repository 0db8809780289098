import TreeOptions.Trex.DefinedRisk
import TreeOptions.Trex.Engine

/-!
# The engine proposes what the risk gate accepts

`validatePackageOrder` and the engine's price ladders are written apart. Every order of
an action of the engine passes the gate (`InsideGate`): an entry asks for what the
structure still lacks, a close for what is held, and the price is within the cap, the
floor or the width, whatever the quote, the escalation and the reason.

The book that is decided on has to hold no more packages than the structure has. `step`
decides on the drained book, so it is the drained book that this is asked of
(`insideGate`): where the report of a second order fills the structure once more, the
engine closes all that was filled, which is more than the gate lets through
(`closes_more_than_quantity`).
-/

set_option autoImplicit false

namespace TreeOptions.Trex

open Checked Decimal

/-! ## What the engine promises -/

/-- A book that counts no negative fills and no more entries than the structure has. -/
structure Counted (spec : StructureFields) (st : StructureState) : Prop where
  entries : 0 ≤ st.filledQty
  exits : 0 ≤ st.exitFilledQty
  quantity : st.filledQty ≤ spec.quantity

/-- A book that in addition closes no more than it opened. -/
structure Bounded (spec : StructureFields) (st : StructureState) : Prop where
  exits : 0 ≤ st.exitFilledQty
  held : st.exitFilledQty ≤ st.filledQty
  quantity : st.filledQty ≤ spec.quantity

theorem Bounded.counted {spec : StructureFields} {st : StructureState}
    (bounded : Bounded spec st) : Counted spec st :=
  ⟨bounded.exits.trans bounded.held, bounded.exits, bounded.quantity⟩

/-- An entry asks for what the structure lacks, at a price within the cap or the floor,
and the gate accepts it. -/
structure EntryInside (spec : StructureFields) (st : StructureState) (side : Action) (qty : ℤ)
    (limit : ℚ) : Prop where
  completes : st.filledQty + qty = spec.quantity
  opens : side = spec.openSide
  cap : spec.isCredit = false → limit ≤ spec.limit
  floor : spec.isCredit = true → spec.limit ≤ limit
  accepted : validatePackageOrder spec side.value qty (.finite limit) = .ok ⟨⟩

/-- A close asks for what is held. A price it carries is within the width when it buys,
and the gate accepts it. -/
structure CloseInside (spec : StructureFields) (st : StructureState) (side : Action) (qty : ℤ)
    (limit : Option ℚ) : Prop where
  size : qty = st.openQty
  positive : 0 < qty
  closes : side = spec.closeSide
  width : ∀ price, limit = some price → side = .buy →
    ∃ width, spec.width = some width ∧ price ≤ width
  accepted : ∀ price, limit = some price →
    validatePackageOrder spec side.value qty (.finite price) = .ok ⟨⟩

structure InsideGate (spec : StructureFields) (st : StructureState) (action : DeskAction) :
    Prop where
  entry : ∀ side qty limit, action = .entryOrder side qty limit →
    EntryInside spec st side qty limit
  close : ∀ reason side qty limit, action = .closeOrder reason side qty limit →
    CloseInside spec st side qty limit

theorem insideGate_noAction (spec : StructureFields) (st : StructureState) (reason : String) :
    InsideGate spec st (.noAction reason) := by
  constructor
  · rintro _ _ _ ⟨⟩
  · rintro _ _ _ _ ⟨⟩

theorem insideGate_abortEntry (spec : StructureFields) (st : StructureState) (reason : String) :
    InsideGate spec st (.abortEntry reason) := by
  constructor
  · rintro _ _ _ ⟨⟩
  · rintro _ _ _ _ ⟨⟩

/-! ## Entries -/

theorem orRaise_eq_ok {α : Type} {result : Option α} {value : α} :
    orRaise result = .ok value ↔ result = some value := by
  cases result <;> simp [orRaise]

variable {cfg : EngineConfig} {sessions : List ℤ} {spec : StructureFields}
  {st : StructureState} {snap : Snapshot}

/-- **The entry price is within the cap or the floor.** -/
theorem entryLimit_ok {quote : ComboQuote} {limit : ℚ}
    (priced : entryLimit cfg spec st quote = .ok limit) :
    (spec.isCredit = false → limit ≤ spec.limit) ∧ (spec.isCredit = true → spec.limit ≤ limit) := by
  rw [entryLimit] at priced
  cases credit : spec.isCredit with
  | false =>
    simp only [credit, Bool.false_eq_true, if_false, bind_eq_ok, orRaise_eq_ok] at priced
    obtain ⟨price, -, rounded⟩ := priced
    refine ⟨fun _ => ?_, fun credit => absurd credit (by decide)⟩
    exact (quantizeCents_floor_le rounded).trans (min_le_right _ _)
  | true =>
    simp only [credit, if_true, bind_eq_ok, orRaise_eq_ok] at priced
    obtain ⟨price, -, rounded⟩ := priced
    refine ⟨fun debit => absurd debit (by decide), fun _ => ?_⟩
    exact (le_max_right _ _).trans (le_quantizeCents_ceil rounded)

variable {action : DeskAction}

theorem insideGate_quotedEntry (counted : Counted spec st) {quote : ComboQuote}
    (lacking : 0 < spec.quantity - st.filledQty)
    (decided : quotedEntry cfg spec st (spec.quantity - st.filledQty) quote = .ok action) :
    InsideGate spec st action := by
  obtain ⟨stale, -, decided⟩ := bind_eq_ok.mp decided
  split at decided
  case isTrue =>
    cases decided
    exact insideGate_abortEntry _ _ _
  case isFalse =>
    obtain ⟨limit, priced, done⟩ := bind_eq_ok.mp decided
    cases done
    obtain ⟨cap, floor⟩ := entryLimit_ok priced
    split
    case isTrue => exact insideGate_noAction _ _ _
    case isFalse positive =>
      constructor
      · rintro _ _ _ ⟨⟩
        have most : spec.quantity - st.filledQty ≤ spec.quantity := by
          have := counted.entries
          omega
        exact ⟨by omega, rfl, cap, floor, validatePackageOrder_open.mpr
          ⟨lacking, most, limit, rfl, not_le.mp positive, floor, cap⟩⟩
      · rintro _ _ _ _ ⟨⟩

theorem insideGate_entryOnDate (counted : Counted spec st) {last : ℤ}
    (decided : entryOnDate cfg spec st snap last = .ok action) : InsideGate spec st action := by
  rw [entryOnDate] at decided
  split_ifs at decided with safety after before filled
  · cases decided
    exact insideGate_abortEntry _ _ _
  · cases decided
    exact insideGate_abortEntry _ _ _
  · cases decided
    exact insideGate_noAction _ _ _
  · cases decided
    exact insideGate_noAction _ _ _
  · split at decided
    case h_1 =>
      cases decided
      exact insideGate_noAction _ _ _
    case h_2 quote _ => exact insideGate_quotedEntry counted (not_le.mp filled) decided

theorem insideGate_deskEntry (counted : Counted spec st)
    (decided : deskEntry cfg sessions spec st snap = .ok action) : InsideGate spec st action := by
  rw [deskEntry] at decided
  split_ifs at decided
  · cases decided
    exact insideGate_abortEntry _ _ _
  · cases decided
    exact insideGate_noAction _ _ _
  · obtain ⟨last, -, decided⟩ := bind_eq_ok.mp decided
    exact insideGate_entryOnDate counted decided

/-! ## Closes -/

/-- **The price of a close is positive, and within the width for a credit kind.** -/
theorem deskCloseLimit_ok (shaped : spec.shape = .ok ⟨⟩) {force : Bool} {quote : ComboQuote}
    {limit : ℚ} (priced : deskCloseLimit cfg spec st force quote = .ok limit) :
    0 < limit ∧
      (spec.isCredit = true → ∃ width, spec.width = some width ∧ limit ≤ width) := by
  have tick_pos : 0 < tick := by norm_num [tick]
  rw [deskCloseLimit] at priced
  split_ifs at priced with side
  · have debit : spec.isCredit = false := by
      rw [StructureFields.closeSide] at side
      split_ifs at side with credit
      exact Bool.eq_false_iff.mpr credit
    simp only [bind_eq_ok] at priced
    obtain ⟨price, -, rounded, -, done⟩ := priced
    cases done
    exact ⟨tick_pos.trans_le (le_max_right _ _), fun credit => absurd (debit.symm.trans credit)
      (by decide)⟩
  · split at priced
    case h_1 => cases priced
    case h_2 width isWidth =>
      simp only [bind_eq_ok] at priced
      obtain ⟨price, -, rounded, -, done⟩ := priced
      cases done
      have positive := spec.limit_pos.trans (limit_lt_width shaped isWidth)
      exact ⟨lt_min (tick_pos.trans_le (le_max_right _ _)) positive,
        fun _ => ⟨width, isWidth, min_le_right _ _⟩⟩

theorem insideGate_close (shaped : spec.shape = .ok ⟨⟩) (counted : Counted spec st)
    (held : 0 < st.openQty) {reason : ExitReason} {force : Bool} {ticks : ℤ}
    {decision : StructureDecision}
    (decided : close cfg spec st snap reason force ticks = .ok decision) :
    InsideGate spec st decision.action := by
  have most : st.openQty ≤ spec.quantity := by
    have := counted.exits
    have := counted.quantity
    rw [StructureState.openQty]
    omega
  rw [close] at decided
  split at decided
  case h_1 =>
    cases decided
    constructor
    · rintro _ _ _ ⟨⟩
    · rintro _ _ _ _ ⟨⟩
      refine ⟨rfl, held, rfl, ?_, ?_⟩
      · rintro _ ⟨⟩
      · rintro _ ⟨⟩
  case h_2 quote _ =>
    obtain ⟨limit, priced, done⟩ := bind_eq_ok.mp decided
    cases done
    obtain ⟨positive, within⟩ := deskCloseLimit_ok shaped priced
    constructor
    · rintro _ _ _ ⟨⟩
    · rintro _ _ _ _ ⟨⟩
      refine ⟨rfl, held, rfl, ?_, ?_⟩
      · rintro _ ⟨⟩ buys
        refine within ?_
        rw [StructureFields.closeSide] at buys
        split_ifs at buys with credit
        exact credit
      · rintro _ ⟨⟩
        exact validatePackageOrder_close.mpr ⟨held, most, limit, rfl, positive, within⟩

section

variable (shaped : spec.shape = .ok ⟨⟩) (counted : Counted spec st) {decision : StructureDecision}

include shaped counted

theorem insideGate_tickExit (held : 0 < st.openQty) {ticks : ℤ}
    (decided : tickExit cfg spec st snap ticks = .ok decision) :
    InsideGate spec st decision.action := by
  rw [tickExit] at decided
  split_ifs at decided
  · exact insideGate_close shaped counted held decided
  · exact insideGate_close shaped counted held decided
  · cases decided
    exact insideGate_noAction _ _ _

theorem insideGate_openExit (held : 0 < st.openQty) {spotReason : Option ExitReason}
    (decided : openExit cfg sessions spec st snap spotReason = .ok decision) :
    InsideGate spec st decision.action := by
  cases spotReason with
  | some reason => exact insideGate_close shaped counted held decided
  | none =>
    rw [openExit] at decided
    split at decided
    case isTrue => exact insideGate_close shaped counted held decided
    case isFalse =>
      obtain ⟨profit, -, decided⟩ := bind_eq_ok.mp decided
      rw [quoteExit] at decided
      split at decided
      case isTrue => exact insideGate_close shaped counted held decided
      case isFalse =>
        obtain ⟨ticks, -, decided⟩ := bind_eq_ok.mp decided
        exact insideGate_tickExit shaped counted held decided

theorem insideGate_deskExit (decided : deskExit cfg sessions spec st snap = .ok decision) :
    InsideGate spec st decision.action := by
  revert decided
  fun_cases deskExit cfg sessions spec st snap with
  | case1 =>
    intro decided
    cases decided
    exact insideGate_noAction _ _ _
  | case2 flat =>
    intro decided
    have held : 0 < st.openQty := not_le.mp flat
    obtain ⟨last, -, decided⟩ := bind_eq_ok.mp decided
    revert decided
    fun_cases heldExit cfg sessions spec st snap last with
    | case3 =>
      intro decided
      obtain ⟨spotReason, -, decided⟩ := bind_eq_ok.mp decided
      exact insideGate_openExit shaped counted held decided
    | _ => exact insideGate_close shaped counted held

/-- **Every order of a decision passes the gate.** -/
theorem insideGate_decideStructure
    (decided : decideStructure cfg sessions spec st snap = .ok decision) :
    InsideGate spec st decision.action := by
  rw [decideStructure] at decided
  split at decided
  case isTrue =>
    cases decided
    exact insideGate_noAction _ _ _
  case isFalse =>
    split at decided
    case isTrue =>
      obtain ⟨action, entered, done⟩ := bind_eq_ok.mp decided
      cases done
      exact insideGate_deskEntry counted entered
    case isFalse => exact insideGate_deskExit shaped counted decided

end

/-! ## The drained book -/

theorem Lane.recordUnpriced_filledQty (lane : Lane) (filled : ℤ) :
    (lane.recordUnpriced filled).1.filledQty = lane.filledQty + (filled - lane.orderSeen) := by
  rw [Lane.recordUnpriced]
  split
  case isTrue same => rw [same, add_zero]
  case isFalse => rfl

variable {lane lane' : Lane}

theorem Lane.recordPriced_filledQty {filled new : ℤ} {avg : ℚ}
    (recorded : lane.recordPriced filled avg = .ok (lane', new)) :
    lane'.filledQty = lane.filledQty + (filled - lane.orderSeen) := by
  rw [Lane.recordPriced] at recorded
  split at recorded
  case isTrue same =>
    cases recorded
    rw [same.1, add_zero]
  case isFalse =>
    obtain ⟨fill, -, done⟩ := bind_eq_ok.mp recorded
    cases done
    rfl

theorem Lane.record_filledQty {filled new : ℤ} {avg : Number}
    (recorded : lane.record filled avg = .ok (lane', new)) :
    lane'.filledQty = lane.filledQty + (filled - lane.orderSeen) := by
  have unpriced : ∀ {result : Lane × ℤ}, lane.recordUnpriced filled = result →
      result.1.filledQty = lane.filledQty + (filled - lane.orderSeen) := by
    rintro result rfl
    exact lane.recordUnpriced_filledQty filled
  unfold Lane.record at recorded
  split at recorded
  case h_1 =>
    split at recorded
    case isTrue => exact Lane.recordPriced_filledQty recorded
    case isFalse => exact unpriced (Except.ok.inj recorded)
  case h_2 => exact unpriced (Except.ok.inj recorded)
  case h_3 => exact unpriced (Except.ok.inj recorded)

theorem Lane.adopt_filledQty (lane : Lane) (orderId : String) :
    (lane.adopt orderId).filledQty = lane.filledQty := by
  rw [Lane.adopt]
  split <;> rfl

/-- **A report never lowers the fills of a lane.** -/
theorem Lane.le_drain {order : WorkingOrder} {new : ℤ}
    (drained : lane.drain order = .ok (lane', new)) : lane.filledQty ≤ lane'.filledQty := by
  rw [Lane.drain] at drained
  rw [← lane.adopt_filledQty order.orderId]
  split at drained
  case isTrue =>
    cases drained
    exact le_refl _
  case isFalse fresh =>
    rw [Lane.record_filledQty drained]
    omega

theorem le_drain {st' : StructureState} {order : WorkingOrder} {new : ℤ}
    (drained : drain st order = .ok (st', new)) :
    st.filledQty ≤ st'.filledQty ∧ st.exitFilledQty ≤ st'.exitFilledQty := by
  rw [drain] at drained
  split at drained
  case h_1 =>
    obtain ⟨⟨lane, added⟩, isLane, done⟩ := bind_eq_ok.mp drained
    cases done
    exact ⟨Lane.le_drain isLane, le_refl _⟩
  case h_2 =>
    obtain ⟨⟨lane, added⟩, isLane, done⟩ := bind_eq_ok.mp drained
    cases done
    exact ⟨le_refl _, Lane.le_drain isLane⟩

/-- **A tick decides on a book that counts no fewer fills than before.** -/
theorem step_ok {order : Option WorkingOrder} {st' : StructureState}
    {decision : StructureDecision}
    (stepped : step cfg sessions spec st snap order = .ok (st', decision)) :
    (st.filledQty ≤ st'.filledQty ∧ st.exitFilledQty ≤ st'.exitFilledQty) ∧
      decideStructure cfg sessions spec st' snap = .ok decision := by
  obtain ⟨book, isDrained, decides⟩ := bind_eq_ok.mp stepped
  obtain ⟨result, decided, done⟩ := bind_eq_ok.mp decides
  cases done
  refine ⟨?_, decided⟩
  cases order with
  | none =>
    cases isDrained
    exact ⟨le_refl _, le_refl _⟩
  | some order =>
    obtain ⟨⟨st'', new⟩, reported, rfl⟩ := map_eq_ok.mp isDrained
    exact le_drain reported

/-! ## One call -/

/-- One call bought for a half at most. -/
def callFields : StructureFields :=
  { verticalFields (1 / 2) sampleLimit_pos with
    id := "c"
    kind := .longSingle
    legs := [⟨.call, .buy, 1, 2, sampleStrike_pos⟩]
    id_nonempty := by decide
    legs_nonempty := by decide }

theorem valid_callFields : callFields.validateStructure = .ok ⟨⟩ := by
  rfl

def longCall : LegStructure :=
  ⟨callFields, valid_callFields⟩

/-- Held, filled by the order `A`. -/
def heldCall : StructureState where
  status := .opened
  entry :=
    { order := some "A", filledQty := 1, orderSeen := 1, unpricedQty := 1, orderUnpriced := 1 }

/-- A quote of one on both sides, on the last session before the expiry. -/
def lastSnapshot : Snapshot where
  date := 1
  time := 0
  spots := fun _ => none
  quotes := fun _ => some ⟨1, 1⟩
  dividends := fun _ => none
  shortCallMids := fun _ _ _ => none

def deskConfig : EngineConfig where
  entryWindow := ⟨timeOfDay 10 0, timeOfDay 11 0, by decide⟩

/-- The report of an entry order, without a price yet. -/
def entryReport (orderId : String) : WorkingOrder :=
  ⟨.entry, 1, .finite 0, orderId⟩

/-- `step` closes the call for safety, of the size its book says. -/
def safetyClose (qty : ℤ) : StructureDecision :=
  ⟨.closeOrder .expirySafety .sell qty (some 1), 0⟩

theorem cents_one : cents 1 = .ok 1 := by
  have whole : roundHalfUp (1 * 100) = 100 := by
    norm_num [roundHalfUp, Int.floor_eq_iff]
  rw [cents, quantizeCents, whole, if_pos (by norm_num [precision])]
  norm_num [orRaise]

theorem decideStructure_call {st : StructureState} (opened : st.status = .opened)
    (held : 0 < st.openQty) (noTicks : st.stopTicks = 0) :
    decideStructure deskConfig [0, 1] callFields st lastSnapshot =
      .ok (safetyClose st.openQty) := by
  have last : lastHoldSession [0, 1] callFields.firstExpiry = .ok 1 := rfl
  have limit : deskCloseLimit deskConfig callFields st true ⟨1, 1⟩ = .ok 1 := by
    have most : max (1 : ℚ) tick = 1 := max_eq_left (by norm_num [tick])
    simp [deskCloseLimit, ComboQuote.ladder, callFields, StructureFields.closeSide,
      StructureFields.isCredit, creditKinds, bind_eq_ok, cents_one, most]
  have closed : close deskConfig callFields st lastSnapshot .expirySafety true st.stopTicks =
      .ok (safetyClose st.openQty) := by
    refine bind_eq_ok.mpr ⟨1, limit, ?_⟩
    rw [noTicks]
    rfl
  rw [decideStructure, opened, if_neg (by decide), if_neg (by decide), deskExit,
    if_neg (not_le.mpr held)]
  exact bind_eq_ok.mpr ⟨1, last, by rw [heldExit, if_pos (by decide), closed]⟩

theorem step_call (orderId : String) {qty : ℤ}
    {book : StructureState} (isDrained : drained heldCall (some (entryReport orderId)) = .ok book)
    (opened : book.status = .opened) (noTicks : book.stopTicks = 0) (isQty : book.openQty = qty)
    (positive : 0 < qty) :
    step deskConfig [0, 1] callFields heldCall lastSnapshot (some (entryReport orderId)) =
      .ok (book, safetyClose qty) := by
  subst isQty
  refine bind_eq_ok.mpr ⟨book, isDrained, ?_⟩
  exact bind_eq_ok.mpr ⟨_, decideStructure_call opened positive noTicks, rfl⟩

/-- The book with the fill of the order `B` besides. -/
def twiceHeldCall : StructureState :=
  { heldCall with
    entry :=
      { order := some "B", filledQty := 2, orderSeen := 1, unpricedQty := 2, orderUnpriced := 1 } }

theorem step_heldCall : step deskConfig [0, 1] callFields heldCall lastSnapshot
    (some (entryReport "A")) = .ok (heldCall, safetyClose 1) := by
  apply step_call "A" rfl rfl rfl rfl
  decide

theorem step_twiceHeldCall : step deskConfig [0, 1] callFields heldCall lastSnapshot
    (some (entryReport "B")) = .ok (twiceHeldCall, safetyClose 2) := by
  apply step_call "B" rfl rfl rfl rfl
  decide

theorem bounded_heldCall : Bounded callFields heldCall := by
  constructor <;> decide

/-! ## The gate -/

/-- **No decision leaves the gate.** -/
theorem insideGate (cfg : EngineConfig) (sessions : List ℤ) (spec : LegStructure)
    (st : StructureState) (snap : Snapshot) (bounded : Bounded spec.toStructureFields st) :
    (∀ decision, decideStructure cfg sessions spec.toStructureFields st snap = .ok decision →
      InsideGate spec.toStructureFields st decision.action) ∧
    ∀ order st' decision,
      step cfg sessions spec.toStructureFields st snap order = .ok (st', decision) →
      st'.filledQty ≤ spec.quantity →
      InsideGate spec.toStructureFields st' decision.action := by
  refine ⟨?_, ?_⟩
  · intro decision decided
    exact insideGate_decideStructure spec.shape_ok bounded.counted decided
  · intro order st' decision stepped within
    obtain ⟨⟨entries, exits⟩, decided⟩ := step_ok stepped
    have counted : Counted spec.toStructureFields st' :=
      ⟨bounded.counted.entries.trans entries, bounded.exits.trans exits, within⟩
    exact insideGate_decideStructure spec.shape_ok counted decided

theorem insideGate_sample :
    InsideGate callFields heldCall (safetyClose 1).action ∧
      CloseInside callFields heldCall .sell 1 (some 1) := by
  obtain ⟨decided, stepped⟩ :=
    insideGate deskConfig [0, 1] longCall heldCall lastSnapshot bounded_heldCall
  refine ⟨decided _ (decideStructure_call rfl (by decide) rfl), ?_⟩
  exact (stepped _ _ _ step_heldCall (by decide)).close _ _ _ _ rfl

/-- The fill of a second order makes the engine close more than the gate lets through. -/
theorem closes_more_than_quantity :
    Bounded longCall.toStructureFields heldCall ∧
      step deskConfig [0, 1] longCall.toStructureFields heldCall lastSnapshot
        (some (entryReport "B")) =
          .ok (twiceHeldCall, ⟨.closeOrder .expirySafety .sell 2 (some 1), 0⟩) ∧
      validatePackageOrder longCall.toStructureFields Action.sell.value 2 (.finite 1) =
        .error (.quantity 1) :=
  ⟨bounded_heldCall, step_twiceHeldCall, rfl⟩

end TreeOptions.Trex
