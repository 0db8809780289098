import TreeOptions.Foundations.Checked
import TreeOptions.Foundations.DecimalContext
import TreeOptions.Foundations.Grouping

/-!
# Multi-leg structures

A `LegStructure` is a package of option legs of one of six kinds, with the price it may
be opened at and the rules that close it. It carries the checks of its schema: the
checks of its fields, and `validateStructure` for the structure as a whole. Prices of a
structure are quoted in its debit orientation (`packageLegs`). `limit` is the cap paid
for a debit kind and the floor received for a credit kind.

`validatePackageOrder` refuses an order whose fill could lose more than the structure
may. Dates are numbers in their order.
-/

set_option autoImplicit false

namespace TreeOptions.Trex

open Checked Decimal

/-! ## Legs -/

inductive Right where
  | call
  | put
  deriving DecidableEq

/-- The direction of a leg in the opened position, also the side of an order. -/
inductive Action where
  | buy
  | sell
  deriving DecidableEq

def Action.value : Action → String
  | buy => "BUY"
  | sell => "SELL"

def Action.flipped : Action → Action
  | buy => sell
  | sell => buy

inductive Kind where
  | longSingle
  | debitVertical
  | creditVertical
  | ironCondor
  | calendar
  | diagonal
  deriving DecidableEq

def debitKinds : List Kind :=
  [.longSingle, .debitVertical, .calendar, .diagonal]

def creditKinds : List Kind :=
  [.creditVertical, .ironCondor]

/-- One option leg, always at a ratio of one. -/
structure Leg where
  right : Right
  action : Action
  strike : ℚ
  expiry : ℤ
  strike_pos : 0 < strike

/-- One held long, minus one held short. -/
def Leg.sign (leg : Leg) : ℤ :=
  match leg.action with
  | .buy => 1
  | .sell => -1

def Leg.flipped (leg : Leg) : Leg :=
  { leg with action := leg.action.flipped }

/-! ## Exit rules -/

inductive TakeProfitBasis where
  | widthFrac
  | gainFrac
  | creditFrac

def TakeProfitBasis.InRange : TakeProfitBasis → ℚ → Prop
  | widthFrac, value => 0 ≤ value ∧ value ≤ 1
  | gainFrac, value => 0 < value
  | creditFrac, value => 0 < value ∧ value < 1

structure TakeProfit where
  basis : TakeProfitBasis
  value : ℚ
  inRange : basis.InRange value

inductive StopLossBasis where
  | debitFrac
  | creditMult

def StopLossBasis.InRange : StopLossBasis → ℚ → Prop
  | debitFrac, value => 0 < value ∧ value < 1
  | creditMult, value => 1 < value

structure StopLoss where
  basis : StopLossBasis
  value : ℚ
  inRange : basis.InRange value

structure ExitRules where
  takeProfit : Option TakeProfit := none
  stopLoss : Option StopLoss := none
  stopConfirmTicks : ℤ := 3
  touch : Bool
  breach : Bool
  stopConfirmTicks_pos : 1 ≤ stopConfirmTicks := by decide

def touchKinds : List Kind :=
  [.longSingle, .debitVertical]

def breachKinds : List Kind :=
  creditKinds

def takeProfitKinds : TakeProfitBasis → List Kind
  | .widthFrac => [.debitVertical]
  | .gainFrac => debitKinds
  | .creditFrac => creditKinds

def stopKinds : StopLossBasis → List Kind
  | .debitFrac => debitKinds
  | .creditMult => creditKinds

/-! ## Structures -/

/-- The members of a structure, each within the bounds of its field. -/
structure StructureFields where
  id : String
  underlying : String
  kind : Kind
  legs : List Leg
  quantity : ℤ
  entryDate : ℤ
  exitDeadline : ℤ
  limit : ℚ
  exits : ExitRules
  dealId : Option String := none
  refMid : Option ℚ := none
  id_nonempty : id ≠ ""
  underlying_nonempty : underlying ≠ ""
  legs_nonempty : legs ≠ []
  quantity_pos : 0 < quantity
  limit_pos : 0 < limit
  refMid_pos : ∀ mid, refMid = some mid → 0 < mid

/-- Why a structure is refused. -/
inductive StructureError where
  | dealNeedsRefMid (dealId : String)
  | duplicateLegs
  | uncoveredSell (right : Right) (sells buys : ℕ)
  | deadlineNotBeforeExpiry (exitDeadline firstExpiry : ℤ)
  | entryNotBeforeDeadline (entryDate exitDeadline : ℤ)
  | oneBuyLeg
  | oneBuyOneSell
  | oneRightOneExpiry
  | strikesInverted (right : Right) (buy sell : ℚ)
  | limitNotBelowWidth (limit width : ℚ)
  | twoPutsTwoCalls
  | condorExpiries
  | condorStrikes
  | limitNotBelowWing (limit wing : ℚ)
  | oneRight
  | buyExpiresAfterSell
  | calendarStrikes
  | diagonalStrikes
  | notProtective (right : Right) (buy sell : ℚ)
  | touchKind
  | breachKind
  | takeProfitBasis (basis : TakeProfitBasis)
  | stopLossBasis (basis : StopLossBasis)
  | stopNeverFires (value limit width : ℚ)

/-- The buy leg and the sell leg of a structure of two legs. -/
def oneOfEach (legs : List Leg) : Option (Leg × Leg) :=
  if legs.length ≠ 2 then none
  else
    match legs.filter (fun leg => leg.action = .buy), legs.filter fun leg => leg.action = .sell with
    | [buy], [sell] => some (buy, sell)
    | _, _ => none

def putsOf (legs : List Leg) : List Leg :=
  sortedBy Leg.strike (legs.filter fun leg => leg.right = .put)

def callsOf (legs : List Leg) : List Leg :=
  sortedBy Leg.strike (legs.filter fun leg => leg.right = .call)

/-- The wings of a condor, none where a right has fewer than two legs. -/
def condorWings (legs : List Leg) : Option (ℚ × ℚ) :=
  match putsOf legs, callsOf legs with
  | put :: put' :: _, call :: call' :: _ =>
    some (sub put'.strike put.strike, sub call'.strike call.strike)
  | _, _ => none

namespace StructureFields

variable (struct : StructureFields)

def isCredit : Bool :=
  struct.kind ∈ creditKinds

/-- One for a debit kind, minus one for a credit kind. -/
def direction : ℤ :=
  if struct.isCredit then -1 else 1

/-- The side of the order that opens the package. -/
def openSide : Action :=
  if struct.isCredit then .sell else .buy

def closeSide : Action :=
  if struct.isCredit then .buy else .sell

/-- The legs in debit orientation. -/
def packageLegs : List Leg :=
  if struct.isCredit then struct.legs.map Leg.flipped else struct.legs

def firstExpiry : ℤ :=
  (struct.legs.map Leg.expiry).min (by simpa using struct.legs_nonempty)

/-- The largest value of the package where strikes fix it. Legs that the kind refuses
have none. -/
def width : Option ℚ :=
  match struct.kind with
  | .debitVertical | .creditVertical =>
    match struct.legs with
    | [a, b] => some |sub a.strike b.strike|
    | _ => none
  | .ironCondor => (condorWings struct.legs).map fun (putWing, callWing) => max putWing callWing
  | .longSingle | .calendar | .diagonal => none

/-- The worst loss of one package, undefined for a credit kind without a width. -/
def maxLossPerPackage : Option ℚ :=
  if struct.isCredit then struct.width.map fun width => sub width struct.limit
  else some struct.limit

/-! ## Checks of the shape -/

def shapeLongSingle : Except StructureError Unit :=
  match struct.legs with
  | [leg] => refuse (leg.action ≠ .buy) .oneBuyLeg
  | _ => .error .oneBuyLeg

/-- A debit vertical buys the strike nearer the view, a credit vertical sells it. -/
def shapeVertical : Except StructureError Unit :=
  match oneOfEach struct.legs with
  | none => .error .oneBuyOneSell
  | some (buy, sell) => do
      refuse (buy.right ≠ sell.right ∨ buy.expiry ≠ sell.expiry) .oneRightOneExpiry
      refuse (¬ (sell.strike < buy.strike ↔ (buy.right = .put ↔ struct.kind = .debitVertical)))
        (.strikesInverted buy.right buy.strike sell.strike)
      let width := |sub buy.strike sell.strike|
      refuse (¬ struct.limit < width) (.limitNotBelowWidth struct.limit width)

def shapeIronCondor : Except StructureError Unit := do
  let puts := putsOf struct.legs
  let calls := callsOf struct.legs
  refuse (struct.legs.length ≠ 4 ∨ puts.length ≠ 2 ∨ calls.length ≠ 2) .twoPutsTwoCalls
  refuse ((struct.legs.map Leg.expiry).dedup.length ≠ 1) .condorExpiries
  match puts, calls with
  | [longPut, shortPut], [shortCall, longCall] => do
      refuse (¬ ((longPut.action = .buy ∧ shortPut.action = .sell ∧ shortCall.action = .sell ∧
          longCall.action = .buy) ∧
        longPut.strike < shortPut.strike ∧ shortPut.strike < shortCall.strike ∧
          shortCall.strike < longCall.strike)) .condorStrikes
      let wing := max (sub shortPut.strike longPut.strike) (sub longCall.strike shortCall.strike)
      refuse (¬ struct.limit < wing) (.limitNotBelowWing struct.limit wing)
  | _, _ => .error .twoPutsTwoCalls

/-- Calendars and diagonals: the long leg expires later, at a strike at least as good. -/
def shapeTwoExpiry : Except StructureError Unit :=
  match oneOfEach struct.legs with
  | none => .error .oneBuyOneSell
  | some (buy, sell) => do
      refuse (buy.right ≠ sell.right) .oneRight
      refuse (¬ sell.expiry < buy.expiry) .buyExpiresAfterSell
      if struct.kind = .calendar then
        refuse (buy.strike ≠ sell.strike) .calendarStrikes
      else do
        refuse (buy.strike = sell.strike) .diagonalStrikes
        refuse (¬ if buy.right = .call then buy.strike < sell.strike else sell.strike < buy.strike)
          (.notProtective buy.right buy.strike sell.strike)

/-- The check of a kind. -/
def shape : Except StructureError Unit :=
  match struct.kind with
  | .longSingle => struct.shapeLongSingle
  | .debitVertical | .creditVertical => struct.shapeVertical
  | .ironCondor => struct.shapeIronCondor
  | .calendar | .diagonal => struct.shapeTwoExpiry

/-! ## Checks of the structure -/

def validateStopLoss (stop : StopLoss) : Except StructureError Unit := do
  refuse (struct.kind ∉ stopKinds stop.basis) (.stopLossBasis stop.basis)
  match stop.basis, struct.width with
  | .creditMult, some width =>
    refuse (width ≤ mul stop.value struct.limit)
      (.stopNeverFires stop.value struct.limit width)
  | _, _ => .ok ⟨⟩

def validateTakeProfit (takeProfit : TakeProfit) : Except StructureError Unit :=
  refuse (struct.kind ∉ takeProfitKinds takeProfit.basis) (.takeProfitBasis takeProfit.basis)

def validateExits : Except StructureError Unit := do
  let exits := struct.exits
  refuse (exits.touch ∧ struct.kind ∉ touchKinds) .touchKind
  refuse (exits.breach ∧ struct.kind ∉ breachKinds) .breachKind
  exits.takeProfit.toList.forM struct.validateTakeProfit
  exits.stopLoss.toList.forM struct.validateStopLoss

/-- No right has more legs sold than bought. -/
def checkCovered (right : Right) : Except StructureError Unit :=
  let count := fun action =>
    (struct.legs.filter fun leg => leg.right = right ∧ leg.action = action).length
  refuse (count .buy < count .sell) (.uncoveredSell right (count .sell) (count .buy))

/-- A deal needs the mid it was priced at. -/
def checkDeal (dealId : String) : Except StructureError Unit :=
  refuse (struct.refMid = none) (.dealNeedsRefMid dealId)

def validateStructure : Except StructureError Unit := do
  struct.dealId.toList.forM struct.checkDeal
  refuse (¬ (struct.legs.map fun leg => (leg.right, leg.strike, leg.expiry)).Nodup) .duplicateLegs
  struct.checkCovered .call
  struct.checkCovered .put
  refuse (struct.firstExpiry ≤ struct.exitDeadline)
    (.deadlineNotBeforeExpiry struct.exitDeadline struct.firstExpiry)
  refuse (struct.exitDeadline ≤ struct.entryDate)
    (.entryNotBeforeDeadline struct.entryDate struct.exitDeadline)
  struct.shape
  struct.validateExits

end StructureFields

/-- A structure that passed its checks. -/
structure LegStructure extends StructureFields where
  valid : toStructureFields.validateStructure = .ok ⟨⟩

theorem LegStructure.shape_ok (struct : LegStructure) : struct.shape = .ok ⟨⟩ := by
  have valid := struct.valid
  simp only [StructureFields.validateStructure, bind_eq_ok] at valid
  obtain ⟨-, -, -, -, -, -, -, -, -, -, -, -, ⟨⟩, shaped, -⟩ := valid
  exact shaped

/-! ## Orders -/

/-- Why an order is refused. -/
inductive OrderError where
  | side
  | quantity (bound : ℤ)
  | notFinite
  | notPositive
  | belowFloor (floor : ℚ)
  | aboveCap (cap : ℚ)
  | aboveWidth (width : ℚ)
  | widthMissing

/-- The bounds of a price: those of the side that opens the package, and the largest
value of the package for a credit kind that is bought back. -/
def checkPrice (struct : StructureFields) (side : String) (limit : ℚ) : Except OrderError Unit := do
  refuse (¬ 0 < limit) .notPositive
  if side = struct.openSide.value then do
    refuse (struct.isCredit ∧ limit < struct.limit) (.belowFloor struct.limit)
    refuse (¬ struct.isCredit ∧ struct.limit < limit) (.aboveCap struct.limit)
  else if struct.isCredit then
    match struct.width with
    | some width => refuse (width < limit) (.aboveWidth width)
    | none => .error .widthMissing
  else .ok ⟨⟩

/-- Refuse an order whose fill could lose more than the structure may. -/
def validatePackageOrder (struct : StructureFields) (side : String) (qty : ℤ) (limit : Number) :
    Except OrderError Unit := do
  refuse (side ≠ Action.buy.value ∧ side ≠ Action.sell.value) .side
  refuse (¬ (0 < qty ∧ qty ≤ struct.quantity)) (.quantity struct.quantity)
  match limit with
  | .finite price => checkPrice struct side price
  | .infinity _ | .nan => .error .notFinite

/-! ## Accepted orders -/

section

variable {struct : StructureFields} {qty : ℤ} {limit : Number}

theorem validatePackageOrder_eq_ok {action : Action} :
    validatePackageOrder struct action.value qty limit = .ok ⟨⟩ ↔
      0 < qty ∧ qty ≤ struct.quantity ∧
        ∃ price, limit = .finite price ∧ checkPrice struct action.value price = .ok ⟨⟩ := by
  have known : ¬ (action.value ≠ Action.buy.value ∧ action.value ≠ Action.sell.value) := by
    cases action <;> decide
  simp only [validatePackageOrder, refuse_bind_eq_ok, not_not, known, not_false_eq_true, true_and,
    and_assoc]
  refine and_congr_right fun _ => and_congr_right fun _ => ?_
  cases limit with
  | finite price => simp
  | infinity negative => simp
  | nan => simp

/-- **An order that opens the package is accepted within the cap or the floor.** -/
theorem validatePackageOrder_open :
    validatePackageOrder struct struct.openSide.value qty limit = .ok ⟨⟩ ↔
      0 < qty ∧ qty ≤ struct.quantity ∧ ∃ price, limit = .finite price ∧ 0 < price ∧
        (struct.isCredit = true → struct.limit ≤ price) ∧
        (struct.isCredit = false → price ≤ struct.limit) := by
  simp [validatePackageOrder_eq_ok, checkPrice, refuse_bind_eq_ok, refuse_eq_ok]

/-- **An order that closes the package is accepted up to the width of a credit kind.** -/
theorem validatePackageOrder_close :
    validatePackageOrder struct struct.closeSide.value qty limit = .ok ⟨⟩ ↔
      0 < qty ∧ qty ≤ struct.quantity ∧ ∃ price, limit = .finite price ∧ 0 < price ∧
        (struct.isCredit = true → ∃ width, struct.width = some width ∧ price ≤ width) := by
  have other : struct.closeSide.value ≠ struct.openSide.value := by
    rw [StructureFields.closeSide, StructureFields.openSide]
    split <;> decide
  simp only [validatePackageOrder_eq_ok, checkPrice, if_neg other, refuse_bind_eq_ok, not_not]
  cases credit : struct.isCredit with
  | false => simp
  | true =>
    cases width : struct.width with
    | none => simp
    | some most => simp [refuse_eq_ok]

end

end TreeOptions.Trex
