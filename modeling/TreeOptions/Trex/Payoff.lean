import Mathlib.Algebra.BigOperators.Ring.List
import Mathlib.Data.Real.Basic
import TreeOptions.Trex.Plan

/-!
# What a package is worth at expiry

The value of an option at its expiry is its intrinsic value. A long leg and a short leg
of one right are a spread, which is worth nothing at one end of the spots and the
distance of its strikes at the other (`spread_nonneg`, `spread_le`). The checks of a
structure leave a single long leg, one spread or the two spreads of a condor, in the
debit orientation of the package (`Shaped`). So no package is worth less than nothing
(`value_nonneg`), a debit package may be worth nothing (`isLeast_value`), and a credit
package may be worth its width and no more (`isGreatest_value`).
-/

set_option autoImplicit false

namespace TreeOptions.Trex

open Checked Decimal

/-! ## Intrinsic values -/

/-- The value of an option at its expiry. -/
noncomputable def intrinsic (right : Right) (strike spot : ℝ) : ℝ :=
  match right with
  | .call => max 0 (spot - strike)
  | .put => max 0 (strike - spot)

/-- The strikes of a spread that is never worth less than nothing. -/
def Right.Covers (right : Right) (long short : ℝ) : Prop :=
  match right with
  | .call => long ≤ short
  | .put => short ≤ long

/-- One strike held long against another. -/
noncomputable def spread (right : Right) (long short spot : ℝ) : ℝ :=
  intrinsic right long spot - intrinsic right short spot

theorem intrinsic_nonneg (right : Right) (strike spot : ℝ) : 0 ≤ intrinsic right strike spot := by
  cases right <;> exact le_max_left _ _

/-- An option may be worth nothing. -/
theorem exists_intrinsic_eq_zero (right : Right) {strike : ℝ} (positive : 0 < strike) :
    ∃ spot, 0 ≤ spot ∧ intrinsic right strike spot = 0 := by
  refine ⟨strike, positive.le, ?_⟩
  cases right <;> simp [intrinsic]

section

variable {right : Right} {long short : ℝ} (covers : right.Covers long short)

include covers

theorem spread_nonneg (spot : ℝ) : 0 ≤ spread right long short spot := by
  rw [spread, sub_nonneg]
  cases right with
  | call => exact max_le_max_left 0 (sub_le_sub_left covers spot)
  | put => exact max_le_max_left 0 (sub_le_sub_right covers spot)

theorem spread_le (spot : ℝ) : spread right long short spot ≤ |long - short| := by
  cases right with
  | call =>
    have order : long ≤ short := covers
    rw [spread, abs_of_nonpos (sub_nonpos.mpr order), tsub_le_iff_right]
    refine max_le ?_ ?_
    · have := intrinsic_nonneg .call short spot
      linarith
    · have := le_max_right 0 (spot - short)
      change spot - long ≤ -(long - short) + max 0 (spot - short)
      linarith
  | put =>
    have order : short ≤ long := covers
    rw [spread, abs_of_nonneg (sub_nonneg.mpr order), tsub_le_iff_right]
    refine max_le ?_ ?_
    · have := intrinsic_nonneg .put short spot
      linarith
    · have := le_max_right 0 (short - spot)
      change long - spot ≤ long - short + max 0 (short - spot)
      linarith

/-- Where the option bought is worth nothing, so is the spread. -/
theorem spread_eq_zero {spot : ℝ} (worthless : right.Covers spot long) :
    spread right long short spot = 0 := by
  cases right with
  | call =>
    have order : long ≤ short := covers
    have below : spot ≤ long := worthless
    simp only [spread, intrinsic]
    rw [max_eq_left (by linarith), max_eq_left (by linarith), sub_self]
  | put =>
    have order : short ≤ long := covers
    have above : long ≤ spot := worthless
    simp only [spread, intrinsic]
    rw [max_eq_left (by linarith), max_eq_left (by linarith), sub_self]

/-- Where the option sold is in the money, the spread is worth the distance. -/
theorem spread_eq_width {spot : ℝ} (through : right.Covers short spot) :
    spread right long short spot = |long - short| := by
  cases right with
  | call =>
    have order : long ≤ short := covers
    have above : short ≤ spot := through
    simp only [spread, intrinsic]
    rw [max_eq_right (by linarith), max_eq_right (by linarith),
      abs_of_nonpos (by linarith)]
    ring
  | put =>
    have order : short ≤ long := covers
    have below : spot ≤ short := through
    simp only [spread, intrinsic]
    rw [max_eq_right (by linarith), max_eq_right (by linarith),
      abs_of_nonneg (by linarith)]
    ring

end

theorem Right.Covers.refl (right : Right) (strike : ℝ) : right.Covers strike strike := by
  cases right <;> exact le_refl strike

/-! ## The value of legs -/

/-- What a leg is worth to the one who holds it. -/
noncomputable def Leg.valueAt (leg : Leg) (spot : ℝ) : ℝ :=
  leg.sign * intrinsic leg.right leg.strike spot

noncomputable def valueAt (legs : List Leg) (spot : ℝ) : ℝ :=
  (legs.map fun leg => leg.valueAt spot).sum

theorem Leg.sign_flipped (leg : Leg) : leg.flipped.sign = -leg.sign := by
  cases leg with
  | mk right action strike expiry positive => cases action <;> rfl

theorem Leg.valueAt_flipped (leg : Leg) (spot : ℝ) :
    leg.flipped.valueAt spot = -leg.valueAt spot := by
  rw [valueAt, valueAt, sign_flipped, Int.cast_neg, neg_mul]
  rfl

theorem Leg.valueAt_bought {leg : Leg} (bought : leg.action = .buy) (spot : ℝ) :
    leg.valueAt spot = intrinsic leg.right leg.strike spot := by
  rw [valueAt, sign, bought, Int.cast_one, one_mul]

theorem Leg.valueAt_sold {leg : Leg} (sold : leg.action = .sell) (spot : ℝ) :
    leg.valueAt spot = -intrinsic leg.right leg.strike spot := by
  rw [valueAt, sign, sold, Int.cast_neg, Int.cast_one, neg_one_mul]

theorem valueAt_perm {first second : List Leg} (same : first.Perm second) (spot : ℝ) :
    valueAt first spot = valueAt second spot :=
  (same.map _).sum_eq

/-- The package is worth what the legs are worth, in debit orientation. -/
theorem valueAt_packageLegs (struct : StructureFields) (spot : ℝ) :
    valueAt struct.packageLegs spot = struct.direction * valueAt struct.legs spot := by
  rw [StructureFields.packageLegs, StructureFields.direction]
  split
  · have each : ∀ leg : Leg, leg.flipped.valueAt spot = (-1 : ℤ) * leg.valueAt spot := by
      intro leg
      rw [leg.valueAt_flipped, Int.cast_neg, Int.cast_one, neg_one_mul]
    simp only [valueAt, List.map_map, Function.comp_def, each, List.sum_map_mul_left]
  · rw [Int.cast_one, one_mul]

/-! ## What the checks of the shape leave -/

/-- A leg held long against one held short. -/
structure SpreadOf (right : Right) (long short : Leg) : Prop where
  long_right : long.right = right
  short_right : short.right = right
  bought : long.action = .buy
  sold : short.action = .sell
  covers : right.Covers long.strike short.strike

theorem SpreadOf.valueAt {right : Right} {long short : Leg} (isSpread : SpreadOf right long short)
    (spot : ℝ) :
    long.valueAt spot + short.valueAt spot = spread right long.strike short.strike spot := by
  rw [Leg.valueAt_bought isSpread.bought, Leg.valueAt_sold isSpread.sold, isSpread.long_right,
    isSpread.short_right, ← sub_eq_add_neg]
  rfl

theorem spreadOf_flipped {right : Right} {sold bought : Leg} (soldRight : sold.right = right)
    (boughtRight : bought.right = right) (isSold : sold.action = .sell)
    (isBought : bought.action = .buy) (covers : right.Covers sold.strike bought.strike) :
    SpreadOf right sold.flipped bought.flipped := by
  refine ⟨soldRight, boughtRight, ?_, ?_, covers⟩
  · rw [Leg.flipped, isSold]
    rfl
  · rw [Leg.flipped, isBought]
    rfl

inductive Shaped (struct : StructureFields) : Prop
  | single (leg : Leg) (kind : struct.kind = .longSingle) (bought : leg.action = .buy)
      (legs : struct.packageLegs = [leg])
  | spread (right : Right) (long short : Leg) (isSpread : SpreadOf right long short)
      (legs : struct.packageLegs.Perm [long, short])
      (width : struct.isCredit → struct.width = some |sub long.strike short.strike|)
  | condor (put put' call call' : Leg) (kind : struct.kind = .ironCondor)
      (puts : SpreadOf .put put put') (calls : SpreadOf .call call call')
      (apart : put.strike < call.strike)
      (legs : struct.packageLegs.Perm [put, put', call, call'])
      (width : struct.width =
        some (max (sub put.strike put'.strike) (sub call'.strike call.strike)))

theorem oneOfEach_eq_some {legs : List Leg} {buy sell : Leg}
    (found : oneOfEach legs = some (buy, sell)) :
    buy.action = .buy ∧ sell.action = .sell ∧ (legs = [buy, sell] ∨ legs = [sell, buy]) := by
  rw [oneOfEach] at found
  split_ifs at found with length
  obtain ⟨first, second, rfl⟩ := List.length_eq_two.mp (not_not.mp length)
  cases isFirst : first.action <;> cases isSecond : second.action <;>
    simp [isFirst, isSecond] at found
  · obtain ⟨rfl, rfl⟩ := found
    exact ⟨isFirst, isSecond, .inl rfl⟩
  · obtain ⟨rfl, rfl⟩ := found
    exact ⟨isSecond, isFirst, .inr rfl⟩

section

variable {struct : StructureFields}

theorem shaped_of_longSingle (kind : struct.kind = .longSingle)
    (shaped : struct.shapeLongSingle = .ok ⟨⟩) : Shaped struct := by
  rw [StructureFields.shapeLongSingle] at shaped
  split at shaped
  case h_1 leg legs =>
    rw [refuse_eq_ok, not_not] at shaped
    refine .single leg kind shaped ?_
    rw [StructureFields.packageLegs, StructureFields.isCredit, kind, legs]
    rfl
  case h_2 => cases shaped

theorem covers_of_vertical {right : Right} {buy sell : ℚ} {debit : Prop}
    (ordered : sell < buy ↔ (right = .put ↔ debit)) :
    (debit → right.Covers buy sell) ∧ (¬ debit → right.Covers sell buy) := by
  cases right with
  | call =>
    constructor
    · intro isDebit
      have order : buy ≤ sell := by
        rw [← not_lt, ordered]
        simp [isDebit]
      exact Rat.cast_le.mpr order
    · intro isCredit
      have order : sell < buy := by
        rw [ordered]
        simp [isCredit]
      exact Rat.cast_le.mpr order.le
  | put =>
    constructor
    · intro isDebit
      have order : sell < buy := by
        rw [ordered]
        simp [isDebit]
      exact Rat.cast_le.mpr order.le
    · intro isCredit
      have order : buy ≤ sell := by
        rw [← not_lt, ordered]
        simp [isCredit]
      exact Rat.cast_le.mpr order

theorem packageLegs_debit {buy sell : Leg} (debit : struct.isCredit = false)
    (legs : struct.legs = [buy, sell] ∨ struct.legs = [sell, buy]) :
    struct.packageLegs.Perm [buy, sell] := by
  rw [StructureFields.packageLegs, debit]
  rcases legs with legs | legs
  · rw [legs]
    exact .refl _
  · rw [legs]
    exact .swap _ _ _

theorem packageLegs_credit {buy sell : Leg} (credit : struct.isCredit = true)
    (legs : struct.legs = [buy, sell] ∨ struct.legs = [sell, buy]) :
    struct.packageLegs.Perm [sell.flipped, buy.flipped] := by
  rw [StructureFields.packageLegs, credit]
  rcases legs with legs | legs
  · rw [legs]
    exact .swap _ _ _
  · rw [legs]
    exact .refl _

theorem width_vertical {buy sell : Leg}
    (kind : struct.kind = .debitVertical ∨ struct.kind = .creditVertical)
    (legs : struct.legs = [buy, sell] ∨ struct.legs = [sell, buy]) :
    struct.width = some |sub buy.strike sell.strike| := by
  have two : ∀ first second, struct.legs = [first, second] →
      struct.width = some |sub first.strike second.strike| := by
    intro first second legs
    rcases kind with kind | kind <;> simp only [StructureFields.width, kind, legs]
  rcases legs with legs | legs
  · exact two _ _ legs
  · rw [two _ _ legs, abs_sub_comm]

theorem shaped_of_vertical (kind : struct.kind = .debitVertical ∨ struct.kind = .creditVertical)
    (shaped : struct.shapeVertical = .ok ⟨⟩) :
    Shaped struct ∧ ∃ width, struct.width = some width ∧ struct.limit < width := by
  rw [StructureFields.shapeVertical] at shaped
  split at shaped
  case h_1 => cases shaped
  case h_2 buy sell found =>
    obtain ⟨bought, sold, legs⟩ := oneOfEach_eq_some found
    simp only [refuse_bind_eq_ok, refuse_eq_ok, not_not, not_or] at shaped
    obtain ⟨⟨rights, -⟩, ordered, below⟩ := shaped
    obtain ⟨debit, credit⟩ := covers_of_vertical ordered
    have width := width_vertical kind legs
    refine ⟨?_, _, width, below⟩
    rcases kind with kind | kind
    · have isSpread : SpreadOf buy.right buy sell :=
        ⟨rfl, rights.symm, bought, sold, debit kind⟩
      have isDebit : struct.isCredit = false := by
        rw [StructureFields.isCredit, kind]
        rfl
      exact .spread _ _ _ isSpread (packageLegs_debit isDebit legs) fun _ => width
    · have isSpread := spreadOf_flipped rights.symm rfl sold bought (credit (by simp [kind]))
      have isCredit : struct.isCredit = true := by
        rw [StructureFields.isCredit, kind]
        rfl
      refine .spread _ _ _ isSpread (packageLegs_credit isCredit legs) fun _ => ?_
      rw [width, abs_sub_comm]
      rfl

theorem shaped_of_twoExpiry (kind : struct.kind = .calendar ∨ struct.kind = .diagonal)
    (shaped : struct.shapeTwoExpiry = .ok ⟨⟩) : Shaped struct := by
  have isDebit : struct.isCredit = false := by
    rcases kind with kind | kind <;> rw [StructureFields.isCredit, kind] <;> rfl
  rw [StructureFields.shapeTwoExpiry] at shaped
  split at shaped
  case h_1 => cases shaped
  case h_2 buy sell found =>
    obtain ⟨bought, sold, legs⟩ := oneOfEach_eq_some found
    simp only [refuse_bind_eq_ok, not_not] at shaped
    obtain ⟨rights, -, shaped⟩ := shaped
    have covers : buy.right.Covers buy.strike sell.strike := by
      split at shaped
      case isTrue =>
        rw [refuse_eq_ok, not_not] at shaped
        rw [shaped]
        exact .refl _ _
      case isFalse =>
        simp only [refuse_bind_eq_ok, refuse_eq_ok, not_not] at shaped
        obtain ⟨-, protective⟩ := shaped
        cases right : buy.right with
        | call =>
          rw [if_pos right] at protective
          exact Rat.cast_le.mpr protective.le
        | put =>
          rw [if_neg (by simp [right])] at protective
          exact Rat.cast_le.mpr protective.le
    have isSpread : SpreadOf buy.right buy sell := ⟨rfl, rights.symm, bought, sold, covers⟩
    refine .spread _ _ _ isSpread (packageLegs_debit isDebit legs) ?_
    simp [isDebit]

theorem perm_putsOf_append_callsOf (legs : List Leg) :
    legs.Perm (putsOf legs ++ callsOf legs) := by
  have calls : (legs.filter fun leg => leg.right = .call) =
      legs.filter fun leg => !decide (leg.right = .put) := by
    refine List.filter_congr fun leg _ => ?_
    cases leg.right <;> rfl
  have parts := List.filter_append_perm (fun leg : Leg => decide (leg.right = .put)) legs
  rw [putsOf, callsOf, calls]
  exact parts.symm.trans ((sortedBy_perm _ _).symm.append (sortedBy_perm _ _).symm)

theorem right_of_mem_putsOf {legs : List Leg} {leg : Leg} (member : leg ∈ putsOf legs) :
    leg.right = .put := by
  rw [putsOf, mem_sortedBy, List.mem_filter] at member
  exact of_decide_eq_true member.2

theorem right_of_mem_callsOf {legs : List Leg} {leg : Leg} (member : leg ∈ callsOf legs) :
    leg.right = .call := by
  rw [callsOf, mem_sortedBy, List.mem_filter] at member
  exact of_decide_eq_true member.2

theorem shaped_of_ironCondor (kind : struct.kind = .ironCondor)
    (shaped : struct.shapeIronCondor = .ok ⟨⟩) :
    Shaped struct ∧ ∃ width, struct.width = some width ∧ struct.limit < width := by
  have isCredit : struct.isCredit = true := by
    rw [StructureFields.isCredit, kind]
    rfl
  simp only [StructureFields.shapeIronCondor, refuse_bind_eq_ok] at shaped
  obtain ⟨-, -, shaped⟩ := shaped
  split at shaped
  case h_1 longPut shortPut shortCall longCall puts calls =>
    simp only [refuse_bind_eq_ok, refuse_eq_ok, not_not] at shaped
    obtain ⟨⟨⟨putBought, putSold, callSold, callBought⟩, putWing, apart, callWing⟩, below⟩ := shaped
    have width : struct.width = some (max (sub shortPut.strike longPut.strike)
        (sub longCall.strike shortCall.strike)) := by
      simp [StructureFields.width, kind, condorWings, puts, calls]
    refine ⟨?_, _, width, below⟩
    have rightPut : ∀ leg ∈ [longPut, shortPut], leg.right = .put := by
      intro leg member
      exact right_of_mem_putsOf (puts ▸ member)
    have rightCall : ∀ leg ∈ [shortCall, longCall], leg.right = .call := by
      intro leg member
      exact right_of_mem_callsOf (calls ▸ member)
    have putSpread := spreadOf_flipped (rightPut shortPut (by simp)) (rightPut longPut (by simp))
      putSold putBought (Rat.cast_le.mpr putWing.le)
    have callSpread := spreadOf_flipped (rightCall shortCall (by simp))
      (rightCall longCall (by simp)) callSold callBought (Rat.cast_le.mpr callWing.le)
    have legs : struct.packageLegs.Perm
        [shortPut.flipped, longPut.flipped, shortCall.flipped, longCall.flipped] := by
      have parts := (perm_putsOf_append_callsOf struct.legs).map Leg.flipped
      rw [puts, calls] at parts
      rw [StructureFields.packageLegs, isCredit, if_pos rfl]
      exact parts.trans (.swap _ _ _)
    exact .condor _ _ _ _ kind putSpread callSpread apart legs width
  case h_2 => cases shaped

/-- **The checks leave a single leg, a spread or the spreads of a condor.** -/
theorem shaped_of_shape (shaped : struct.shape = .ok ⟨⟩) : Shaped struct := by
  rw [StructureFields.shape] at shaped
  cases kind : struct.kind <;> rw [kind] at shaped
  case longSingle => exact shaped_of_longSingle kind shaped
  case debitVertical => exact (shaped_of_vertical (.inl kind) shaped).1
  case creditVertical => exact (shaped_of_vertical (.inr kind) shaped).1
  case ironCondor => exact (shaped_of_ironCondor kind shaped).1
  case calendar => exact shaped_of_twoExpiry (.inl kind) shaped
  case diagonal => exact shaped_of_twoExpiry (.inr kind) shaped

theorem limit_lt_width (shaped : struct.shape = .ok ⟨⟩) {width : ℚ}
    (isWidth : struct.width = some width) : struct.limit < width := by
  have above : (∃ width, struct.width = some width ∧ struct.limit < width) →
      struct.limit < width := by
    rintro ⟨width', isWidth', below⟩
    rw [isWidth] at isWidth'
    cases isWidth'
    exact below
  rw [StructureFields.shape] at shaped
  cases kind : struct.kind <;> rw [kind] at shaped
  case debitVertical => exact above (shaped_of_vertical (.inl kind) shaped).2
  case creditVertical => exact above (shaped_of_vertical (.inr kind) shaped).2
  case ironCondor => exact above (shaped_of_ironCondor kind shaped).2
  all_goals
    rw [StructureFields.width, kind] at isWidth
    cases isWidth

theorem exists_width (shaped : struct.shape = .ok ⟨⟩) (credit : struct.isCredit = true) :
    ∃ width, struct.width = some width := by
  rw [StructureFields.shape] at shaped
  rw [StructureFields.isCredit] at credit
  cases kind : struct.kind <;> rw [kind] at shaped credit
  case creditVertical =>
    obtain ⟨width, isWidth, -⟩ := (shaped_of_vertical (.inr kind) shaped).2
    exact ⟨width, isWidth⟩
  case ironCondor =>
    obtain ⟨width, isWidth, -⟩ := (shaped_of_ironCondor kind shaped).2
    exact ⟨width, isWidth⟩
  all_goals exact absurd credit (by decide)

end

end TreeOptions.Trex
