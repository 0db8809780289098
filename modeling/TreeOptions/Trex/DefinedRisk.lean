import TreeOptions.Trex.Payoff

/-!
# Defined risk by construction

Every structure that passes its checks has a package that is worth nothing at some spot
and less than nothing at none. Entered at its limit it loses at worst
`maxLossPerPackage`, and no opening and closing price that `validatePackageOrder`
accepts lose more (`definedRisk`).

For a credit kind the worst loss is the width less the floor, and both differences are
taken in decimal arithmetic. They have to need no more digits than the precision
(`Exact`), which prices on one grid do (`exact_of_onGrid`).
-/

set_option autoImplicit false

namespace TreeOptions.Trex

open Checked Decimal

/-! ## The bounds of a package -/

section

variable {struct : StructureFields}

theorem zero_lt_strike (leg : Leg) : (0 : ℝ) < leg.strike :=
  Rat.cast_pos.mpr leg.strike_pos

theorem valueAt_condor {put put' call call' : Leg} (puts : SpreadOf .put put put')
    (calls : SpreadOf .call call call')
    (legs : struct.packageLegs.Perm [put, put', call, call']) (spot : ℝ) :
    valueAt struct.packageLegs spot =
      spread .put put.strike put'.strike spot + spread .call call.strike call'.strike spot := by
  rw [valueAt_perm legs, ← puts.valueAt, ← calls.valueAt]
  simp [valueAt, add_assoc]

theorem valueAt_spread {right : Right} {long short : Leg} (isSpread : SpreadOf right long short)
    (legs : struct.packageLegs.Perm [long, short]) (spot : ℝ) :
    valueAt struct.packageLegs spot = spread right long.strike short.strike spot := by
  rw [valueAt_perm legs, ← isSpread.valueAt]
  simp [valueAt]

theorem valueAt_single {leg : Leg} (bought : leg.action = .buy)
    (legs : struct.packageLegs = [leg]) (spot : ℝ) :
    valueAt struct.packageLegs spot = intrinsic leg.right leg.strike spot := by
  rw [legs, ← Leg.valueAt_bought bought]
  simp [valueAt]

/-- **No package is worth less than nothing.** -/
theorem valueAt_nonneg (shaped : Shaped struct) (spot : ℝ) :
    0 ≤ valueAt struct.packageLegs spot := by
  cases shaped with
  | single leg _ bought legs =>
    rw [valueAt_single bought legs]
    exact intrinsic_nonneg _ _ _
  | spread right long short isSpread legs _ =>
    rw [valueAt_spread isSpread legs]
    exact spread_nonneg isSpread.covers spot
  | condor put put' call call' _ puts calls _ legs _ =>
    rw [valueAt_condor puts calls legs]
    exact add_nonneg (spread_nonneg puts.covers spot) (spread_nonneg calls.covers spot)

/-- The values of the package over the spots. -/
def values (struct : StructureFields) : Set ℝ :=
  valueAt struct.packageLegs '' Set.Ici 0

/-- **A package may be worth nothing.** -/
theorem isLeast_values (shaped : Shaped struct) : IsLeast (values struct) 0 := by
  constructor
  · cases shaped with
    | single leg _ bought legs =>
      obtain ⟨spot, positive, worthless⟩ :=
        exists_intrinsic_eq_zero leg.right (zero_lt_strike leg)
      refine ⟨spot, positive, ?_⟩
      rw [valueAt_single bought legs, worthless]
    | spread right long short isSpread legs _ =>
      refine ⟨long.strike, (zero_lt_strike long).le, ?_⟩
      rw [valueAt_spread isSpread legs]
      exact spread_eq_zero isSpread.covers (.refl _ _)
    | condor put put' call call' _ puts calls apart legs _ =>
      refine ⟨put.strike, (zero_lt_strike put).le, ?_⟩
      have below : Right.call.Covers put.strike call.strike := Rat.cast_le.mpr apart.le
      rw [valueAt_condor puts calls legs, spread_eq_zero puts.covers (.refl _ _),
        spread_eq_zero calls.covers below, add_zero]
  · rintro _ ⟨spot, -, rfl⟩
    exact valueAt_nonneg shaped spot

/-- No difference that bounds the loss is rounded. -/
structure StructureFields.Exact (struct : StructureFields) : Prop where
  strikes : ∀ first ∈ struct.legs, ∀ second ∈ struct.legs, first.right = second.right →
    sub first.strike second.strike = first.strike - second.strike
  floor : ∀ width, struct.width = some width → sub width struct.limit = width - struct.limit

theorem exists_leg {leg : Leg} (member : leg ∈ struct.packageLegs) :
    ∃ authored ∈ struct.legs, authored.right = leg.right ∧ authored.strike = leg.strike := by
  rw [StructureFields.packageLegs] at member
  split at member
  · obtain ⟨authored, inside, rfl⟩ := List.mem_map.mp member
    exact ⟨authored, inside, rfl, rfl⟩
  · exact ⟨leg, member, rfl, rfl⟩

theorem StructureFields.Exact.sub_eq (exact : struct.Exact) {first second : Leg}
    (inFirst : first ∈ struct.packageLegs) (inSecond : second ∈ struct.packageLegs)
    (rights : first.right = second.right) :
    sub first.strike second.strike = first.strike - second.strike := by
  obtain ⟨leg, member, right, strike⟩ := exists_leg inFirst
  obtain ⟨leg', member', right', strike'⟩ := exists_leg inSecond
  rw [← strike, ← strike']
  refine exact.strikes leg member leg' member' ?_
  rw [right, right', rights]

/-- The spreads of a condor are never worth something at once. -/
theorem valueAt_condor_le {put put' call call' : Leg} (puts : SpreadOf .put put put')
    (calls : SpreadOf .call call call') (apart : put.strike < call.strike) (spot : ℝ) :
    spread .put put.strike put'.strike spot + spread .call call.strike call'.strike spot ≤
      max |(put.strike : ℝ) - put'.strike| |(call.strike : ℝ) - call'.strike| := by
  rcases le_total spot call.strike with below | above
  · rw [spread_eq_zero calls.covers below, add_zero]
    exact (spread_le puts.covers spot).trans (le_max_left _ _)
  · have through : Right.put.Covers spot put.strike :=
      (Rat.cast_le.mpr apart.le).trans above
    rw [spread_eq_zero puts.covers through, zero_add]
    exact (spread_le calls.covers spot).trans (le_max_right _ _)

/-- **A credit package may be worth its width, and no more.** -/
theorem isGreatest_values (shaped : Shaped struct) (credit : struct.isCredit = true)
    (exact : struct.Exact) {width : ℚ} (isWidth : struct.width = some width) :
    IsGreatest (values struct) width := by
  cases shaped with
  | single leg kind _ _ =>
    rw [StructureFields.isCredit, kind] at credit
    exact absurd credit (by decide)
  | spread right long short isSpread legs width' =>
    have inside : ∀ leg ∈ [long, short], leg ∈ struct.packageLegs := fun leg member =>
      legs.mem_iff.mpr member
    have difference := exact.sub_eq (inside long (by simp)) (inside short (by simp))
      (isSpread.long_right.trans isSpread.short_right.symm)
    rw [width' credit, difference, Option.some.injEq] at isWidth
    have distance : (width : ℝ) = |(long.strike : ℝ) - short.strike| := by
      rw [← isWidth, Rat.cast_abs, Rat.cast_sub]
    rw [distance]
    constructor
    · refine ⟨short.strike, (zero_lt_strike short).le, ?_⟩
      rw [valueAt_spread isSpread legs, spread_eq_width isSpread.covers (.refl _ _)]
    · rintro _ ⟨spot, -, rfl⟩
      rw [valueAt_spread isSpread legs]
      exact spread_le isSpread.covers spot
  | condor put put' call call' _ puts calls apart legs width' =>
    have inside : ∀ leg ∈ [put, put', call, call'], leg ∈ struct.packageLegs :=
      fun leg member => legs.mem_iff.mpr member
    have putWing := exact.sub_eq (inside put (by simp)) (inside put' (by simp))
      (puts.long_right.trans puts.short_right.symm)
    have callWing := exact.sub_eq (inside call' (by simp)) (inside call (by simp))
      (calls.short_right.trans calls.long_right.symm)
    rw [width', putWing, callWing, Option.some.injEq] at isWidth
    have putOrder : (put'.strike : ℝ) ≤ put.strike := puts.covers
    have callOrder : (call.strike : ℝ) ≤ call'.strike := calls.covers
    have apart' : (put.strike : ℝ) < call.strike := Rat.cast_lt.mpr apart
    have distance : (width : ℝ) =
        max |(put.strike : ℝ) - put'.strike| |(call.strike : ℝ) - call'.strike| := by
      rw [← isWidth, Rat.cast_max, Rat.cast_sub, Rat.cast_sub,
        abs_of_nonneg (sub_nonneg.mpr putOrder), abs_of_nonpos (sub_nonpos.mpr callOrder),
        neg_sub]
    rw [distance]
    constructor
    · -- the wider wing decides on which side the condor is worth the most
      rcases max_choice |(put.strike : ℝ) - put'.strike| |(call.strike : ℝ) - call'.strike|
        with wider | wider
      · have below : Right.call.Covers put'.strike call.strike := putOrder.trans apart'.le
        refine ⟨put'.strike, (zero_lt_strike put').le, ?_⟩
        rw [valueAt_condor puts calls legs, spread_eq_width puts.covers (.refl _ _),
          spread_eq_zero calls.covers below, add_zero, wider]
      · have above : Right.put.Covers call'.strike put.strike := apart'.le.trans callOrder
        refine ⟨call'.strike, (zero_lt_strike call').le, ?_⟩
        rw [valueAt_condor puts calls legs, spread_eq_width calls.covers (.refl _ _),
          spread_eq_zero puts.covers above, zero_add, wider]
    · rintro _ ⟨spot, -, rfl⟩
      rw [valueAt_condor puts calls legs]
      exact valueAt_condor_le puts calls apart spot

/-! ## What a structure may lose -/

/-- The result of one package entered at the limit, from its value at expiry. -/
noncomputable def StructureFields.expiryPnl (struct : StructureFields) (spot : ℝ) : ℝ :=
  valueAt struct.legs spot - struct.direction * struct.limit

/-- The package is worth nothing or more, in debit orientation. -/
def StructureFields.NeverNegative (struct : StructureFields) : Prop :=
  ∀ spot, 0 ≤ spot → 0 ≤ valueAt struct.packageLegs spot

/-- The worst result over all spots is the loss of the schema. -/
def StructureFields.WorstIsMaxLoss (struct : StructureFields) : Prop :=
  ∃ loss, struct.maxLossPerPackage = some loss ∧
    IsLeast (struct.expiryPnl '' Set.Ici 0) (-loss : ℚ)

/-- An opening and a closing price that are accepted lose no more than that. -/
def StructureFields.RealizesAtMostMaxLoss (struct : StructureFields) : Prop :=
  ∀ qty qty' opening closing,
    validatePackageOrder struct struct.openSide.value qty opening = .ok ⟨⟩ →
    validatePackageOrder struct struct.closeSide.value qty' closing = .ok ⟨⟩ →
    ∃ loss opened closed, struct.maxLossPerPackage = some loss ∧
      opening = .finite opened ∧ closing = .finite closed ∧
      struct.direction * (opened - closed) ≤ loss

/-- The loss of a debit kind is its cap, that of a credit kind its width less the floor. -/
theorem maxLossPerPackage_eq (shaped : struct.shape = .ok ⟨⟩) :
    (struct.isCredit = false ∧ struct.maxLossPerPackage = some struct.limit) ∨
      ∃ width, struct.isCredit = true ∧ struct.width = some width ∧
        struct.maxLossPerPackage = some (sub width struct.limit) := by
  rw [StructureFields.maxLossPerPackage]
  cases credit : struct.isCredit with
  | false => exact .inl ⟨rfl, rfl⟩
  | true =>
    obtain ⟨width, isWidth⟩ := exists_width shaped credit
    refine .inr ⟨width, rfl, isWidth, ?_⟩
    rw [isWidth]
    rfl

theorem expiryPnl_eq (spot : ℝ) :
    struct.expiryPnl spot =
      struct.direction * (valueAt struct.packageLegs spot - struct.limit) := by
  have square : (struct.direction : ℝ) * struct.direction = 1 := by
    rw [StructureFields.direction]
    split <;> norm_num
  rw [valueAt_packageLegs, StructureFields.expiryPnl, mul_sub, ← mul_assoc, square, one_mul]

theorem worstIsMaxLoss (shaped : struct.shape = .ok ⟨⟩)
    (exact : struct.isCredit = true → struct.Exact) : struct.WorstIsMaxLoss := by
  have isShaped := shaped_of_shape shaped
  rcases maxLossPerPackage_eq shaped with ⟨debit, isLoss⟩ | ⟨width, credit, isWidth, isLoss⟩
  · have pnl : ∀ spot, struct.expiryPnl spot = valueAt struct.packageLegs spot - struct.limit := by
      intro spot
      rw [expiryPnl_eq, StructureFields.direction, debit]
      norm_num
    obtain ⟨⟨spot, positive, worthless⟩, least⟩ := isLeast_values isShaped
    refine ⟨struct.limit, isLoss, ⟨spot, positive, ?_⟩, ?_⟩
    · rw [pnl, worthless, zero_sub, Rat.cast_neg]
    · rintro _ ⟨other, positive', rfl⟩
      have := least ⟨other, positive', rfl⟩
      rw [pnl, Rat.cast_neg]
      linarith
  · have pnl : ∀ spot, struct.expiryPnl spot = struct.limit - valueAt struct.packageLegs spot := by
      intro spot
      rw [expiryPnl_eq, StructureFields.direction, credit]
      norm_num
    have isExact := exact credit
    obtain ⟨⟨spot, positive, most⟩, greatest⟩ :=
      isGreatest_values isShaped credit isExact isWidth
    refine ⟨_, isLoss, ⟨spot, positive, ?_⟩, ?_⟩
    · rw [pnl, most, isExact.floor width isWidth]
      push_cast
      ring
    · rintro _ ⟨other, positive', rfl⟩
      have := greatest ⟨other, positive', rfl⟩
      rw [pnl, isExact.floor width isWidth]
      push_cast
      linarith

theorem realizesAtMostMaxLoss (shaped : struct.shape = .ok ⟨⟩)
    (exact : struct.isCredit = true → struct.Exact) : struct.RealizesAtMostMaxLoss := by
  intro qty qty' opening closing opens closes
  obtain ⟨-, -, opened, rfl, -, floor, cap⟩ := validatePackageOrder_open.mp opens
  obtain ⟨-, -, closed, rfl, positive, most⟩ := validatePackageOrder_close.mp closes
  rcases maxLossPerPackage_eq shaped with ⟨debit, isLoss⟩ | ⟨width, credit, isWidth, isLoss⟩
  · refine ⟨_, opened, closed, isLoss, rfl, rfl, ?_⟩
    have paid := cap debit
    rw [StructureFields.direction, debit]
    norm_num
    linarith
  · refine ⟨_, opened, closed, isLoss, rfl, rfl, ?_⟩
    have received := floor credit
    obtain ⟨width', isWidth', paid⟩ := most credit
    rw [isWidth] at isWidth'
    cases isWidth'
    rw [StructureFields.direction, credit, (exact credit).floor width isWidth]
    norm_num
    linarith

end

/-! ## Prices on a grid -/

/-- A number of units in the precision, each a power of ten. -/
def OnGrid (unit : ℤ) (x : ℚ) : Prop :=
  ∃ m : ℤ, |m| < 10 ^ precision ∧ x = m * 10 ^ unit

variable {unit : ℤ}

theorem sub_of_onGrid {x y : ℚ} (first : OnGrid unit x) (second : OnGrid unit y) (positive : 0 < x)
    (positive' : 0 < y) : sub x y = x - y ∧ OnGrid unit (x - y) := by
  obtain ⟨m, short, rfl⟩ := first
  obtain ⟨n, short', rfl⟩ := second
  have scale : (0 : ℚ) < 10 ^ unit := zpow_pos (by norm_num) unit
  have mPos : 0 < m := Int.cast_pos.mp (pos_of_mul_pos_left positive scale.le)
  have nPos : 0 < n := Int.cast_pos.mp (pos_of_mul_pos_left positive' scale.le)
  have difference : (m * 10 ^ unit - n * 10 ^ unit : ℚ) = (m - n : ℤ) * 10 ^ unit := by
    push_cast
    ring
  have bound : |m - n| < 10 ^ precision := by
    rw [abs_lt] at *
    omega
  rw [sub, difference]
  exact ⟨roundContext_of_digits bound, _, bound, rfl⟩

theorem onGrid_max {x y : ℚ} (first : OnGrid unit x) (second : OnGrid unit y) :
    OnGrid unit (max x y) := by
  rcases max_choice x y with same | same
  · rw [same]
    exact first
  · rw [same]
    exact second

theorem onGrid_abs {x : ℚ} (grid : OnGrid unit x) : OnGrid unit |x| := by
  obtain ⟨m, short, rfl⟩ := grid
  have scale : (0 : ℚ) < 10 ^ unit := zpow_pos (by norm_num) unit
  refine ⟨|m|, ?_, ?_⟩
  · rw [abs_abs]
    exact short
  · rw [abs_mul, abs_of_pos scale, Int.cast_abs]

theorem condorWings_eq_some {legs : List Leg} {putWing callWing : ℚ}
    (wings : condorWings legs = some (putWing, callWing)) :
    ∃ put ∈ legs, ∃ put' ∈ legs, ∃ call ∈ legs, ∃ call' ∈ legs,
      putWing = sub put'.strike put.strike ∧ callWing = sub call'.strike call.strike := by
  have inside : ∀ leg, leg ∈ legs ↔ leg ∈ putsOf legs ++ callsOf legs := fun leg =>
    (perm_putsOf_append_callsOf legs).mem_iff
  rw [condorWings] at wings
  split at wings
  case h_1 put put' _ call call' _ puts calls =>
    obtain ⟨rfl, rfl⟩ := Prod.mk.inj (Option.some.inj wings)
    refine ⟨put, ?_, put', ?_, call, ?_, call', ?_, rfl, rfl⟩
    all_goals
      rw [inside, puts, calls]
      simp
  case h_2 => cases wings

/-- **Prices on one grid are exact.** -/
theorem exact_of_onGrid (struct : LegStructure)
    (strikes : ∀ leg ∈ struct.legs, OnGrid unit leg.strike) (limit : OnGrid unit struct.limit) :
    struct.Exact := by
  have difference : ∀ first ∈ struct.legs, ∀ second ∈ struct.legs,
      sub first.strike second.strike = first.strike - second.strike ∧
        OnGrid unit (sub first.strike second.strike) := by
    intro first member second member'
    obtain ⟨exact, grid⟩ := sub_of_onGrid (strikes first member) (strikes second member')
      first.strike_pos second.strike_pos
    exact ⟨exact, exact ▸ grid⟩
  constructor
  · intro first member second member' _
    exact (difference first member second member').1
  · intro width isWidth
    have grid : OnGrid unit width := by
      have isWidth' := isWidth
      rw [StructureFields.width] at isWidth'
      split at isWidth'
      case h_1 | h_2 =>
        split at isWidth'
        case h_1 first second legs =>
          rw [← Option.some.inj isWidth']
          exact onGrid_abs (difference first (by simp [legs]) second (by simp [legs])).2
        case h_2 => cases isWidth'
      case h_3 =>
        obtain ⟨⟨putWing, callWing⟩, wings, rfl⟩ := Option.map_eq_some_iff.mp isWidth'
        obtain ⟨put, inPut, put', inPut', call, inCall, call', inCall', rfl, rfl⟩ :=
          condorWings_eq_some wings
        exact onGrid_max (difference put' inPut' put inPut).2
          (difference call' inCall' call inCall).2
      all_goals cases isWidth'
    have positive := struct.limit_pos.trans (limit_lt_width struct.shape_ok isWidth)
    exact (sub_of_onGrid grid limit positive struct.limit_pos).1

/-! ## Two spreads -/

theorem sampleStrike_pos : (0 : ℚ) < 1 := by
  decide

theorem sampleLimit_pos : (0 : ℚ) < 1 / 2 := by
  norm_num

/-- A short call at one against a long call at three. -/
def verticalFields (limit : ℚ) (positive : 0 < limit) : StructureFields where
  id := "p"
  underlying := "SPY"
  kind := .creditVertical
  legs := [⟨.call, .sell, 1, 2, sampleStrike_pos⟩, ⟨.call, .buy, 3, 2, by decide⟩]
  quantity := 1
  entryDate := 0
  exitDeadline := 1
  limit := limit
  exits := { touch := false, breach := false }
  id_nonempty := by decide
  underlying_nonempty := by decide
  legs_nonempty := by decide
  quantity_pos := by decide
  limit_pos := positive
  refMid_pos := by simp

theorem sub_three_one : sub 3 1 = 2 := by
  have two := roundContext_of_digits (m := 2) (k := 0) (by decide)
  norm_num at two
  norm_num [sub, two]

theorem valid_verticalFields {limit : ℚ} (positive : 0 < limit) (below : limit < 2) :
    (verticalFields limit positive).validateStructure = .ok ⟨⟩ := by
  have shape : (verticalFields limit positive).shape = .ok ⟨⟩ := by
    simp [StructureFields.shape, StructureFields.shapeVertical, verticalFields, oneOfEach,
      sub_three_one, refuse_eq_ok, refuse_bind_eq_ok, below]
  simp only [StructureFields.validateStructure, bind_eq_ok, refuse_eq_ok, shape]
  refine ⟨⟨⟩, rfl, ⟨⟩, ?_, ⟨⟩, rfl, ⟨⟩, rfl, ⟨⟩, ?_, ⟨⟩, ?_, ⟨⟩, trivial, rfl⟩
  · simp [verticalFields]
  · simp [verticalFields, StructureFields.firstExpiry]
  · simp [verticalFields]

def vertical (limit : ℚ) (positive : 0 < limit) (below : limit < 2) : LegStructure :=
  ⟨verticalFields limit positive, valid_verticalFields positive below⟩

theorem maxLoss_vertical {limit : ℚ} (positive : 0 < limit) (below : limit < 2) :
    (vertical limit positive below).width = some 2 ∧
      (vertical limit positive below).maxLossPerPackage = some (sub 2 limit) := by
  have width : (vertical limit positive below).width = some 2 := by
    change some |sub 1 3| = some 2
    rw [abs_sub_comm, sub_three_one]
    norm_num
  refine ⟨width, ?_⟩
  rw [StructureFields.maxLossPerPackage, width]
  rfl

/-- Sold at a half. -/
def halfVertical : LegStructure :=
  vertical (1 / 2) sampleLimit_pos (by norm_num)

/-- Sold below a unit of the last digit of its width. -/
def tinyVertical : LegStructure :=
  vertical (6 / 10 ^ 28) (by norm_num) (by norm_num)

theorem exact_halfVertical : halfVertical.Exact := by
  have strikes : ∀ leg ∈ halfVertical.legs, OnGrid (-1) leg.strike := by
    change ∀ leg ∈ [(⟨.call, .sell, 1, 2, by decide⟩ : Leg), ⟨.call, .buy, 3, 2, by decide⟩],
      OnGrid (-1) leg.strike
    rw [List.forall_mem_cons, List.forall_mem_singleton]
    exact ⟨⟨10, by decide, by norm_num⟩, ⟨30, by decide, by norm_num⟩⟩
  have limit : OnGrid (-1) halfVertical.limit := by
    change OnGrid (-1) (1 / 2)
    exact ⟨5, by decide, by norm_num⟩
  exact exact_of_onGrid halfVertical strikes limit

/-- A difference that is rounded down. -/
theorem sub_tiny : sub 2 (6 / 10 ^ 28) = 2 - 1 / 10 ^ 27 := by
  have size : |(2 - 6 / 10 ^ 28 : ℚ)| = 2 - 6 / 10 ^ 28 := abs_of_pos (by norm_num)
  have low : 10 ^ (0 : ℤ) ≤ |(2 - 6 / 10 ^ 28 : ℚ)| := by
    rw [size]
    norm_num
  have high : |(2 - 6 / 10 ^ 28 : ℚ)| < 10 ^ (0 + 1 : ℤ) := by
    rw [size]
    norm_num
  have unit : lastDigit (2 - 6 / 10 ^ 28) = 1 / 10 ^ 27 := by
    rw [lastDigit_eq low high]
    norm_num [precision]
  have near : roundHalfEven ((2 - 6 / 10 ^ 28) / (1 / 10 ^ 27)) = 2 * 10 ^ 27 - 1 :=
    roundHalfEven_of_lt (by norm_num) (by norm_num)
  rw [sub, roundContext, unit, near]
  norm_num

theorem expiryPnl_tinyVertical : tinyVertical.expiryPnl 3 = 6 / 10 ^ 28 - 2 := by
  simp [StructureFields.expiryPnl, tinyVertical, vertical, verticalFields, valueAt, Leg.valueAt,
    Leg.sign, intrinsic, StructureFields.direction, StructureFields.isCredit, creditKinds]
  norm_num

/-- **Defined risk.** -/
theorem definedRisk (struct : LegStructure) : struct.NeverNegative ∧
    ((struct.isCredit = true → struct.Exact) →
      struct.WorstIsMaxLoss ∧ struct.RealizesAtMostMaxLoss) := by
  refine ⟨?_, ?_⟩
  · intro spot _
    exact valueAt_nonneg (shaped_of_shape struct.shape_ok) spot
  · intro exact
    exact ⟨worstIsMaxLoss struct.shape_ok exact, realizesAtMostMaxLoss struct.shape_ok exact⟩

/-- A call spread with strikes one and three, sold at a half. -/
theorem definedRisk_sample : halfVertical.NeverNegative ∧ halfVertical.WorstIsMaxLoss ∧
    halfVertical.RealizesAtMostMaxLoss := by
  obtain ⟨nonneg, bounded⟩ := definedRisk halfVertical
  exact ⟨nonneg, bounded fun _ => exact_halfVertical⟩

/-- Sold below a unit of the last digit, it loses more than the schema says. -/
theorem loses_more_than_maxLoss :
    ¬ tinyVertical.WorstIsMaxLoss ∧ ¬ tinyVertical.RealizesAtMostMaxLoss := by
  obtain ⟨width, isLoss⟩ : tinyVertical.width = some 2 ∧
      tinyVertical.maxLossPerPackage = some (sub 2 (6 / 10 ^ 28)) :=
    maxLoss_vertical (by norm_num) (by norm_num)
  rw [sub_tiny] at isLoss
  constructor
  · rintro ⟨loss, isLoss', -, least⟩
    rw [isLoss] at isLoss'
    obtain rfl := Option.some.inj isLoss'
    have worse := least ⟨3, by norm_num, expiryPnl_tinyVertical⟩
    norm_num at worse
  · intro realizes
    have opening : validatePackageOrder tinyVertical.toStructureFields
        tinyVertical.openSide.value 1 (.finite (6 / 10 ^ 28)) = .ok ⟨⟩ :=
      validatePackageOrder_open.mpr
        ⟨by decide, le_refl 1, _, rfl, by norm_num, fun _ => le_refl _,
          fun debit => absurd debit (by decide)⟩
    have closing : validatePackageOrder tinyVertical.toStructureFields
        tinyVertical.closeSide.value 1 (.finite 2) = .ok ⟨⟩ :=
      validatePackageOrder_close.mpr
        ⟨by decide, le_refl 1, _, rfl, by norm_num, fun _ => ⟨2, width, le_refl 2⟩⟩
    obtain ⟨loss, opened, closed, isLoss', opens, closes, most⟩ := realizes 1 1 _ _ opening closing
    rw [isLoss] at isLoss'
    obtain rfl := Option.some.inj isLoss'
    cases opens
    cases closes
    have direction : tinyVertical.direction = -1 := rfl
    rw [direction] at most
    norm_num at most

end TreeOptions.Trex
