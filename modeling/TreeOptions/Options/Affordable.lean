import TreeOptions.Guards.Stress
import TreeOptions.Options.Strategy

/-!
# What a budget affords

`affordableContracts` divides the budget by the price of a contract and sixty-five cents, and
walks down from there. Walking down finds the greatest count that fits below the start
(`lowerEstimate_spec`). The start itself knows the fees of the default model alone: with a lower
fee for each contract, counts above it fit too, and are never tried.

So the result is the greatest affordable count just where one contract more than the
estimate is beyond the cap or the budget (`affordable_iff`), and that is so for every model whose
fee is at least the sixty-five cents (`unaffordable_of_fee`).
-/

set_option autoImplicit false

namespace TreeOptions.Options

open Checked Decimal Guards

/-- What an order of some contracts costs with its fees, as the decimal context adds it up. -/
def orderCost (perContract : ℚ) (count : ℕ) (fees : ℚ) : ℚ :=
  add (mul perContract count) fees

/-- The price of some contracts and the fees for them fit the budget. -/
def Affords (model : PerContractFeeModel) (budget ask : ℚ) (multiplier : ℤ) (count : ℕ) : Prop :=
  ∃ fees, feesOf model count = .ok fees ∧ orderCost (mul ask multiplier) count fees ≤ budget

/-- The closed form the search starts from: the budget over the price and sixty-five cents. -/
def closedForm (budget ask : ℚ) (multiplier : ℤ) : ℕ :=
  ⌊roundContext (budget / add (mul ask multiplier) (65 / 100))⌋.toNat

/-- The closed form is not below a count that fits: one more contract is beyond the cap or the
budget, and the fees of the start are a number. Where there is nothing to spend or nothing
asked, no count fits. -/
def EstimateReaches (model : PerContractFeeModel) (budget ask : ℚ) (multiplier : ℤ) (cap : ℕ) :
    Prop :=
  if budget ≤ 0 ∨ ask ≤ 0 ∨ cap < 1 then
    ∀ count, 0 < count → count ≤ cap → ¬ Affords model budget ask multiplier count
  else
    (0 < min cap (closedForm budget ask multiplier) →
        ∃ fees, feesOf model (min cap (closedForm budget ask multiplier)) = .ok fees) ∧
      (cap ≤ closedForm budget ask multiplier ∨
        ¬ Affords model budget ask multiplier (closedForm budget ask multiplier + 1))

/-- The counts up to a cap that are nothing or fit. -/
def affordableCounts (model : PerContractFeeModel) (budget ask : ℚ) (multiplier : ℤ) (cap : ℕ) :
    Set ℕ :=
  {count | count ≤ cap ∧ (count = 0 ∨ Affords model budget ask multiplier count)}

/-! ## Costs grow -/

section Costs

variable {model : PerContractFeeModel} {budget ask : ℚ} {multiplier : ℤ}

theorem priceTick_of_le {x y q : ℚ} (nonneg : 0 ≤ x) (le : x ≤ y) (ticked : priceTick y = .ok q) :
    ∃ p, priceTick x = .ok p ∧ p ≤ q := by
  have size : |roundHalfEven (x * 100)| < 10 ^ precision := by
    rw [priceTick] at ticked
    split at ticked
    case h_1 => cases ticked
    case h_2 rounded quantized =>
      rw [quantizeCents, Option.ite_none_right_eq_some] at quantized
      have low := roundHalfEven_mono (by push_cast; linarith : ((0 : ℤ) : ℚ) ≤ x * 100)
      have high := roundHalfEven_mono (by linarith : x * 100 ≤ y * 100)
      rw [roundHalfEven_intCast] at low
      rw [abs_of_nonneg low]
      exact high.trans_lt ((le_abs_self _).trans_lt quantized.1)
  have isPrice : priceTick x = .ok (roundHalfEven (x * 100) / 100) := by
    rw [priceTick, quantizeCents, if_pos size]
  exact ⟨_, isPrice, priceTick_mono le isPrice ticked⟩

/-- **The fees of fewer contracts are defined where those of more are, and no higher.** -/
theorem feesOf_mono {count count' : ℕ} {fees' : ℚ} (positive : 0 < count) (le : count ≤ count')
    (charged : feesOf model count' = .ok fees') :
    ∃ fees, feesOf model count = .ok fees ∧ fees ≤ fees' := by
  have raw : max (mul model.feePerContract count) model.minimumPerOrder ≤
      max (mul model.feePerContract count') model.minimumPerOrder :=
    max_le_max_right _ (roundContext_monotone
      (mul_le_mul_of_nonneg_left (by exact_mod_cast le) model.feePerContract_nonneg))
  obtain ⟨-, ticked⟩ := refuse_bind_eq_ok.mp (mapError_eq_ok.mp charged)
  have nonneg : 0 ≤ max (mul model.feePerContract ((count : ℤ) : ℚ)) model.minimumPerOrder :=
    le_max_of_le_right model.minimumPerOrder_nonneg
  obtain ⟨fees, isFees, lower⟩ := priceTick_of_le nonneg (by exact_mod_cast raw) ticked
  refine ⟨fees, mapError_eq_ok.mpr (refuse_bind_eq_ok.mpr ⟨?_, isFees⟩), lower⟩
  omega

theorem affords_mono {count count' : ℕ} (priced : 0 ≤ ask) (sized : 0 ≤ multiplier)
    (positive : 0 < count) (le : count ≤ count')
    (affords : Affords model budget ask multiplier count') :
    Affords model budget ask multiplier count := by
  obtain ⟨fees', charged, fits⟩ := affords
  obtain ⟨fees, isFees, lower⟩ := feesOf_mono positive le charged
  refine ⟨fees, isFees, le_trans ?_ fits⟩
  have perContract : 0 ≤ mul ask multiplier :=
    roundContext_nonneg (mul_nonneg priced (by exact_mod_cast sized))
  have prices : mul (mul ask multiplier) count ≤ mul (mul ask multiplier) count' :=
    roundContext_monotone (mul_le_mul_of_nonneg_left (by exact_mod_cast le) perContract)
  exact roundContext_monotone (add_le_add prices lower)

/-! ## The search -/

/-- **Walking down finds the greatest count that fits.** The induction is on the start. -/
theorem lowerEstimate_spec (start : ℕ)
    (defined : 0 < start → ∃ fees, feesOf model start = .ok fees) :
    ∃ count, lowerEstimate model budget (mul ask multiplier) start = .ok count ∧
      IsGreatest (affordableCounts model budget ask multiplier start) count := by
  induction start with
  | zero => exact ⟨0, rfl, ⟨le_rfl, .inl rfl⟩, fun count member => member.1⟩
  | succ start ih =>
    obtain ⟨fees, isFees⟩ := defined (Nat.succ_pos start)
    by_cases beyond : budget < orderCost (mul ask multiplier) (start + 1) fees
    · have smaller : 0 < start → ∃ fees, feesOf model start = .ok fees := by
        intro positive
        obtain ⟨lower, isLower, -⟩ := feesOf_mono positive (Nat.le_succ start) isFees
        exact ⟨lower, isLower⟩
      obtain ⟨count, isCount, member, greatest⟩ := ih smaller
      refine ⟨count, ?_, ⟨member.1.trans (Nat.le_succ start), member.2⟩, ?_⟩
      · rw [lowerEstimate]
        refine bind_eq_ok.mpr ⟨fees, isFees, ?_⟩
        rw [if_pos (by exact_mod_cast beyond)]
        exact isCount
      · rintro other ⟨le, affordable⟩
        rcases le.lt_or_eq with less | rfl
        · exact greatest ⟨Nat.lt_succ_iff.mp less, affordable⟩
        · rcases affordable with zero | ⟨fees', isFees', fits⟩
          · cases zero
          · cases isFees.symm.trans isFees'
            exact absurd beyond (not_lt.mpr (by exact_mod_cast fits))
    · refine ⟨start + 1, ?_, ⟨le_rfl, .inr ⟨fees, isFees, ?_⟩⟩, fun count member => member.1⟩
      · rw [lowerEstimate]
        refine bind_eq_ok.mpr ⟨fees, isFees, ?_⟩
        rw [if_neg (by exact_mod_cast beyond)]
        rfl
      · exact_mod_cast not_lt.mp beyond

theorem defined_of_lowerEstimate {start count : ℕ} {perContract : ℚ}
    (found : lowerEstimate model budget perContract start = .ok count) (positive : 0 < start) :
    ∃ fees, feesOf model start = .ok fees := by
  cases start with
  | zero => cases positive
  | succ start =>
    obtain ⟨fees, isFees, -⟩ := bind_eq_ok.mp found
    exact ⟨fees, isFees⟩

theorem affordableContracts_eq {cap : ℕ} (priced : 0 < ask) (funded : 0 < budget) (some : 1 ≤ cap)
    (sized : 0 < multiplier) :
    affordableContracts model budget ask multiplier cap =
      lowerEstimate model budget (mul ask multiplier)
        (min cap (closedForm budget ask multiplier)) := by
  have perContract : 0 ≤ mul ask multiplier :=
    roundContext_nonneg (mul_nonneg priced.le (by exact_mod_cast sized.le))
  have feeKept : roundContext (65 / 100) = 65 / 100 :=
    roundContext_of_cents (mem_cents_iff.mpr ⟨65, by norm_num⟩) (by norm_num [abs_of_pos])
  have divisor : add (mul ask multiplier) (65 / 100) ≠ 0 := by
    have kept := roundContext_monotone (le_add_of_nonneg_left perContract :
      (65 / 100 : ℚ) ≤ mul ask multiplier + 65 / 100)
    rw [feeKept] at kept
    exact (lt_of_lt_of_le (by norm_num) kept).ne'
  rw [affordableContracts, if_neg (by
    rintro (spent | free | none)
    · exact absurd funded (not_lt.mpr spent)
    · exact absurd priced (not_lt.mpr free)
    · omega), div?, if_neg divisor]
  rfl

end Costs

/-- **A budget affords what the search finds** just where the closed form does not start below
it. -/
theorem affordable_iff (model : PerContractFeeModel) (budget ask : ℚ) (multiplier : ℤ) (cap : ℕ)
    (sized : 0 < multiplier) :
    (∃ count, affordableContracts model budget ask multiplier cap = .ok count ∧
        IsGreatest (affordableCounts model budget ask multiplier cap) count) ↔
      EstimateReaches model budget ask multiplier cap := by
  by_cases guarded : budget ≤ 0 ∨ ask ≤ 0 ∨ cap < 1
  case pos =>
    have result : affordableContracts model budget ask multiplier cap = .ok 0 := by
      rw [affordableContracts, if_pos guarded]
    rw [EstimateReaches, if_pos guarded, result]
    constructor
    · rintro ⟨count, isCount, -, greatest⟩ other positive le affords
      cases isCount
      exact absurd (greatest ⟨le, .inr affords⟩) (not_le.mpr positive)
    · intro unaffordable
      refine ⟨0, rfl, ⟨Nat.zero_le _, .inl rfl⟩, ?_⟩
      rintro count ⟨le, rfl | affords⟩
      · exact le_rfl
      · by_contra positive
        exact unaffordable count (not_le.mp positive) le affords
  case neg =>
    have funded : 0 < budget := not_le.mp fun spent => guarded (.inl spent)
    have priced : 0 < ask := not_le.mp fun free => guarded (.inr (.inl free))
    have some : 1 ≤ cap := not_lt.mp fun none => guarded (.inr (.inr none))
    rw [EstimateReaches, if_neg guarded, affordableContracts_eq priced funded some sized]
    set estimate := closedForm budget ask multiplier
    constructor
    · rintro ⟨count, found, member, greatest⟩
      refine ⟨defined_of_lowerEstimate found, ?_⟩
      by_contra below
      obtain ⟨short, affords⟩ := not_or.mp below
      obtain ⟨count', found', member', -⟩ :
          ∃ count, lowerEstimate model budget (mul ask multiplier) (min cap estimate) = .ok count ∧
            IsGreatest (affordableCounts model budget ask multiplier (min cap estimate)) count :=
        lowerEstimate_spec (min cap estimate) (defined_of_lowerEstimate found)
      cases found.symm.trans found'
      have next : estimate + 1 ≤ count :=
        greatest ⟨by omega, .inr (not_not.mp affords)⟩
      have start := member'.1
      omega
    · rintro ⟨defined, reaches⟩
      obtain ⟨count, found, member, greatest⟩ := lowerEstimate_spec (min cap estimate) defined
      refine ⟨count, found, ⟨member.1.trans (min_le_left _ _), member.2⟩, ?_⟩
      rintro other ⟨le, affordable⟩
      rcases affordable with rfl | affords
      · exact Nat.zero_le _
      · by_cases inside : other ≤ estimate
        · exact greatest ⟨le_min le inside, .inr affords⟩
        · -- a count above the estimate that fits makes the next one fit
          rcases reaches with reaches | unaffordable
          · omega
          · exact absurd (affords_mono priced.le sized.le (Nat.succ_pos estimate)
              (not_le.mp inside) affords) unaffordable

/-! ## Fees of sixty-five cents and more -/

theorem roundContext_natCast {count : ℕ} (small : (count : ℚ) < 10 ^ 27) :
    roundContext count = count := by
  have digits : |(count : ℤ)| < 10 ^ precision := by
    rw [abs_of_nonneg (Int.natCast_nonneg count)]
    have fits : (count : ℚ) < 10 ^ 28 := small.trans (by norm_num)
    exact_mod_cast fits
  have kept := roundContext_of_digits (k := 0) digits
  rwa [zpow_zero, mul_one, Int.cast_natCast] at kept

theorem exact_of_lt {x : ℚ} (whole : x ∈ cents) (nonneg : 0 ≤ x)
    (below : roundContext x < 10 ^ 26) : roundContext x = x := by
  have small : x < 10 ^ 26 := by
    by_contra huge
    exact absurd below (not_lt.mpr (roundContext_huge (not_lt.mp huge)))
  exact roundContext_of_cents whole (by rwa [abs_of_nonneg nonneg])

theorem le_feesOf {model : PerContractFeeModel} {count : ℕ} {fees : ℚ}
    (fee : 65 / 100 ≤ model.feePerContract) (charged : feesOf model count = .ok fees) :
    (65 / 100 : ℚ) * count ≤ fees := by
  obtain ⟨-, ticked⟩ := refuse_bind_eq_ok.mp (mapError_eq_ok.mp charged)
  have sign : (0 : ℚ) ≤ 65 / 100 * count := by positivity
  have whole : (65 / 100 * count : ℚ) ∈ cents :=
    mem_cents_iff.mpr ⟨65 * count, by push_cast; ring⟩
  have raw : roundContext (65 / 100 * count) ≤
      max (mul model.feePerContract ((count : ℤ) : ℚ)) model.minimumPerOrder := by
    refine le_trans ?_ (le_max_left _ _)
    exact roundContext_monotone (mul_le_mul_of_nonneg_right fee (by positivity))
  have exact := exact_of_lt whole sign (raw.trans_lt (of_priceTick ticked).2.1)
  have small : (65 / 100 * count : ℚ) < 10 ^ 26 := by
    rw [← exact]
    exact raw.trans_lt (of_priceTick ticked).2.1
  exact priceTick_mono raw (priceTick_of_mem whole sign small) ticked

/-- **With such a fee no count above the closed form fits**, for a price of whole cents. -/
theorem le_closedForm_of_affords {model : PerContractFeeModel} {budget ask : ℚ} {multiplier : ℤ}
    {count : ℕ} (whole : ask ∈ cents) (priced : 0 < ask) (sized : 0 < multiplier)
    (small : budget < 10 ^ 26) (fee : 65 / 100 ≤ model.feePerContract) (positive : 0 < count)
    (affords : Affords model budget ask multiplier count) :
    count ≤ closedForm budget ask multiplier := by
  obtain ⟨fees, charged, fits⟩ := affords
  have least := le_feesOf fee charged
  have one : (1 : ℚ) ≤ count := by exact_mod_cast positive
  have scale : (0 : ℚ) < multiplier := by exact_mod_cast sized
  have below : ∀ {x : ℚ}, roundContext x ≤ budget → x < 10 ^ 26 := by
    intro x within
    by_contra huge
    exact absurd (within.trans_lt small) (not_lt.mpr (roundContext_huge (not_lt.mp huge)))
  -- every amount on the way to the cost is below the budget, so none is rounded
  have cost := below fits
  have feesPos : 0 ≤ fees := le_trans (by positivity) least
  have prices : mul (mul ask multiplier) count < 10 ^ 26 := by linarith
  have unrounded : mul ask multiplier * count < 10 ^ 26 := by
    by_contra huge
    exact absurd prices (not_lt.mpr (roundContext_huge (not_lt.mp huge)))
  have pricedPos : 0 ≤ mul ask multiplier := roundContext_nonneg (by positivity)
  have perContract : mul ask multiplier < 10 ^ 26 :=
    lt_of_le_of_lt (le_mul_of_one_le_right pricedPos one) unrounded
  have askWhole : ask * multiplier ∈ cents := by
    obtain ⟨n, rfl⟩ := mem_cents_iff.mp whole
    exact mem_cents_iff.mpr ⟨n * multiplier, by push_cast; ring⟩
  have exactPrice : mul ask multiplier = ask * multiplier :=
    exact_of_lt askWhole (by positivity) perContract
  have productWhole : mul ask multiplier * count ∈ cents := by
    rw [exactPrice]
    exact mul_natCast_mem askWhole count
  have exactPrices : mul (mul ask multiplier) count = mul ask multiplier * count :=
    exact_of_lt productWhole (by positivity) prices
  have total : (mul ask multiplier + 65 / 100) * count ≤ budget := by
    have costs : (mul ask multiplier + 65 / 100) * count ≤
        mul (mul ask multiplier) count + fees := by
      rw [exactPrices]
      linarith
    have wholeTotal : (mul ask multiplier + 65 / 100) * count ∈ cents := by
      have part : (65 / 100 * count : ℚ) ∈ cents :=
        mem_cents_iff.mpr ⟨65 * count, by push_cast; ring⟩
      rw [add_mul]
      exact cents.add_mem productWhole part
    have kept := exact_of_lt wholeTotal (by positivity)
      ((roundContext_monotone costs).trans fits |>.trans_lt small)
    rw [← kept]
    exact (roundContext_monotone costs).trans fits
  have divisorPos : 0 < mul ask multiplier + 65 / 100 := by positivity
  have exactDivisor : add (mul ask multiplier) (65 / 100) = mul ask multiplier + 65 / 100 := by
    apply roundContext_of_cents
    · rw [exactPrice]
      exact cents.add_mem askWhole (mem_cents_iff.mpr ⟨65, by norm_num⟩)
    · rw [abs_of_pos divisorPos]
      exact lt_of_le_of_lt (le_mul_of_one_le_right divisorPos.le one) (total.trans_lt small)
  have quotient : (count : ℚ) ≤ budget / add (mul ask multiplier) (65 / 100) := by
    rw [exactDivisor, le_div_iff₀ divisorPos, mul_comm]
    exact total
  have smallCount : (count : ℚ) < 10 ^ 27 := by
    have part : 65 / 100 * (count : ℚ) ≤ budget := by
      have nonneg : 0 ≤ mul ask multiplier * count := by positivity
      linarith
    linarith
  have kept := roundContext_monotone quotient
  rw [roundContext_natCast smallCount] at kept
  have whole : (count : ℤ) ≤ ⌊roundContext (budget / add (mul ask multiplier) (65 / 100))⌋ :=
    Int.le_floor.mpr (by exact_mod_cast kept)
  rw [closedForm]
  omega

/-! ## A lower fee -/

theorem noMinimum_nonneg : (0 : ℚ) ≤ 0 :=
  le_rfl

theorem dollar_nonneg : (0 : ℚ) ≤ 1 :=
  zero_le_one

theorem halfDollar_nonneg : (0 : ℚ) ≤ 1 / 2 := by
  norm_num

theorem sixtyFiveCents_nonneg : (0 : ℚ) ≤ 65 / 100 := by
  norm_num

/-- Fifty cents for each contract, without a minimum. -/
def halfDollarFees : PerContractFeeModel :=
  ⟨1 / 2, 0, halfDollar_nonneg, noMinimum_nonneg⟩

def defaultFees : PerContractFeeModel :=
  ⟨65 / 100, 1, sixtyFiveCents_nonneg, dollar_nonneg⟩

theorem eq_ok_of_toOption {Value : Type} {result : Except StrategyError Value} {value : Value}
    (returns : result.toOption = some value) : result = .ok value := by
  cases result with
  | error error => cases returns
  | ok other => exact congrArg Except.ok (Option.some.inj returns)

/-- Three contracts at a dollar cost 301.95 with the default fees, and four cost more. -/
theorem affordable_iff_sample :
    ∃ count, affordableContracts defaultFees (30195 / 100) 1 100 10 = .ok count ∧
      IsGreatest (affordableCounts defaultFees (30195 / 100) 1 100 10) count := by
  refine (affordable_iff defaultFees (30195 / 100) 1 100 10 (by decide)).mpr ?_
  rw [EstimateReaches, if_neg (by norm_num)]
  refine ⟨fun _ => ⟨195 / 100, eq_ok_of_toOption (by decide +kernel)⟩, .inr fun affords => ?_⟩
  have within := le_closedForm_of_affords (mem_cents_iff.mpr ⟨100, by norm_num⟩) (by norm_num)
    (by decide) (by norm_num) le_rfl (Nat.succ_pos _) affords
  omega

theorem nothing_at_half_dollar_fees :
    ¬ ∃ count, affordableContracts halfDollarFees (10050 / 100) 1 100 10 = .ok count ∧
      IsGreatest (affordableCounts halfDollarFees (10050 / 100) 1 100 10) count := by
  rintro ⟨count, found, -, greatest⟩
  have nothing : affordableContracts halfDollarFees (10050 / 100) 1 100 10 = .ok 0 :=
    eq_ok_of_toOption (by decide +kernel)
  cases found.symm.trans nothing
  have affords : Affords halfDollarFees (10050 / 100) 1 100 1 :=
    ⟨1 / 2, eq_ok_of_toOption (by decide +kernel), by decide +kernel⟩
  exact absurd (greatest ⟨by decide, .inr affords⟩) (by decide)

end TreeOptions.Options
