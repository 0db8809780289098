import TreeOptions.Foundations.DecimalDigits
import TreeOptions.Options.Affordable
import TreeOptions.Options.Positions

/-!
# What a session lays out

The cash of a session is cut twice: to a part of it, and to a share for each candidate. Each cut is
rounded to the nearest cent, so the shares of all the candidates may come to more than the part.
No order costs more than its share, and where a share buys a contract at all there are candidates
whose orders cost all of it. So the orders of a session stay within the part just where the shares
do (`stays_within_budget_iff`).

Amounts are compared as they are. What an order costs is added up in the decimal context, and that
is exact for asks whose decimals leave the share within the digits of the context.
-/

set_option autoImplicit false

namespace TreeOptions.Options

open Checked Decimal Guards Ledger

/-! ## Outlays -/

/-- The candidates as they are planned, numbered from one. -/
def numberedCandidates (candidates : List OptionCandidate) : List (OptionCandidate × ℕ) :=
  (sortedBy (fun candidate => candidate.contract.contractId.toList) candidates).zipIdx 1

/-- The name of the order of a numbered candidate. -/
def plannedId (numbered : OptionCandidate × ℕ) : String :=
  "OPT-B" ++ longDate numbered.1.signal.decisionSession ++ "-" ++ digits 4 numbered.2

/-- The candidate that an order was planned for. -/
def candidateOf (candidates : List OptionCandidate) (order : Guards.Order) :
    Option OptionCandidate :=
  ((numberedCandidates candidates).find? fun numbered =>
    plannedId numbered = order.orderId).map Prod.fst

/-- What an order lays out at the ask of its candidate, with its fees. Nothing is rounded. -/
def outlay (model : PerContractFeeModel) (candidates : List OptionCandidate)
    (order : Guards.Order) : Except StrategyError ℚ := do
  let candidate ← orRaise (.keyError order.contractId) (candidateOf candidates order)
  let fees ← (model.orderFees order.quantity).mapError StrategyError.engine
  return candidate.ask * order.quantity * candidate.contract.multiplier + fees

def totalOutlay (model : PerContractFeeModel) (candidates : List OptionCandidate) :
    List Guards.Order → Except StrategyError ℚ
  | [] => .ok 0
  | order :: orders => do
      let cost ← outlay model candidates order
      let rest ← totalOutlay model candidates orders
      return cost + rest

/-- The orders that are planned lay out no more than their part of the cash. -/
def StaysWithinBudget (calendar : MarketCalendar) (candidates : List OptionCandidate) (cash : ℚ)
    (config : OptionsStrategyConfig) (model : PerContractFeeModel) : Prop :=
  ∀ orders, planOrders calendar candidates cash config model = .ok orders →
    ∃ total, totalOutlay model candidates orders = .ok total ∧
      total ≤ config.premiumBudgetFraction * cash

/-! ## Shares -/

/-- What a candidate of a session may cost: a part of the cash, divided among so many. -/
def sessionShare (config : OptionsStrategyConfig) (cash : ℚ) (count : ℕ) :
    Except StrategyError ℚ := do
  let sessionBudget ← roundCents (mul config.premiumBudgetFraction cash)
  let share ← orRaise .divisionByZero (div? sessionBudget count)
  roundCents share

/-- The rounded shares of so many candidates come to no more than their part of the cash, or none
of them buys a contract. -/
def SharesFit (config : OptionsStrategyConfig) (cash : ℚ) (count : ℕ) : Prop :=
  ∀ share, sessionShare config cash count = .ok share →
    share ≤ 65 / 100 ∨ count * share ≤ config.premiumBudgetFraction * cash

/-- An ask of so many decimals that every cost within a share has its digits in the context. -/
def ExactWithin (share ask : ℚ) : Prop :=
  ∃ decimals : ℕ, 2 ≤ decimals ∧ decimals ≤ 26 ∧ HasDecimals decimals ask ∧
    share < 10 ^ (precision - decimals : ℤ)

theorem planOrders_eq_ok {calendar : MarketCalendar} {candidates : List OptionCandidate} {cash : ℚ}
    {config : OptionsStrategyConfig} {model : PerContractFeeModel} {orders : List Guards.Order}
    (some : candidates ≠ []) :
    planOrders calendar candidates cash config model = .ok orders ↔
      (candidates.map fun candidate => candidate.signal.decisionSession).dedup.length = 1 ∧
        ∃ share, sessionShare config cash candidates.length = .ok share ∧
          (numberedCandidates candidates).foldlM (planOrder calendar config model share) [] =
            .ok orders := by
  rw [planOrders, if_neg some, refuse_bind_eq_ok, not_not]
  refine and_congr_right fun _ => ?_
  simp only [sessionShare, bind_eq_ok]
  constructor
  · rintro ⟨budget, isBudget, part, isPart, share, isShare, planned⟩
    exact ⟨share, ⟨budget, isBudget, part, isPart, isShare⟩, planned⟩
  · rintro ⟨share, ⟨budget, isBudget, part, isPart, isShare⟩, planned⟩
    exact ⟨budget, isBudget, part, isPart, share, isShare, planned⟩

theorem of_sessionShare {config : OptionsStrategyConfig} {cash share : ℚ} {count : ℕ}
    (nonneg : 0 ≤ cash) (isShare : sessionShare config cash count = .ok share) :
    0 < count ∧ 0 ≤ share ∧ share ∈ cents ∧ share < 10 ^ 26 := by
  obtain ⟨budget, isBudget, isShare⟩ := bind_eq_ok.mp isShare
  obtain ⟨part, isPart, isShare⟩ := bind_eq_ok.mp isShare
  have rounds : ∀ {x y : ℚ}, 0 ≤ x → roundCents x = .ok y → 0 ≤ y ∧ y ∈ cents ∧ y < 10 ^ 26 := by
    intro x y sign rounded
    have quantized := orRaise_eq_ok.mp rounded
    have value := quantizeCents_eq_some quantized
    rw [quantizeCents, Option.ite_none_right_eq_some] at quantized
    have units := roundHalfEven_mono (by push_cast; linarith : ((0 : ℤ) : ℚ) ≤ x * 100)
    rw [roundHalfEven_intCast] at units
    have below : roundHalfEven (x * 100) < 10 ^ precision := (le_abs_self _).trans_lt quantized.1
    have fits : ((roundHalfEven (x * 100) : ℤ) : ℚ) < 10 ^ 28 := by exact_mod_cast below
    refine ⟨?_, mem_cents_iff.mpr ⟨_, value⟩, ?_⟩
    · rw [value]
      exact div_nonneg (by exact_mod_cast units) (by norm_num)
    · rw [value]
      linarith
  have isDivided := orRaise_eq_ok.mp isPart
  rw [div?, Option.ite_none_left_eq_some] at isDivided
  obtain ⟨divisor, isPart⟩ := isDivided
  have positive : 0 < count := Nat.pos_of_ne_zero fun zero => divisor (by rw [zero, Nat.cast_zero])
  have budgetNonneg := (rounds (roundContext_nonneg
    (mul_nonneg config.fraction.1.le nonneg)) isBudget).1
  have partNonneg : 0 ≤ part := by
    rw [← Option.some.inj isPart]
    exact roundContext_nonneg (div_nonneg budgetNonneg (Nat.cast_nonneg count))
  exact ⟨positive, rounds partNonneg isShare⟩

/-! ## What an order costs -/

section Orders

variable {model : PerContractFeeModel} {share ask : ℚ} {multiplier : ℤ} {cap : ℕ}

theorem of_feesOf {count : ℕ} {fees : ℚ} (charged : feesOf model count = .ok fees) :
    0 ≤ fees ∧ fees ∈ cents := by
  obtain ⟨-, ticked⟩ := refuse_bind_eq_ok.mp (mapError_eq_ok.mp charged)
  obtain ⟨whole, -, sign⟩ := of_priceTick ticked
  exact ⟨sign (le_max_of_le_right model.minimumPerOrder_nonneg), whole⟩

/-- **What fits a share in the context fits it as it is.** -/
theorem cost_le_of_affords {count : ℕ} {fees : ℚ} (priced : 0 ≤ ask) (sized : 0 ≤ multiplier)
    (positive : 0 < count) (exact : ExactWithin share ask)
    (charged : feesOf model count = .ok fees)
    (fits : orderCost (mul ask multiplier) count fees ≤ share) :
    ask * count * multiplier + fees ≤ share := by
  obtain ⟨decimals, two, -, short, below⟩ := exact
  obtain ⟨feesNonneg, feesWhole⟩ := of_feesOf charged
  have scale : (0 : ℚ) ≤ multiplier := by exact_mod_cast sized
  have one : (1 : ℚ) ≤ count := by exact_mod_cast positive
  have perNonneg : 0 ≤ mul ask multiplier := roundContext_nonneg (mul_nonneg priced scale)
  have pricesNonneg : 0 ≤ mul ask multiplier * count := mul_nonneg perNonneg (by linarith)
  -- every amount on the way to the cost is within the share
  have prices : mul (mul ask multiplier) count ≤ share := by
    refine le_trans ?_ fits
    have kept := roundContext_monotone (le_add_of_nonneg_right feesNonneg :
      mul (mul ask multiplier) count ≤ mul (mul ask multiplier) count + fees)
    rwa [mul, roundContext_idem] at kept
  have perContract : mul ask multiplier ≤ share := by
    refine le_trans ?_ prices
    have kept := roundContext_monotone (le_mul_of_one_le_right perNonneg one)
    rwa [mul, roundContext_idem] at kept
  have exactPer : mul ask multiplier = ask * multiplier :=
    exact_of_hasDecimals (short.mul multiplier) (mul_nonneg priced scale)
      (perContract.trans_lt below)
  have shortPer : HasDecimals decimals (mul ask multiplier) := by
    rw [exactPer]
    exact short.mul multiplier
  have shortPrices : HasDecimals decimals (mul ask multiplier * count) :=
    shortPer.mul count
  have exactPrices : mul (mul ask multiplier) count = mul ask multiplier * count :=
    exact_of_hasDecimals shortPrices pricesNonneg (prices.trans_lt below)
  have exactCost : orderCost (mul ask multiplier) count fees =
      mul (mul ask multiplier) count + fees := by
    apply exact_of_hasDecimals
    · rw [exactPrices]
      exact shortPrices.add (hasDecimals_of_cents two feesWhole)
    · rw [exactPrices]
      exact add_nonneg pricesNonneg feesNonneg
    · exact fits.trans_lt below
  calc ask * count * multiplier + fees = mul (mul ask multiplier) count + fees := by
        rw [exactPrices, exactPer]
        ring
    _ ≤ share := exactCost ▸ fits

theorem of_affordableContracts {count : ℕ} (sized : 0 < multiplier) (positive : 0 < count)
    (found : affordableContracts model share ask multiplier cap = .ok count) :
    0 < ask ∧ ∃ fees, feesOf model count = .ok fees ∧
      orderCost (mul ask multiplier) count fees ≤ share := by
  by_cases guarded : share ≤ 0 ∨ ask ≤ 0 ∨ cap < 1
  · rw [affordableContracts, if_pos guarded] at found
    cases found
    cases positive
  · have funded : 0 < share := not_le.mp fun spent => guarded (.inl spent)
    have priced : 0 < ask := not_le.mp fun free => guarded (.inr (.inl free))
    have some : 1 ≤ cap := not_lt.mp fun none => guarded (.inr (.inr none))
    rw [affordableContracts_eq priced funded some sized] at found
    obtain ⟨count', found', member, -⟩ :=
      @lowerEstimate_spec model share ask multiplier _ (defined_of_lowerEstimate found)
    cases found.symm.trans found'
    rcases member.2 with rfl | affords
    · cases positive
    · exact ⟨priced, affords⟩

/-- **No share of sixty-five cents buys a contract**: what is asked comes on top of them. -/
theorem nothing_of_small {count : ℕ} (sized : 0 < multiplier) (exact : ExactWithin share ask)
    (small : share ≤ 65 / 100)
    (found : affordableContracts model share ask multiplier cap = .ok count) : count = 0 := by
  by_contra bought
  have positive : 0 < count := Nat.pos_of_ne_zero bought
  obtain ⟨priced, -⟩ := of_affordableContracts sized positive found
  obtain ⟨decimals, -, few, ⟨units, rfl⟩, -⟩ := exact
  by_cases guarded : share ≤ 0 ∨ (units * 10 ^ (-decimals : ℤ) : ℚ) ≤ 0 ∨ cap < 1
  · rw [affordableContracts, if_pos guarded] at found
    cases found
    cases positive
  · have funded : 0 < share := not_le.mp fun spent => guarded (.inl spent)
    have some : 1 ≤ cap := not_lt.mp fun none => guarded (.inr (.inr none))
    rw [affordableContracts_eq priced funded some sized] at found
    set ask : ℚ := units * 10 ^ (-decimals : ℤ) with isAsk
    -- the least ask is 10^-26, and the divisor is above sixty-five cents by as much
    have least : (10 : ℚ) ^ (-26 : ℤ) ≤ mul ask multiplier := by
      have unit : (1 : ℚ) ≤ units := by
        have sign : 0 < units := by
          have quotient := (mul_pos_iff_of_pos_right (zpow_pos (by norm_num) _)).mp priced
          exact_mod_cast quotient
        exact_mod_cast sign
      have one : (1 : ℚ) ≤ multiplier := by exact_mod_cast sized
      have power : (10 : ℚ) ^ (-26 : ℤ) ≤ 10 ^ (-decimals : ℤ) :=
        zpow_le_zpow_right₀ (by norm_num) (by omega)
      have product : (10 : ℚ) ^ (-26 : ℤ) ≤ ask * multiplier := by
        have asked : (10 : ℚ) ^ (-26 : ℤ) ≤ ask := power.trans
          (le_mul_of_one_le_left (zpow_nonneg (by norm_num) _) unit)
        exact asked.trans (le_mul_of_one_le_right priced.le one)
      have kept := roundContext_monotone product
      have self := roundContext_of_digits (m := 1) (k := -26) (by decide)
      rw [Int.cast_one, one_mul] at self
      rwa [self] at kept
    have divisor : 65 / 100 + (10 : ℚ) ^ (-26 : ℤ) ≤ add (mul ask multiplier) (65 / 100) := by
      have kept := roundContext_monotone (add_le_add_left least (65 / 100))
      rw [add_comm] at kept
      have self := roundContext_of_digits (m := 65 * 10 ^ 24 + 1) (k := -26) (by decide)
      have value : (((65 * 10 ^ 24 + 1 : ℤ) : ℚ) * 10 ^ (-26 : ℤ)) =
          65 / 100 + 10 ^ (-26 : ℤ) := by
        norm_num
      rw [value] at self
      rwa [self] at kept
    have estimate : closedForm share ask multiplier = 0 := by
      have below : share / add (mul ask multiplier) (65 / 100) ≤
          ((10 ^ 27 - 1 : ℤ) : ℚ) * 10 ^ (-27 : ℤ) := by
        have sign : (0 : ℚ) < add (mul ask multiplier) (65 / 100) :=
          lt_of_lt_of_le (by norm_num) divisor
        rw [div_le_iff₀ sign]
        refine small.trans ?_
        have scaled := mul_le_mul_of_nonneg_left divisor
          (by norm_num : (0 : ℚ) ≤ ((10 ^ 27 - 1 : ℤ) : ℚ) * 10 ^ (-27 : ℤ))
        exact le_trans (by norm_num) scaled
      have kept := roundContext_monotone below
      rw [roundContext_of_digits (by decide)] at kept
      have floor : ⌊roundContext (share / add (mul ask multiplier) (65 / 100))⌋ ≤ 0 := by
        apply Int.lt_add_one_iff.mp
        rw [Int.floor_lt]
        refine lt_of_le_of_lt kept ?_
        norm_num
      rw [closedForm]
      omega
    rw [estimate, Nat.min_zero] at found
    cases found
    cases positive

end Orders

/-! ## The orders of a session -/

section Session

variable {calendar : MarketCalendar} {config : OptionsStrategyConfig} {model : PerContractFeeModel}
  {candidates : List OptionCandidate} {share : ℚ}

theorem length_numberedCandidates (candidates : List OptionCandidate) :
    (numberedCandidates candidates).length = candidates.length := by
  rw [numberedCandidates, List.length_zipIdx]
  exact (sortedBy_perm _ candidates).length_eq

variable {numbered : OptionCandidate × ℕ}

theorem mem_of_numbered (member : numbered ∈ numberedCandidates candidates) :
    numbered.1 ∈ candidates :=
  mem_sortedBy.mp (List.fst_mem_of_mem_zipIdx member)

variable {orders : List Guards.Order}

theorem of_planOrder {next : List Guards.Order}
    (planned : planOrder calendar config model share orders numbered = .ok next) :
    ∃ quantity, affordableContracts model share numbered.1.ask numbered.1.contract.multiplier
        config.maxContractsPerCandidate = .ok quantity ∧
      (quantity = 0 ∧ next = orders ∨
        0 < quantity ∧ ∃ order : Guards.Order, order.orderId = plannedId numbered ∧
          order.quantity = quantity ∧ next = orders ++ [order]) := by
  obtain ⟨quantity, found, planned⟩ := bind_eq_ok.mp planned
  refine ⟨quantity, found, ?_⟩
  split at planned
  case isTrue none =>
    cases planned
    exact .inl ⟨by omega, rfl⟩
  case isFalse some =>
    obtain ⟨decisionAt, -, planned⟩ := bind_eq_ok.mp planned
    obtain ⟨order, opened, planned⟩ := bind_eq_ok.mp planned
    cases planned
    rw [openLong] at opened
    split at opened
    case isTrue =>
      cases opened
      exact .inr ⟨by omega, _, rfl, rfl, rfl⟩
    case isFalse => cases opened

variable {order : Guards.Order}

/-- **An order is of the candidate it was planned for**: its name ends in the number. -/
theorem candidateOf_planned
    (one : (candidates.map fun candidate => candidate.signal.decisionSession).dedup.length = 1)
    (member : numbered ∈ numberedCandidates candidates)
    (named : order.orderId = plannedId numbered) :
    candidateOf candidates order = some numbered.1 := by
  obtain ⟨session, isSession⟩ := List.length_eq_one_iff.mp one
  have decided : ∀ candidate ∈ candidates, candidate.signal.decisionSession = session := by
    intro candidate isMember
    have inside := List.mem_dedup.mpr (List.mem_map_of_mem
      (f := fun candidate : OptionCandidate => candidate.signal.decisionSession) isMember)
    rw [isSession] at inside
    exact List.mem_singleton.mp inside
  rw [candidateOf]
  cases found : (numberedCandidates candidates).find? fun numbered =>
      plannedId numbered = order.orderId with
  | none =>
    have differs := List.find?_eq_none.mp found numbered member
    rw [named] at differs
    simp at differs
  | some other =>
    have isOther : other ∈ numberedCandidates candidates := List.mem_of_find?_eq_some found
    have same : plannedId other = plannedId numbered := by
      rw [← named]
      simpa using List.find?_some found
    rw [plannedId, plannedId, decided _ (mem_of_numbered isOther),
      decided _ (mem_of_numbered member)] at same
    have texts : ("OPT-B" ++ longDate session ++ "-").toList ++ (digits 4 other.2).toList =
        ("OPT-B" ++ longDate session ++ "-").toList ++ (digits 4 numbered.2).toList := by
      rw [← String.toList_append, ← String.toList_append, same]
    have number : other.2 = numbered.2 := digits_injective (List.append_cancel_left texts)
    have position := (List.mk_mem_zipIdx_iff_le_and_getElem?_sub.mp isOther).2
    rw [number] at position
    exact position.symm.trans (List.mk_mem_zipIdx_iff_le_and_getElem?_sub.mp member).2

theorem outlay_eq_ok {candidate : OptionCandidate} {fees : ℚ}
    (isCandidate : candidateOf candidates order = some candidate)
    (charged : (model.orderFees order.quantity).mapError StrategyError.engine = .ok fees) :
    outlay model candidates order =
      .ok (candidate.ask * order.quantity * candidate.contract.multiplier + fees) := by
  rw [outlay, isCandidate]
  exact bind_eq_ok.mpr ⟨candidate, rfl, bind_eq_ok.mpr ⟨fees, charged, rfl⟩⟩

theorem totalOutlay_append {total cost : ℚ}
    (isTotal : totalOutlay model candidates orders = .ok total)
    (isCost : outlay model candidates order = .ok cost) :
    totalOutlay model candidates (orders ++ [order]) = .ok (total + cost) := by
  induction orders generalizing total with
  | nil =>
    cases isTotal
    refine bind_eq_ok.mpr ⟨cost, isCost, ?_⟩
    change Except.ok (cost + 0) = Except.ok (0 + cost)
    rw [add_comm]
  | cons first rest ih =>
    obtain ⟨firstCost, isFirst, isTotal⟩ := bind_eq_ok.mp isTotal
    obtain ⟨restTotal, isRest, isTotal⟩ := bind_eq_ok.mp isTotal
    cases isTotal
    refine bind_eq_ok.mpr ⟨firstCost, isFirst, bind_eq_ok.mpr ⟨restTotal + cost, ih isRest, ?_⟩⟩
    change Except.ok (firstCost + (restTotal + cost)) = Except.ok (firstCost + restTotal + cost)
    rw [add_assoc]

/-- **No more is laid out than the shares come to.** The induction is on the candidates that were
planned. -/
theorem totalOutlay_le (nonneg : 0 ≤ share)
    (one : (candidates.map fun candidate => candidate.signal.decisionSession).dedup.length = 1)
    (exact : ∀ candidate ∈ candidates, ExactWithin share candidate.ask)
    (planned : (numberedCandidates candidates).foldlM (planOrder calendar config model share) [] =
      .ok orders) :
    ∃ total, totalOutlay model candidates orders = .ok total ∧
      total ≤ candidates.length * share ∧ (share ≤ 65 / 100 → total = 0) := by
  have started : ∃ total, totalOutlay model candidates [] = .ok total ∧
      total ≤ ([] : List (OptionCandidate × ℕ)).length * share ∧ (share ≤ 65 / 100 → total = 0) :=
    ⟨0, rfl, by simp, fun _ => rfl⟩
  have ran := foldlM_invariant_of_mem (fun done orders => ∃ total,
    totalOutlay model candidates orders = .ok total ∧ total ≤ done.length * share ∧
      (share ≤ 65 / 100 → total = 0)) ?_ started planned
  · rwa [List.nil_append, length_numberedCandidates] at ran
  rintro done numbered member orders next ⟨total, isTotal, within, small⟩ step
  obtain ⟨quantity, found, ⟨rfl, rfl⟩ | ⟨positive, order, named, isQuantity, rfl⟩⟩ :=
    of_planOrder step
  · refine ⟨total, isTotal, ?_, small⟩
    rw [List.length_append, List.length_singleton]
    push_cast
    linarith
  · have sized := numbered.1.contract.multiplier_pos
    have exactly := exact _ (mem_of_numbered member)
    obtain ⟨priced, fees, charged, fits⟩ := of_affordableContracts (by omega) positive found
    have cost := cost_le_of_affords priced.le (by omega) positive exactly charged fits
    have isCost : outlay model candidates order = .ok
        (numbered.1.ask * quantity * numbered.1.contract.multiplier + fees) := by
      have feesOfOrder : (model.orderFees order.quantity).mapError StrategyError.engine =
          .ok fees := by
        rw [isQuantity]
        exact charged
      have isOutlay := outlay_eq_ok (candidateOf_planned one member named) feesOfOrder
      rwa [isQuantity, Int.cast_natCast] at isOutlay
    refine ⟨_, totalOutlay_append isTotal isCost, ?_, ?_⟩
    · rw [List.length_append, List.length_singleton]
      push_cast
      linarith
    · intro tooSmall
      have nothing := nothing_of_small (by omega) exactly tooSmall found
      omega

end Session

/-! ## Candidates that cost a whole share -/

section WholeShares

theorem cent_pos : (0 : ℚ) < 1 := by
  norm_num

theorem single : (1 : ℤ) ≤ 1 :=
  le_rfl

theorem odd (regular : false = true) : (1 : ℚ) = 100 ∧ (1 : ℤ) = 100 := by
  cases regular

/-- An option on one share of a stock, asked at a cent. -/
def centCandidate (number : ℕ) : OptionCandidate where
  signal := ⟨0, "A", .finite 2, none⟩
  contract := {
    contractId := digits 4 number
    expiration := 9
    multiplier := 1
    listingStart := 0
    listingEnd := 9
    sharesPerContract := 1
    standardContractFlag := false
    multiplier_pos := single
    shares_pos := cent_pos
    listed := listed
    expires := listed
    standard := odd
    underlyingSecurityId := "A"
    strike := hundred
    callPut := .call
    exerciseStyle := .american }
  expiration := 9
  strike := 100
  absDelta := 1 / 2
  ask := 1 / 100

def centCandidates (count : ℕ) : List OptionCandidate :=
  (List.range count).map centCandidate

theorem noContractFee : (0 : ℚ) ≤ 0 :=
  le_rfl

/-- One fee for an order of any size. -/
def flatFee (fee : ℚ) (nonneg : 0 ≤ fee) : PerContractFeeModel :=
  ⟨0, fee, noContractFee, nonneg⟩

variable {config : OptionsStrategyConfig} {share fee : ℚ} {nonneg : 0 ≤ fee}

theorem feesOf_flatFee (whole : fee ∈ cents) (small : fee < 10 ^ 26) {count : ℕ}
    (positive : 0 < count) : feesOf (flatFee fee nonneg) count = .ok fee := by
  refine mapError_eq_ok.mpr (refuse_bind_eq_ok.mpr ⟨by omega, ?_⟩)
  have raw : max (mul (flatFee fee nonneg).feePerContract ((count : ℤ) : ℚ))
      (flatFee fee nonneg).minimumPerOrder = roundContext fee := by
    rw [flatFee, mul, zero_mul, roundContext_zero, max_eq_right nonneg,
      roundContext_of_cents whole (by rwa [abs_of_nonneg nonneg])]
  rw [raw]
  exact priceTick_of_mem whole nonneg small

/-- **A share of more than sixty-five cents buys a contract** for the cent and the rest as fees. -/
theorem exists_affordable (whole : share ∈ cents) (small : share < 10 ^ 26)
    (buys : 65 / 100 < share) (rest : fee = share - 1 / 100) :
    ∃ count, 0 < count ∧ affordableContracts (flatFee fee nonneg) share (1 / 100) 1
      config.maxContractsPerCandidate = .ok count := by
  have feeWhole : fee ∈ cents := by
    rw [rest]
    exact cents.sub_mem whole (mem_cents_iff.mpr ⟨1, by norm_num⟩)
  have cent : mul (1 / 100) ((1 : ℤ) : ℚ) = 1 / 100 := by
    rw [mul, Int.cast_one, mul_one]
    exact roundContext_of_cents (mem_cents_iff.mpr ⟨1, by norm_num⟩) (by norm_num [abs_of_pos])
  have divisor : add (1 / 100) (65 / 100) = 66 / 100 := by
    have sum : (1 / 100 + 65 / 100 : ℚ) = 66 / 100 := by norm_num
    rw [add, sum]
    exact roundContext_of_cents (mem_cents_iff.mpr ⟨66, by norm_num⟩) (by norm_num [abs_of_pos])
  have estimate : 1 ≤ closedForm share (1 / 100) 1 := by
    have least : 66 / 100 ≤ share := by
      obtain ⟨n, rfl⟩ := mem_cents_iff.mp whole
      have above : (65 : ℚ) < n := by linarith
      have units : 65 < n := by exact_mod_cast above
      have atLeast : (66 : ℚ) ≤ n := by exact_mod_cast units
      linarith
    have quotient : ((1 : ℕ) : ℚ) ≤ share / (66 / 100) := by
      rw [le_div_iff₀ (by norm_num)]
      push_cast
      linarith
    have kept := roundContext_monotone quotient
    rw [roundContext_natCast (by norm_num)] at kept
    have floor : 1 ≤ ⌊roundContext (share / (66 / 100))⌋ :=
      Int.le_floor.mpr (by exact_mod_cast kept)
    rw [closedForm, cent, divisor]
    omega
  have charged : ∀ {count : ℕ}, 0 < count → feesOf (flatFee fee nonneg) count = .ok fee :=
    fun positive => feesOf_flatFee feeWhole (by linarith) positive
  have start : 0 < min config.maxContractsPerCandidate (closedForm share (1 / 100) 1) :=
    lt_min config.contracts_pos estimate
  obtain ⟨count, found, -, greatest⟩ := @lowerEstimate_spec (flatFee fee nonneg) share
    (1 / 100) 1 _ fun positive => ⟨fee, charged positive⟩
  have one : Affords (flatFee fee nonneg) share (1 / 100) 1 1 := by
    refine ⟨fee, charged Nat.one_pos, ?_⟩
    have price : mul (1 / 100) ((1 : ℕ) : ℚ) = 1 / 100 := by
      rw [Nat.cast_one]
      simpa using cent
    rw [orderCost, cent, price, add, rest, add_sub_cancel]
    exact (roundContext_of_cents whole (by rwa [abs_of_pos (by linarith)])).le
  refine ⟨count, greatest ⟨start, .inr one⟩, ?_⟩
  rw [affordableContracts_eq (by norm_num) (by linarith) config.contracts_pos (by decide)]
  exact found

/-- **Some candidates cost no less than all of their shares.** -/
theorem exists_whole_shares {cash : ℚ} {count : ℕ} (funded : 0 ≤ cash)
    (isShare : sessionShare config cash count = .ok share) (buys : 65 / 100 < share)
    (rest : fee = share - 1 / 100) :
    ∃ orders total,
      planOrders fourDays (centCandidates count) cash config (flatFee fee nonneg) = .ok orders ∧
        totalOutlay (flatFee fee nonneg) (centCandidates count) orders = .ok total ∧
        count * share ≤ total := by
  obtain ⟨positive, -, whole, small⟩ := of_sessionShare funded isShare
  have size : (centCandidates count).length = count := by
    rw [centCandidates, List.length_map, List.length_range]
  have nonempty : centCandidates count ≠ [] := by
    intro none
    rw [none, List.length_nil] at size
    omega
  have one : ((centCandidates count).map fun candidate =>
      candidate.signal.decisionSession).dedup.length = 1 := by
    have zeros : ((centCandidates count).map fun candidate => candidate.signal.decisionSession) =
        List.replicate count 0 := by
      rw [centCandidates, List.map_map]
      exact List.eq_replicate_iff.mpr ⟨by simp, by simp [centCandidate]⟩
    rw [zeros, List.replicate_dedup (by omega)]
    rfl
  obtain ⟨quantity, bought, found⟩ :=
    @exists_affordable config share fee nonneg whole small buys rest
  have feeWhole : fee ∈ cents := by
    rw [rest]
    exact cents.sub_mem whole (mem_cents_iff.mpr ⟨1, by norm_num⟩)
  have steps : ∀ done numbered left orders,
      done ++ numbered :: left = numberedCandidates (centCandidates count) →
      (∃ total, totalOutlay (flatFee fee nonneg) (centCandidates count) orders = .ok total ∧
        done.length * share ≤ total) →
      ∃ next, planOrder fourDays config (flatFee fee nonneg) share orders numbered = .ok next ∧
        ∃ total, totalOutlay (flatFee fee nonneg) (centCandidates count) next = .ok total ∧
          (done ++ [numbered]).length * share ≤ total := by
    rintro done numbered left orders split ⟨total, isTotal, least⟩
    have member : numbered ∈ numberedCandidates (centCandidates count) := by
      rw [← split]
      exact List.mem_append_right _ List.mem_cons_self
    obtain ⟨number, -, isNumber⟩ := List.mem_map.mp (mem_of_numbered member)
    obtain ⟨next, planned⟩ : ∃ next,
        planOrder fourDays config (flatFee fee nonneg) share orders numbered = .ok next := by
      have opened : ∃ order, openLong ("OPT-B" ++ longDate numbered.1.signal.decisionSession ++
          "-" ++ digits 4 numbered.2) numbered.1.contract.contractId quantity (some share)
          (fourDays.sessionClose numbered.1.signal.decisionSession)
          numbered.1.signal.decisionSession = .ok order :=
        ⟨_, dif_pos (by omega)⟩
      obtain ⟨order, isOrder⟩ := opened
      refine ⟨orders ++ [order], bind_eq_ok.mpr ⟨quantity, ?_, ?_⟩⟩
      · rw [← isNumber]
        exact found
      · rw [if_neg (by omega)]
        refine bind_eq_ok.mpr ⟨_, ?_, bind_eq_ok.mpr ⟨order, isOrder, rfl⟩⟩
        rw [← isNumber]
        rfl
    obtain ⟨quantity', found', ⟨rfl, -⟩ | ⟨-, order, named, isQuantity, rfl⟩⟩ :=
      of_planOrder planned
    · rw [← isNumber] at found'
      cases found.symm.trans found'
      cases bought
    · rw [← isNumber] at found'
      cases found.symm.trans found'
      have feesOfOrder : ((flatFee fee nonneg).orderFees order.quantity).mapError
          StrategyError.engine = .ok fee := by
        rw [isQuantity]
        exact feesOf_flatFee feeWhole (by linarith) bought
      have isCost := outlay_eq_ok (candidateOf_planned one member named) feesOfOrder
      refine ⟨_, planned, _, totalOutlay_append isTotal isCost, ?_⟩
      have cost : share ≤ numbered.1.ask * order.quantity * numbered.1.contract.multiplier +
          fee := by
        have most : (1 : ℚ) ≤ quantity := by exact_mod_cast bought
        rw [← isNumber, isQuantity]
        simp only [centCandidate, Int.cast_natCast, Int.cast_one, mul_one]
        linarith
      rw [List.length_append, List.length_singleton]
      push_cast
      linarith
  have started : ∃ total, totalOutlay (flatFee fee nonneg) (centCandidates count) [] = .ok total ∧
      ([] : List (OptionCandidate × ℕ)).length * share ≤ total :=
    ⟨0, rfl, by simp⟩
  obtain ⟨orders, ran, total, isTotal, least⟩ :=
    exists_foldlM (fun done orders => ∃ total,
      totalOutlay (flatFee fee nonneg) (centCandidates count) orders = .ok total ∧
        done.length * share ≤ total) steps (List.nil_append _) started
  refine ⟨orders, total, (planOrders_eq_ok nonempty).mpr ⟨one, share, ?_, ran⟩, isTotal, ?_⟩
  · rw [size]
    exact isShare
  · rwa [length_numberedCandidates, size] at least

end WholeShares

/-! ## The budget of a session -/

/-- **The orders of a session stay within their part of the cash, whatever the candidates and the
fees,** just where the rounded shares do or buy nothing. -/
theorem stays_within_budget_iff (config : OptionsStrategyConfig) (cash : ℚ) (count : ℕ)
    (funded : 0 ≤ cash) :
    (∀ (calendar : MarketCalendar) (candidates : List OptionCandidate)
        (model : PerContractFeeModel), candidates.length = count →
      (∀ share, sessionShare config cash count = .ok share →
        ∀ candidate ∈ candidates, ExactWithin share candidate.ask) →
      StaysWithinBudget calendar candidates cash config model) ↔
      SharesFit config cash count := by
  constructor
  · intro stays share isShare
    by_contra beyond
    obtain ⟨buys, tooMuch⟩ := not_or.mp beyond
    obtain ⟨-, -, whole, small⟩ := of_sessionShare funded isShare
    have nonneg : 0 ≤ share - 1 / 100 := by linarith
    obtain ⟨orders, total, planned, isTotal, least⟩ :=
      @exists_whole_shares config share _ nonneg cash count funded isShare (not_le.mp buys) rfl
    have exact : ∀ share, sessionShare config cash count = .ok share →
        ∀ candidate ∈ centCandidates count, ExactWithin share candidate.ask := by
      intro other isOther candidate member
      cases isShare.symm.trans isOther
      obtain ⟨number, -, rfl⟩ := List.mem_map.mp member
      exact ⟨2, le_rfl, by decide, ⟨1, by norm_num [centCandidate]⟩, by
        simpa [precision] using small⟩
    have size : (centCandidates count).length = count := by
      rw [centCandidates, List.length_map, List.length_range]
    obtain ⟨total', isTotal', within⟩ := stays fourDays _ _ size exact orders planned
    cases isTotal.symm.trans isTotal'
    exact tooMuch (least.trans within)
  · intro fit calendar candidates model size exact orders planned
    have budget : 0 ≤ config.premiumBudgetFraction * cash :=
      mul_nonneg config.fraction.1.le funded
    by_cases none : candidates = []
    · rw [planOrders, if_pos none] at planned
      cases planned
      exact ⟨0, rfl, budget⟩
    · obtain ⟨one, share, isShare, planned⟩ := (planOrders_eq_ok none).mp planned
      rw [size] at isShare
      obtain ⟨-, nonneg, -, -⟩ := of_sessionShare funded isShare
      obtain ⟨total, isTotal, within, small⟩ :=
        totalOutlay_le nonneg one (exact share isShare) planned
      refine ⟨total, isTotal, ?_⟩
      rcases fit share isShare with tooSmall | fits
      · rw [small tooSmall]
        exact budget
      · rw [size] at within
        exact within.trans fits

/-- A call or a put asked at ten cents. -/
def dimeCandidate (underlyingId : String) (callPut : CallPut) : OptionCandidate :=
  ⟨⟨0, underlyingId, .finite 1, none⟩, optionOn underlyingId callPut, 9, 100, 1 / 2, 1 / 10⟩

/-- What a session lays out for three such candidates. -/
def dimeOutlay (cash : ℚ) : Option ℚ :=
  let candidates := [dimeCandidate "A" .call, dimeCandidate "B" .put, dimeCandidate "C" .call]
  (planOrders fourDays candidates cash sampleConfig defaultFees).toOption.bind fun orders =>
    (totalOutlay defaultFees candidates orders).toOption

theorem dimeOutlay_samples :
    dimeOutlay (12778 / 100) = some (6390 / 100) ∧
      (sessionShare sampleConfig 100 1).toOption = some 50 := by
  decide +kernel

theorem stays_within_budget_iff_sample :
    SharesFit sampleConfig 100 1 ∧
      ∀ (calendar : MarketCalendar) (candidates : List OptionCandidate)
        (model : PerContractFeeModel), candidates.length = 1 →
      (∀ share, sessionShare sampleConfig 100 1 = .ok share →
        ∀ candidate ∈ candidates, ExactWithin share candidate.ask) →
      StaysWithinBudget calendar candidates 100 sampleConfig model := by
  have fit : SharesFit sampleConfig 100 1 := by
    intro share isShare
    cases isShare.symm.trans (eq_ok_of_toOption dimeOutlay_samples.2)
    refine .inr ?_
    rw [sampleConfig]
    norm_num
  exact ⟨fit, (stays_within_budget_iff sampleConfig 100 1 (by norm_num)).mpr fit⟩

/-- Half of 127.78 is 63.89. A third of it is rounded to 21.30, which is what two contracts at ten
cents cost, and three such orders cost 63.90. -/
theorem thirds_overcommit :
    ¬ ∀ (calendar : MarketCalendar) (candidates : List OptionCandidate) (cash : ℚ)
      (config : OptionsStrategyConfig) (model : PerContractFeeModel), 0 ≤ cash →
      StaysWithinBudget calendar candidates cash config model := by
  intro stays
  obtain ⟨orders, planned, laidOut⟩ := Option.bind_eq_some_iff.mp dimeOutlay_samples.1
  obtain ⟨total, isTotal, within⟩ := stays fourDays _ (12778 / 100) sampleConfig defaultFees
    (by norm_num) orders (eq_ok_of_toOption planned)
  rw [isTotal] at laidOut
  rw [Option.some.inj laidOut, sampleConfig] at within
  norm_num at within

end TreeOptions.Options
