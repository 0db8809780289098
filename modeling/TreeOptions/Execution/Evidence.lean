import TreeOptions.Execution.Arrival
import TreeOptions.Execution.Economics
import TreeOptions.Foundations.DecimalDigits

/-!
# The evidence of a lifecycle

A lifecycle is evidence when its order is at its end, what is derived again from its records is what
it claims, the fills hang together, and no reason to reconcile is retained. The evidence tells what
the fills cost. Its decimal context has the digits of the quantity and twenty-four more, which is
room for every sum of the fills (`recomputeEconomics_exact`).
-/

set_option autoImplicit false

namespace TreeOptions.Execution

open Decimal

/-! ## Deriving again -/

@[ext]
structure ExecutionEconomics where
  filledQuantity : ℕ
  grossAmount : ℚ
  totalFees : ℚ
  netCashFlow : ℚ

def mergeIntervals (intervals : List (ℕ × ℕ)) : List (ℕ × ℕ) :=
  Intervals.merge (sortedBy (fun interval => toLex interval) intervals)

def intervalUnits (intervals : List (ℕ × ℕ)) : ℕ :=
  (intervals.map fun interval => interval.2 - interval.1).sum

/-- The digits of the context in which the fills are added. -/
def contextDigits (contracts : ℕ) : ℕ :=
  max 60 (Nat.log 10 contracts + 1 + 24)

/-- A sum of decimals in a context. -/
def contextSum (digits : ℕ) (amounts : List ℚ) : ℚ :=
  amounts.foldl (fun total amount => roundTo digits (total + amount)) 0

def fillAmount (fill : FillRecord) : ℚ :=
  fill.fillQuantity * fill.unitPrice.value

/-- What the account receives, in exact arithmetic. -/
def cashFlow (side : Side) (gross fees : ℚ) : ℚ :=
  match side with
  | .buy => -(gross + fees)
  | .sell => gross - fees

def contextFlow (digits : ℕ) (side : Side) (gross fees : ℚ) : ℚ :=
  match side with
  | .buy => roundTo digits (-roundTo digits (gross + fees))
  | .sell => roundTo digits (gross - fees)

@[ext]
structure Recomputed where
  intervals : List (ℕ × ℕ)
  covered : ℕ
  observed : ℕ
  economics : ExecutionEconomics

/-- The most that a fill or a snapshot reports. -/
def observedQuantity (records : List ExecutionRecord) : ℕ :=
  (((fillRecords records).map fun fill => fill.cumulativeQuantity) ++
    (readbacks records).map fun readback => readback.cumulativeQuantity).foldr max 0

def recomputeEconomics (side : Side) (records : List ExecutionRecord) : Recomputed :=
  let fills := fillRecords records
  let intervals := mergeIntervals (fills.map fillInterval)
  let digits := contextDigits (fills.map fun fill => fill.fillQuantity).sum
  let gross := contextSum digits (fills.map fun fill => roundTo digits (fillAmount fill))
  let fees := contextSum digits (fills.map fun fill => fill.fees.value)
  { intervals
    covered := intervalUnits intervals
    observed := observedQuantity records
    economics :=
      { filledQuantity := intervalUnits intervals
        grossAmount := gross
        totalFees := fees
        netCashFlow := contextFlow digits side gross fees } }

/-! ## The verdict -/

inductive EvidenceVerdict
  | admissible
  | refused
deriving DecidableEq

inductive EvidenceBlocker
  | nonTerminalState (state : ExecutionState)
  | intervalsMismatch (claimed derived : List (ℕ × ℕ))
  | observedMismatch (claimed derived : ℕ)
  | coveredMismatch (claimed derived : ℕ)
  | incompleteFillEconomics (state : ExecutionState) (intervals : List (ℕ × ℕ))

/-- A receipt, with the reasons to reconcile that block it among the other blockers. -/
structure EvidenceReceipt where
  intentId : String
  contractId : String
  side : Side
  verdict : EvidenceVerdict
  state : ExecutionState
  economicallyCoveredQuantity : ℕ
  economics : Option ExecutionEconomics
  blockers : List EvidenceBlocker
  retained : Finset ReconciliationReason

namespace ExecutionLifecycle

variable (life : ExecutionLifecycle)

/-- A total that was confirmed is the order that the fills answer. -/
def expectedTerminalTotal : ℕ :=
  life.brokerConfirmedTotalQuantity.getD life.intent.quantity

/-- The fills of a filled order are the whole of it, and those of another hang from zero. -/
def economicsComplete (intervals : List (ℕ × ℕ)) : Bool :=
  if life.state = .filled then intervals = [(0, life.expectedTerminalTotal)]
  else intervals = [] || intervals.length = 1 && intervals.head?.all fun first => first.1 = 0

def evidenceBlockers (again : Recomputed) : List EvidenceBlocker :=
  (if life.state ∈ terminalStates then [] else [.nonTerminalState life.state]) ++
  (if life.fillEconomicIntervals = again.intervals then []
    else [.intervalsMismatch life.fillEconomicIntervals again.intervals]) ++
  (if life.filledQuantity = again.observed then []
    else [.observedMismatch life.filledQuantity again.observed]) ++
  (if intervalUnits life.fillEconomicIntervals = again.covered then []
    else [.coveredMismatch (intervalUnits life.fillEconomicIntervals) again.covered]) ++
  (if life.state ∈ terminalStates → life.economicsComplete again.intervals then []
    else [.incompleteFillEconomics life.state again.intervals])

def assessEvidence : EvidenceReceipt :=
  let again := recomputeEconomics life.intent.side life.records
  let blockers := life.evidenceBlockers again
  let clean := blockers.isEmpty && life.reconciliationReasons = ∅
  { intentId := life.intent.intentId
    contractId := life.intent.contractId
    side := life.intent.side
    verdict := if clean then .admissible else .refused
    state := life.state
    economicallyCoveredQuantity := again.covered
    economics := if clean then some again.economics else none
    blockers
    retained := life.reconciliationReasons }

end ExecutionLifecycle

/-! ## No sum is rounded -/

section Exact

variable {records : List ExecutionRecord}

theorem ExactDecimal.InBounds.hasDecimals {decimal : ExactDecimal} (bounds : decimal.InBounds) :
    HasDecimals 8 decimal.value := by
  refine ⟨(decimal.value * 10 ^ 8).num, ?_⟩
  have whole : ((decimal.value * 10 ^ 8).num : ℚ) = decimal.value * 10 ^ 8 :=
    Rat.coe_int_num_of_den_eq_one bounds.2
  rw [whole]
  norm_num
  ring

/-- An amount of eight decimals that some contracts may come to. -/
structure Priced (contracts : ℕ) (amount : ℚ) : Prop where
  short : HasDecimals 8 amount
  nonneg : 0 ≤ amount
  bounded : amount ≤ contracts * 10 ^ 10

theorem priced_fillAmount (fill : FillRecord) : Priced fill.fillQuantity (fillAmount fill) where
  short := by
    rw [fillAmount, mul_comm]
    exact_mod_cast fill.unitPrice.bounds.hasDecimals.mul fill.fillQuantity
  nonneg := mul_nonneg (Nat.cast_nonneg _) fill.unitPrice.positive.le
  bounded := mul_le_mul_of_nonneg_left fill.unitPrice.bounds.1.le (Nat.cast_nonneg _)

theorem priced_fees (fill : FillRecord) : Priced fill.fillQuantity fill.fees.value where
  short := fill.fees.bounds.hasDecimals
  nonneg := fill.fees.nonnegative
  bounded := by
    have some_ : (1 : ℚ) ≤ fill.fillQuantity := by exact_mod_cast fill.fill_pos
    exact fill.fees.bounds.1.le.trans (le_mul_of_one_le_left (by norm_num) some_)

theorem priced_sum {amount : FillRecord → ℚ}
    (each : ∀ fill, Priced fill.fillQuantity (amount fill)) (fills : List FillRecord) :
    Priced (fills.map fun fill => fill.fillQuantity).sum (fills.map amount).sum := by
  induction fills with
  | nil => exact ⟨⟨0, by norm_num⟩, le_rfl, by norm_num⟩
  | cons fill rest ih =>
    rw [List.map_cons, List.sum_cons, List.map_cons, List.sum_cons]
    refine ⟨(each fill).short.add ih.short, add_nonneg (each fill).nonneg ih.nonneg, ?_⟩
    rw [Nat.cast_add, add_mul]
    exact add_le_add (each fill).bounded ih.bounded

/-- The context has room for the fills and their fees together. -/
theorem room {contracts : ℕ} {amount : ℚ} (bounded : |amount| ≤ contracts * (2 * 10 ^ 10)) :
    |amount| * 10 ^ 8 < 10 ^ contextDigits contracts := by
  have below : (contracts : ℚ) < 10 ^ (Nat.log 10 contracts + 1) := by
    exact_mod_cast Nat.lt_pow_succ_log_self (by norm_num) contracts
  calc |amount| * 10 ^ 8 ≤ (contracts : ℚ) * (2 * 10 ^ 10) * 10 ^ 8 := by gcongr
    _ ≤ (contracts : ℚ) * 10 ^ 24 := by
        rw [mul_assoc]
        exact mul_le_mul_of_nonneg_left (by norm_num) (Nat.cast_nonneg _)
    _ < 10 ^ (Nat.log 10 contracts + 1) * 10 ^ 24 := by gcongr
    _ ≤ 10 ^ contextDigits contracts := by
        rw [← pow_add]
        exact pow_le_pow_right₀ (by norm_num) (le_max_right _ _)

theorem roundTo_priced {contracts : ℕ} {amount : ℚ} (short : HasDecimals 8 amount)
    (bounded : |amount| ≤ contracts * (2 * 10 ^ 10)) :
    roundTo (contextDigits contracts) amount = amount :=
  roundTo_of_hasDecimals short (room bounded)

theorem contextFlow_exact {contracts : ℕ} {gross fees : ℚ} (side : Side)
    (priced : Priced contracts gross) (priced' : Priced contracts fees) :
    contextFlow (contextDigits contracts) side gross fees = cashFlow side gross fees := by
  have negated : ∀ {amount}, HasDecimals 8 amount → HasDecimals 8 (-amount) := by
    intro amount short
    simpa using short.mul (-1)
  obtain ⟨short, nonneg, bounded⟩ := priced
  obtain ⟨short', nonneg', bounded'⟩ := priced'
  cases side with
  | buy =>
    have small : |gross + fees| ≤ contracts * (2 * 10 ^ 10) := by
      rw [abs_of_nonneg (add_nonneg nonneg nonneg')]
      linarith
    rw [contextFlow, roundTo_priced (short.add short') small,
      roundTo_priced (negated (short.add short')) (by rwa [abs_neg]), cashFlow]
  | sell =>
    rw [contextFlow, sub_eq_add_neg, roundTo_priced (short.add (negated short')), cashFlow,
      sub_eq_add_neg]
    rw [← sub_eq_add_neg, abs_le]
    constructor <;> linarith

theorem contextSum_exact {amount : FillRecord → ℚ}
    (each : ∀ fill, Priced fill.fillQuantity (amount fill)) (fills : List FillRecord) :
    contextSum (contextDigits (fills.map fun fill => fill.fillQuantity).sum) (fills.map amount) =
      (fills.map amount).sum := by
  have total := priced_sum each fills
  have small : |(fills.map amount).sum| ≤
      (fills.map fun fill => fill.fillQuantity).sum * (2 * 10 ^ 10) := by
    rw [abs_of_nonneg total.nonneg]
    exact total.bounded.trans (mul_le_mul_of_nonneg_left (by norm_num) (Nat.cast_nonneg _))
  have inside := room small
  rw [abs_of_nonneg total.nonneg, ← zero_add (fills.map amount).sum] at inside
  have zero : HasDecimals 8 0 := ⟨0, by norm_num⟩
  rw [contextSum, foldl_roundTo ?_ zero le_rfl inside, zero_add]
  intro value member
  obtain ⟨fill, -, rfl⟩ := List.mem_map.mp member
  exact ⟨(each fill).short, (each fill).nonneg⟩

/-- **The money of the fills is their exact sum, however many there are.** -/
theorem recomputeEconomics_exact (side : Side) (records : List ExecutionRecord) :
    (recomputeEconomics side records).economics.grossAmount =
        ((fillRecords records).map fillAmount).sum ∧
      (recomputeEconomics side records).economics.totalFees =
        ((fillRecords records).map fun fill => fill.fees.value).sum ∧
      (recomputeEconomics side records).economics.netCashFlow =
        cashFlow side ((fillRecords records).map fillAmount).sum
          ((fillRecords records).map fun fill => fill.fees.value).sum := by
  let fills := fillRecords records
  let contracts := (fills.map fun fill => fill.fillQuantity).sum
  have gross := priced_sum priced_fillAmount fills
  have products : (fills.map fun fill => roundTo (contextDigits contracts) (fillAmount fill)) =
      fills.map fillAmount := by
    apply List.map_congr_left
    intro fill member
    apply roundTo_priced (priced_fillAmount fill).short
    have part : fillAmount fill ≤ (fills.map fillAmount).sum := by
      refine List.single_le_sum ?_ _ (List.mem_map_of_mem member)
      intro value member
      obtain ⟨fill, -, rfl⟩ := List.mem_map.mp member
      exact (priced_fillAmount fill).nonneg
    rw [abs_of_nonneg (priced_fillAmount fill).nonneg]
    linarith [gross.bounded, gross.nonneg]
  have isGross : (recomputeEconomics side records).economics.grossAmount =
      (fills.map fillAmount).sum := by
    change contextSum (contextDigits contracts)
      (fills.map fun fill => roundTo (contextDigits contracts) (fillAmount fill)) = _
    rw [products]
    exact contextSum_exact priced_fillAmount fills
  have isFees : (recomputeEconomics side records).economics.totalFees =
      (fills.map fun fill => fill.fees.value).sum := contextSum_exact priced_fees fills
  refine ⟨isGross, isFees, ?_⟩
  change contextFlow (contextDigits contracts) side
    (recomputeEconomics side records).economics.grossAmount
      (recomputeEconomics side records).economics.totalFees = _
  rw [isGross, isFees]
  exact contextFlow_exact side gross (priced_sum priced_fees fills)

end Exact

/-! ## Evidence -/

/-- Economics that tell what the fills of a lifecycle cost, to the last digit. -/
structure MoneyStory (life : ExecutionLifecycle) (economics : ExecutionEconomics) : Prop where
  gross : economics.grossAmount = ((fillRecords life.records).map fillAmount).sum
  fees : economics.totalFees = ((fillRecords life.records).map fun fill => fill.fees.value).sum
  net : economics.netCashFlow =
    cashFlow life.intent.side economics.grossAmount economics.totalFees
  filled : economics.filledQuantity =
    ((fillRecords life.records).map fun fill => fill.fillQuantity).sum
  observed : economics.filledQuantity = observedQuantity life.records
  confirmed : life.state = .filled →
    life.brokerConfirmedTotalQuantity = some economics.filledQuantity

namespace ExecutionLifecycle

variable {json : Serialization} {life life' : ExecutionLifecycle}

theorem of_admissible (admissible : life.assessEvidence.verdict = .admissible) :
    life.state ∈ terminalStates ∧ life.filledQuantity = observedQuantity life.records ∧
      life.assessEvidence.economics =
        some (recomputeEconomics life.intent.side life.records).economics := by
  let again := recomputeEconomics life.intent.side life.records
  by_cases clean : (life.evidenceBlockers again).isEmpty && life.reconciliationReasons = ∅
  · have nothing := List.isEmpty_iff.mp (Bool.and_eq_true_iff.mp clean).1
    simp only [evidenceBlockers, List.append_eq_nil_iff, ite_eq_left_iff, List.cons_ne_nil,
      imp_false, not_not] at nothing
    exact ⟨nothing.1.1.1.1, nothing.1.1.2, if_pos clean⟩
  · exact absurd (admissible.symm.trans (if_neg clean)) (by simp)

/-- The merged intervals of an order without a reason to reconcile have all its units. -/
theorem intervalUnits_of_settled (reachable : Reachable json life)
    (settled : life.state ≠ .reconciliationRequired) :
    intervalUnits (mergeIntervals ((fillRecords life.records).map fillInterval)) =
      life.filledQuantity := by
  obtain ⟨projected, -⟩ := reachable.retains
  rw [projected] at settled ⊢
  obtain ⟨clean, -⟩ := clean_of_state settled
  change intervalUnits (deriveFillIntervals life.records) = deriveObservedCumulative life.records
  rcases Nat.eq_zero_or_pos (deriveObservedCumulative life.records) with zero | positive
  · have nothing : fillRecords life.records = [] := by
      refine List.eq_nil_iff_forall_not_mem.mpr ?_
      intro fill member
      have most := cumulativeQuantity_le (mem_fillRecords.mp member) rfl
      have := fill.fill_pos.trans fill.fill_le
      omega
    rw [zero, deriveFillIntervals, rawIntervals, nothing]
    rfl
  · have covers := clean.covered positive
    rw [coversThrough, decide_eq_true_eq] at covers
    rcases covers with zero | whole
    · omega
    · rw [whole, intervalUnits]
      simp

theorem recomputeEconomics_eq_of_perm (side : Side) {first second : List ExecutionRecord}
    (same : first.Perm second) : recomputeEconomics side first = recomputeEconomics side second := by
  have intervals : mergeIntervals ((fillRecords first).map fillInterval) =
      mergeIntervals ((fillRecords second).map fillInterval) := deriveFillIntervals_eq_of_perm same
  have observed : observedQuantity first = observedQuantity second := by
    have reported := ((fillRecords_perm same).map fun fill => fill.cumulativeQuantity).append
      ((readbacks_perm same).map fun readback => readback.cumulativeQuantity)
    exact reported.foldr_eq 0
  have amounts := ((fillRecords_perm same).map fillAmount).sum_eq
  have fees := ((fillRecords_perm same).map fun fill => fill.fees.value).sum_eq
  obtain ⟨gross, total, net⟩ := recomputeEconomics_exact side first
  obtain ⟨gross', total', net'⟩ := recomputeEconomics_exact side second
  have economics : (recomputeEconomics side first).economics =
      (recomputeEconomics side second).economics := by
    ext
    · exact congrArg intervalUnits intervals
    · rw [gross, gross', amounts]
    · rw [total, total', fees]
    · rw [net, net', amounts, fees]
  exact Recomputed.ext intervals (congrArg intervalUnits intervals) observed economics

theorem assessEvidence_withRecords {records : List ExecutionRecord}
    (same : life.records.Perm records) :
    { life with records }.assessEvidence = life.assessEvidence := by
  unfold assessEvidence
  dsimp only
  rw [recomputeEconomics_eq_of_perm life.intent.side same]
  rfl

/-- **Admissible evidence tells what the fills cost exactly, refused evidence tells nothing of it,
and the order in which the records came does not matter.** -/
theorem assessEvidence_exact (json : Serialization) (life : ExecutionLifecycle)
    (reachable : Reachable json life) :
    (life.assessEvidence.verdict = .admissible → ∃ economics,
      life.assessEvidence.economics = some economics ∧ MoneyStory life economics) ∧
    (life.assessEvidence.verdict = .refused → life.assessEvidence.economics = none) ∧
    ∀ other, Reachable json other → other.intent = life.intent →
      (∀ record, record ∈ other.records ↔ record ∈ life.records) →
        other.assessEvidence = life.assessEvidence := by
  refine ⟨?_, ?_, ?_⟩
  · intro admissible
    obtain ⟨terminal, observed, isEconomics⟩ := of_admissible admissible
    have settled : life.state ≠ .reconciliationRequired := by
      intro same
      rw [same] at terminal
      exact absurd terminal (by decide)
    obtain ⟨gross, fees, net⟩ := recomputeEconomics_exact life.intent.side life.records
    obtain ⟨-, -, quantities, -, confirmed⟩ := economicsExact json life reachable settled
    have covered := intervalUnits_of_settled reachable settled
    refine ⟨_, isEconomics, gross, fees, ?_, covered.trans quantities.symm,
      covered.trans observed, ?_⟩
    · rw [gross, fees, net]
    · intro filled
      exact (confirmed filled).trans (congrArg some covered.symm)
  · intro refused
    rw [assessEvidence] at refused ⊢
    dsimp only at refused ⊢
    split at refused
    case isTrue => cases refused
    case isFalse unclean => exact if_neg unclean
  · intro other reachable' sameIntent sameRecords
    have retains := reachable.retains
    have retains' := reachable'.retains
    have perm : other.records.Perm life.records :=
      (List.perm_ext_iff_of_nodup retains'.nodup retains.nodup).mpr sameRecords
    have projected : { other with records := life.records } = life := by
      rw [retains.projected, retains'.projected, sameIntent]
      exact projectRecords_eq_of_perm perm _
    rw [← projected, assessEvidence_withRecords perm]

/-- Two contracts that were filled at once cost twice their price. -/
theorem assessEvidence_sample : ∃ economics, MoneyStory
    (projectRecords sampleSerialization (sampleIntent 2 (by decide)) sampleFilled) economics := by
  obtain ⟨economics, -, story⟩ := (assessEvidence_exact sampleSerialization
    (projectRecords sampleSerialization (sampleIntent 2 (by decide)) sampleFilled)
    ⟨sampleFilled, rfl⟩).1 (by decide)
  exact ⟨economics, story⟩

end ExecutionLifecycle

end TreeOptions.Execution
