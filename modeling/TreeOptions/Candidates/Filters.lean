import Mathlib.Data.List.Nodup
import TreeOptions.Foundations.DecimalContext

/-!
# Option candidate filters

Every rule of a filter judges a candidate, and every outcome is recorded: a candidate is accepted
when no rule fails or cannot be evaluated. A value is read only where its stamp has a zone and is
not after the decision, so a value that is not available changes no outcome, whatever it is
(`filtering_exact`).
-/

set_option autoImplicit false

namespace TreeOptions.Candidates

open Decimal

/-! ## Candidates -/

/-- An instant, with a time zone or without. -/
structure Timestamp where
  instant : ℤ
  aware : Bool
deriving DecidableEq

/-- A value with the instant at which it became available and where it came from. -/
structure AsOf (Value : Type) where
  value : Value
  availableAt : Timestamp
  provenance : String := "vendor"

/-- This is asked only of instants with a zone. -/
def AsOf.availableBy {Value : Type} (input : AsOf Value) (decisionAt : Timestamp) : Bool :=
  input.availableAt.instant ≤ decisionAt.instant

structure OptionContract where
  contractId : String
  underlyingSecurityId : String
  expiration : ℤ
  sharesPerContract : ℚ
  standardContractFlag : Bool
  corporateActionId : Option String

structure CandidateSnapshot where
  contract : OptionContract
  underlyingSecurityId : String
  decisionSession : ℤ
  decisionAt : Timestamp
  expiration : ℤ
  absDelta : Option (AsOf ℚ)
  openInterest : Option (AsOf ℤ)
  sameDayVolume : Option (AsOf ℤ)
  sameDayVolumeApplicable : Bool
  bid : Option (AsOf ℚ)
  ask : Option (AsOf ℚ)
  underlying20dMedianDollarVolume : Option (AsOf ℚ)
  spansEarnings : Option (AsOf Bool)

inductive RuleStatus where
  | pass
  | fail
  | notEvaluable
  | notApplicable
deriving DecidableEq

/-- What is said of an outcome: a text, or one with the values shown in it. -/
inductive Detail where
  | text (text : String)
  | notInCalendar (session : ℤ)
  | notSessionClose (decisionAt : Timestamp) (expectedClose : ℤ)
  | disagreesWith (contractId : String)
  | dte (dte : ℤ)
  | dteNotIn (dte dteMin dteMax : ℤ)
  | provenanceNotAccepted (provenance : String) (accepted : List String)
  | outOfBand (delta : ℚ)
  | inBand (provenance : String)
  | nonstandard (contractId : String)
  | belowFlowMin (volumeMin : ℤ)
  | atFlowMin (volumeMin : ℤ)
  | crossed (bid ask : ℚ)
  | midpoint (mid : ℚ)
  | exceedsLimit (fraction : ℚ)
  | fraction (fraction : ℚ)
deriving DecidableEq

structure RuleResult where
  rule : String
  status : RuleStatus
  detail : Detail
deriving DecidableEq

structure CandidateDecision where
  contractId : String
  accepted : Bool
  results : List RuleResult
deriving DecidableEq

/-! ## The filter -/

/-- Two-sided markets, or the volume of a session, of which at least one contract is asked. -/
inductive LiquidityRegime where
  | twoSided
  | volumeFlow (flowMinSessionVolume : ℤ) (positive : 1 ≤ flowMinSessionVolume)

@[simp] def LiquidityRegime.isFlow : LiquidityRegime → Bool
  | .twoSided => false
  | .volumeFlow _ _ => true

inductive UnderlyingLiquidityTerm where
  | evaluated
  | droppedNoEquityAggregates
deriving DecidableEq

structure CandidateFilter where
  dteMin : ℤ
  dteMax : ℤ
  absDeltaMin : ℚ
  absDeltaMax : ℚ
  standardDeliverableOnly : Bool
  minOpenInterest : ℤ
  minSameDayVolume : ℤ
  volumeOnlyIfAlreadyAvailable : Bool
  maxSpreadFractionOfMidpoint : ℚ
  minUnderlying20dMedianDollarVolume : ℚ
  excludeEarningsSpanningHold : Bool
  liquidityRegime : LiquidityRegime
  underlyingLiquidityTerm : UnderlyingLiquidityTerm
  acceptedDeltaProvenance : List String
  earningsDisclosedAbsence : Bool

/-- What is found of a rule. -/
abbrev Outcome :=
  RuleStatus × Detail

/-- An input is judged by its value where its stamp has a zone and is not after the decision. -/
def judge {Value : Type} (input : Option (AsOf Value)) (missing : Outcome) (future : String)
    (decisionAt : Timestamp) (threshold : Value → Outcome) : Outcome :=
  match input with
  | none => missing
  | some input =>
    if !input.availableAt.aware then (.notEvaluable, .text "naive timestamp")
    else if !input.availableBy decisionAt then (.notEvaluable, .text future)
    else threshold input.value

section Rules

variable (filter : CandidateFilter) (snap : CandidateSnapshot)

/-- Calendar days to the expiration of the contract. -/
def dteRule : Outcome :=
  let dte := snap.contract.expiration - snap.decisionSession
  if filter.dteMin ≤ dte ∧ dte ≤ filter.dteMax then (.pass, .dte dte)
  else (.fail, .dteNotIn dte filter.dteMin filter.dteMax)

/-- The provenance is looked at before the instant. -/
def deltaRule : Outcome :=
  match snap.absDelta with
  | none => (.notEvaluable, .text "abs_delta missing")
  | some delta =>
    if !delta.availableAt.aware then (.notEvaluable, .text "naive timestamp")
    else if delta.provenance ∉ filter.acceptedDeltaProvenance then
      (.notEvaluable, .provenanceNotAccepted delta.provenance filter.acceptedDeltaProvenance)
    else if !delta.availableBy snap.decisionAt then
      (.notEvaluable, .text "future-available delta")
    else if filter.absDeltaMin ≤ delta.value ∧ delta.value ≤ filter.absDeltaMax then
      (.pass, .inBand delta.provenance)
    else (.fail, .outOfBand delta.value)

def deliverableRule : Outcome :=
  if !filter.standardDeliverableOnly then (.notApplicable, .text "filter disabled")
  else if snap.contract.standardContractFlag = true ∧ snap.contract.corporateActionId = none ∧
      snap.contract.sharesPerContract = 100 then
    (.pass, .text "standard 100 shares")
  else (.fail, .nonstandard snap.contract.contractId)

def openInterestRule : Outcome :=
  match filter.liquidityRegime with
  | .volumeFlow _ _ =>
    if snap.openInterest.isSome then
      (.notEvaluable, .text <|
        "regime incoherent: volume_flow drops OI as absent, but the snapshot supplies " ++
        "open_interest (value withheld: its availability was never checked, and a future value " ++
        "must not leak into the audit)")
    else (.notApplicable, .text "dropped: no open interest on a no-two-sided-market tier")
  | .twoSided =>
    judge snap.openInterest (.notEvaluable, .text "missing") "future-available" snap.decisionAt
      fun value =>
        if value < filter.minOpenInterest then (.fail, .text "below min")
        else (.pass, .text "above min")

/-- A supplied volume is always judged, and only the two-sided regime excuses a missing one. -/
def volumeRule : Outcome :=
  match filter.liquidityRegime with
  | .volumeFlow volumeMin _ =>
    judge snap.sameDayVolume
      (.notEvaluable,
        .text "missing: session volume is the liquidity term in the volume_flow regime")
      "future-available volume" snap.decisionAt fun value =>
        if value < volumeMin then (.fail, .belowFlowMin volumeMin)
        else (.pass, .atFlowMin volumeMin)
  | .twoSided =>
    judge snap.sameDayVolume
      (if filter.volumeOnlyIfAlreadyAvailable && !snap.sameDayVolumeApplicable then
        (.notApplicable, .text "not yet published at decision")
      else (.notEvaluable, .text "missing"))
      "future-available volume" snap.decisionAt fun value =>
        if value < filter.minSameDayVolume then (.fail, .text "below min")
        else (.pass, .text "above min")

def midpoint (bid ask : ℚ) : ℚ :=
  roundContext (add bid ask / 2)

def spreadFraction (bid ask : ℚ) : ℚ :=
  roundContext (sub ask bid / midpoint bid ask)

def judgeSpread (bid ask : ℚ) : Outcome :=
  if ask < bid then (.notEvaluable, .crossed bid ask)
  else if midpoint bid ask ≤ 0 then (.notEvaluable, .midpoint (midpoint bid ask))
  else if filter.maxSpreadFractionOfMidpoint < spreadFraction bid ask then
    (.fail, .exceedsLimit (spreadFraction bid ask))
  else (.pass, .fraction (spreadFraction bid ask))

def spreadRule : Outcome :=
  match filter.liquidityRegime with
  | .volumeFlow _ _ =>
    if snap.bid.isSome || snap.ask.isSome then
      (.notEvaluable, .text <|
        "regime incoherent: volume_flow drops the spread as absent, but the snapshot supplies " ++
        "a two-sided quote")
    else (.notApplicable, .text "dropped: no two-sided market on this tier")
  | .twoSided =>
    match snap.bid, snap.ask with
    | some bid, some ask =>
      if !bid.availableAt.aware || !ask.availableAt.aware then
        (.notEvaluable, .text "naive quote timestamp")
      else if !bid.availableBy snap.decisionAt || !ask.availableBy snap.decisionAt then
        (.notEvaluable, .text "future-available quote")
      else judgeSpread filter bid.value ask.value
    | _, _ => (.notEvaluable, .text "bid/ask missing")

/-- The regime has declared that there is no dollar volume. -/
def CandidateFilter.dropsUnderlyingLiquidity : Bool :=
  filter.liquidityRegime.isFlow &&
    filter.underlyingLiquidityTerm = .droppedNoEquityAggregates

def underlyingLiquidityRule : Outcome :=
  if filter.dropsUnderlyingLiquidity then
    if snap.underlying20dMedianDollarVolume.isSome then
      (.notEvaluable, .text <|
        "regime incoherent: the protocol drops the underlying-liquidity term as having no " ++
        "equity-aggregates source, but the snapshot supplies a dollar-volume value (value " ++
        "withheld: its availability was never checked, and a future value must not leak into " ++
        "the audit)")
    else (.notApplicable, .text "dropped: no equity-aggregates dollar volume on this tier")
  else
    judge snap.underlying20dMedianDollarVolume (.notEvaluable, .text "missing")
      "future-available" snap.decisionAt fun value =>
        if value < filter.minUnderlying20dMedianDollarVolume then (.fail, .text "below min")
        else (.pass, .text "above min")

/-- A declared absence excuses an absent input, and not one that is supplied. -/
def earningsRule : Outcome :=
  if !filter.excludeEarningsSpanningHold then (.notApplicable, .text "filter disabled")
  else
    judge snap.spansEarnings
      (if filter.earningsDisclosedAbsence then
        (.notApplicable, .text <|
          "earnings span not evaluable: no events source on this tier (0.2.2 " ++
          "disclosed-absence, owner ruling m4-022-ruling-20260828)")
      else (.notEvaluable, .text "missing"))
      "future-available" snap.decisionAt fun value =>
        if value then (.fail, .text "earnings span the hold")
        else (.pass, .text "no spanning earnings")

/-- The rules in the order of the audit. The flow regime has its own name for the volume. -/
def rules : List (String × Outcome) :=
  [("dte", dteRule filter snap),
    ("delta", deltaRule filter snap),
    ("deliverable", deliverableRule filter snap),
    ("open_interest", openInterestRule filter snap),
    (if filter.liquidityRegime.isFlow then "session_volume_flow" else "same_day_volume",
      volumeRule filter snap),
    ("spread", spreadRule filter snap),
    ("underlying_liquidity", underlyingLiquidityRule filter snap),
    ("earnings_span", earningsRule filter snap)]

def ruleNames : List String :=
  ["dte", "delta", "deliverable", "open_interest",
    if filter.liquidityRegime.isFlow then "session_volume_flow" else "same_day_volume",
    "spread", "underlying_liquidity", "earnings_span"]

variable (sessionClose : ℤ → Option ℤ)

/-- The decision is made at the close of its session. -/
def decisionCoherence : List RuleResult :=
  if !snap.decisionAt.aware then
    [⟨"decision_coherence", .notEvaluable, .text "naive decision_at"⟩]
  else
    match sessionClose snap.decisionSession with
    | none => [⟨"decision_coherence", .notEvaluable, .notInCalendar snap.decisionSession⟩]
    | some close =>
      if snap.decisionAt.instant = close then []
      else [⟨"decision_coherence", .notEvaluable, .notSessionClose snap.decisionAt close⟩]

/-- The snapshot describes the contract that it carries. -/
def contractCoherence : List RuleResult :=
  if snap.expiration ≠ snap.contract.expiration ∨
      snap.underlyingSecurityId ≠ snap.contract.underlyingSecurityId then
    [⟨"contract_coherence", .notEvaluable, .disagreesWith snap.contract.contractId⟩]
  else []

def RuleStatus.blocks : RuleStatus → Bool
  | .fail | .notEvaluable => true
  | .pass | .notApplicable => false

@[simp] theorem pass_blocks : RuleStatus.pass.blocks = false :=
  rfl

@[simp] theorem fail_blocks : RuleStatus.fail.blocks = true :=
  rfl

@[simp] theorem notEvaluable_blocks : RuleStatus.notEvaluable.blocks = true :=
  rfl

@[simp] theorem notApplicable_blocks : RuleStatus.notApplicable.blocks = false :=
  rfl

/-- Where the decision or the contract is incoherent nothing is evaluated. -/
def evaluate : CandidateDecision :=
  match decisionCoherence snap sessionClose ++ contractCoherence snap with
  | [] => {
      contractId := snap.contract.contractId
      accepted := !(rules filter snap).any fun rule => rule.2.1.blocks
      results := (rules filter snap).map fun rule => ⟨rule.1, rule.2.1, rule.2.2⟩ }
  | incoherent => {
      contractId := snap.contract.contractId
      accepted := false
      results := incoherent ++ (ruleNames filter).map fun rule =>
        ⟨rule, .notEvaluable, .text "decision instant incoherent"⟩ }

end Rules

/-! ## What filtering promises -/

/-- An input is available, and its value is as asked. -/
def Reads {Value : Type} (input : Option (AsOf Value)) (decisionAt : Timestamp)
    (holds : Value → Prop) : Prop :=
  ∃ found, input = some found ∧ found.availableAt.aware = true ∧
    found.availableBy decisionAt = true ∧ holds found.value

/-- Every enabled rule holds of an available input, or the regime excuses the input. -/
structure Meets (filter : CandidateFilter) (sessionClose : ℤ → Option ℤ)
    (snap : CandidateSnapshot) : Prop where
  zoned : snap.decisionAt.aware = true
  atClose : sessionClose snap.decisionSession = some snap.decisionAt.instant
  agrees : snap.expiration = snap.contract.expiration ∧
    snap.underlyingSecurityId = snap.contract.underlyingSecurityId
  dte : filter.dteMin ≤ snap.contract.expiration - snap.decisionSession ∧
    snap.contract.expiration - snap.decisionSession ≤ filter.dteMax
  delta : (∃ found, snap.absDelta = some found ∧
      found.provenance ∈ filter.acceptedDeltaProvenance) ∧
    Reads snap.absDelta snap.decisionAt fun value =>
      filter.absDeltaMin ≤ value ∧ value ≤ filter.absDeltaMax
  deliverable : filter.standardDeliverableOnly = true →
    snap.contract.standardContractFlag = true ∧ snap.contract.corporateActionId = none ∧
      snap.contract.sharesPerContract = 100
  openInterest : if filter.liquidityRegime.isFlow then snap.openInterest = none
    else Reads snap.openInterest snap.decisionAt fun value => filter.minOpenInterest ≤ value
  volume : match filter.liquidityRegime with
    | .volumeFlow volumeMin _ =>
      Reads snap.sameDayVolume snap.decisionAt fun value => volumeMin ≤ value
    | .twoSided =>
      (snap.sameDayVolume = none ∧ filter.volumeOnlyIfAlreadyAvailable = true ∧
        snap.sameDayVolumeApplicable = false) ∨
        Reads snap.sameDayVolume snap.decisionAt fun value => filter.minSameDayVolume ≤ value
  spread : if filter.liquidityRegime.isFlow then snap.bid = none ∧ snap.ask = none
    else Reads snap.bid snap.decisionAt fun bid => Reads snap.ask snap.decisionAt fun ask =>
      bid ≤ ask ∧ 0 < midpoint bid ask ∧
        spreadFraction bid ask ≤ filter.maxSpreadFractionOfMidpoint
  underlyingLiquidity : if filter.dropsUnderlyingLiquidity then
      snap.underlying20dMedianDollarVolume = none
    else Reads snap.underlying20dMedianDollarVolume snap.decisionAt fun value =>
      filter.minUnderlying20dMedianDollarVolume ≤ value
  earnings : filter.excludeEarningsSpanningHold = true →
    (snap.spansEarnings = none ∧ filter.earningsDisclosedAbsence = true) ∨
      Reads snap.spansEarnings snap.decisionAt fun value => value = false

/-- The value of an input is another one, if the input is declared absent, has no zone or is not
available. -/
inductive Replaced {Value : Type} (decisionAt : Timestamp) (absent : Bool) :
    Option (AsOf Value) → Option (AsOf Value) → Prop where
  | same (input : Option (AsOf Value)) : Replaced decisionAt absent input input
  | other (input : AsOf Value) (value : Value)
      (unread : absent = true ∨ input.availableAt.aware = false ∨
        input.availableBy decisionAt = false) :
      Replaced decisionAt absent (some input) (some { input with value })

/-- Two snapshots that differ in nothing but values that are not to be read. -/
structure ValuesReplaced (filter : CandidateFilter) (snap other : CandidateSnapshot) : Prop where
  contract : other.contract = snap.contract
  underlyingSecurityId : other.underlyingSecurityId = snap.underlyingSecurityId
  decisionSession : other.decisionSession = snap.decisionSession
  decisionAt : other.decisionAt = snap.decisionAt
  expiration : other.expiration = snap.expiration
  sameDayVolumeApplicable : other.sameDayVolumeApplicable = snap.sameDayVolumeApplicable
  absDelta : Replaced snap.decisionAt false snap.absDelta other.absDelta
  openInterest : Replaced snap.decisionAt filter.liquidityRegime.isFlow snap.openInterest
    other.openInterest
  sameDayVolume : Replaced snap.decisionAt false snap.sameDayVolume other.sameDayVolume
  bid : Replaced snap.decisionAt filter.liquidityRegime.isFlow snap.bid other.bid
  ask : Replaced snap.decisionAt filter.liquidityRegime.isFlow snap.ask other.ask
  underlyingLiquidity : Replaced snap.decisionAt filter.dropsUnderlyingLiquidity
    snap.underlying20dMedianDollarVolume other.underlying20dMedianDollarVolume
  spansEarnings : Replaced snap.decisionAt false snap.spansEarnings other.spansEarnings

/-! ## Values that are not read -/

section Unread

variable {Value : Type} {decisionAt : Timestamp} {absent : Bool} {input other : Option (AsOf Value)}

@[simp] theorem AsOf.availableBy_replace (input : AsOf Value) (value : Value) :
    { input with value }.availableBy decisionAt = input.availableBy decisionAt :=
  rfl

theorem Replaced.isSome (replaced : Replaced decisionAt absent input other) :
    other.isSome = input.isSome := by
  cases replaced with
  | same => rfl
  | other => rfl

/-- **What is judged does not depend on a value that is not read.** -/
theorem Replaced.judge (replaced : Replaced decisionAt false input other) (missing : Outcome)
    (future : String) (threshold : Value → Outcome) :
    Candidates.judge other missing future decisionAt threshold =
      Candidates.judge input missing future decisionAt threshold := by
  cases replaced with
  | same => rfl
  | other input value unread =>
    rcases unread with declared | naive | later
    · cases declared
    · simp [Candidates.judge, naive]
    · simp [Candidates.judge, later]

variable {filter : CandidateFilter} {snap other : CandidateSnapshot}
  (replaced : ValuesReplaced filter snap other)

include replaced

theorem ValuesReplaced.deltaRule : deltaRule filter other = Candidates.deltaRule filter snap := by
  have input := replaced.absDelta
  rw [Candidates.deltaRule, Candidates.deltaRule, replaced.decisionAt]
  generalize snap.absDelta = first, other.absDelta = second at input
  cases input with
  | same => rfl
  | other input value unread =>
    rcases unread with declared | naive | later
    · cases declared
    · simp [naive]
    · simp [later]

theorem ValuesReplaced.openInterestRule :
    openInterestRule filter other = Candidates.openInterestRule filter snap := by
  have input := replaced.openInterest
  rw [Candidates.openInterestRule, Candidates.openInterestRule, replaced.decisionAt, input.isSome]
  cases regime : filter.liquidityRegime with
  | volumeFlow => rfl
  | twoSided =>
    rw [regime] at input
    exact input.judge ..

theorem ValuesReplaced.volumeRule :
    volumeRule filter other = Candidates.volumeRule filter snap := by
  rw [Candidates.volumeRule, Candidates.volumeRule, replaced.decisionAt,
    replaced.sameDayVolumeApplicable]
  cases filter.liquidityRegime with
  | volumeFlow => exact replaced.sameDayVolume.judge ..
  | twoSided => exact replaced.sameDayVolume.judge ..

theorem ValuesReplaced.spreadRule :
    spreadRule filter other = Candidates.spreadRule filter snap := by
  have isBid := replaced.bid
  have isAsk := replaced.ask
  rw [Candidates.spreadRule, Candidates.spreadRule, replaced.decisionAt, isBid.isSome,
    isAsk.isSome]
  cases regime : filter.liquidityRegime with
  | volumeFlow => rfl
  | twoSided =>
    rw [regime] at isBid isAsk
    generalize snap.bid = bid, other.bid = bid', snap.ask = ask, other.ask = ask' at isBid isAsk ⊢
    cases isBid with
    | same bid =>
      cases isAsk with
      | same => rfl
      | other ask value unread =>
        cases bid with
        | none => rfl
        | some bid => rcases unread with declared | naive | later <;> simp_all [LiquidityRegime.isFlow]
    | other bid value unread =>
      cases isAsk with
      | same ask =>
        cases ask with
        | none => rfl
        | some ask => rcases unread with declared | naive | later <;> simp_all [LiquidityRegime.isFlow]
      | other ask => rcases unread with declared | naive | later <;> simp_all [LiquidityRegime.isFlow]

theorem ValuesReplaced.underlyingLiquidityRule :
    underlyingLiquidityRule filter other = Candidates.underlyingLiquidityRule filter snap := by
  have input := replaced.underlyingLiquidity
  rw [Candidates.underlyingLiquidityRule, Candidates.underlyingLiquidityRule, replaced.decisionAt,
    input.isSome]
  cases drops : filter.dropsUnderlyingLiquidity with
  | true => rfl
  | false =>
    rw [drops] at input
    simp only [Bool.false_eq_true, if_false]
    exact input.judge ..

theorem ValuesReplaced.earningsRule :
    earningsRule filter other = Candidates.earningsRule filter snap := by
  rw [Candidates.earningsRule, Candidates.earningsRule, replaced.decisionAt,
    replaced.spansEarnings.judge]

/-- **A value that is not read changes nothing.** -/
theorem ValuesReplaced.evaluate (sessionClose : ℤ → Option ℤ) :
    evaluate filter other sessionClose = Candidates.evaluate filter snap sessionClose := by
  have rules : rules filter other = Candidates.rules filter snap := by
    rw [Candidates.rules, Candidates.rules, dteRule, deliverableRule, replaced.contract,
      replaced.decisionSession, replaced.deltaRule, replaced.openInterestRule,
      replaced.volumeRule, replaced.spreadRule, replaced.underlyingLiquidityRule,
      replaced.earningsRule]
    rfl
  rw [Candidates.evaluate, Candidates.evaluate, rules, decisionCoherence, contractCoherence,
    replaced.decisionAt, replaced.decisionSession, replaced.contract, replaced.expiration,
    replaced.underlyingSecurityId]
  rfl

end Unread

/-! ## What is accepted -/

section Accepted

variable {filter : CandidateFilter} {snap : CandidateSnapshot} {sessionClose : ℤ → Option ℤ}

/-- **An input that is judged is available, or its absence is excused.** -/
theorem judge_blocks {Value : Type} {input : Option (AsOf Value)} {missing : Outcome}
    {future : String} {decisionAt : Timestamp} {threshold : Value → Outcome} :
    (judge input missing future decisionAt threshold).1.blocks = false ↔
      (input = none ∧ missing.1.blocks = false) ∨
        Reads input decisionAt fun value => (threshold value).1.blocks = false := by
  cases input with
  | none => simp [judge, Reads]
  | some input =>
    cases zoned : input.availableAt.aware <;> cases found : input.availableBy decisionAt <;>
      simp [judge, Reads, zoned, found]

@[simp] theorem passIf_blocks {condition : Prop} [Decidable condition] {passed failed : Detail} :
    (if condition then (RuleStatus.pass, passed) else (.fail, failed)).1.blocks = false ↔
      condition := by
  by_cases met : condition
  · simp [met]
  · simp [met]

@[simp] theorem failIf_blocks {condition : Prop} [Decidable condition] {passed failed : Detail} :
    (if condition then (RuleStatus.fail, failed) else (.pass, passed)).1.blocks = false ↔
      ¬ condition := by
  by_cases met : condition
  · simp [met]
  · simp [met]

theorem dteRule_blocks : (dteRule filter snap).1.blocks = false ↔
    filter.dteMin ≤ snap.contract.expiration - snap.decisionSession ∧
      snap.contract.expiration - snap.decisionSession ≤ filter.dteMax :=
  passIf_blocks

theorem deltaRule_blocks : (deltaRule filter snap).1.blocks = false ↔
    (∃ found, snap.absDelta = some found ∧ found.provenance ∈ filter.acceptedDeltaProvenance) ∧
      Reads snap.absDelta snap.decisionAt fun value =>
        filter.absDeltaMin ≤ value ∧ value ≤ filter.absDeltaMax := by
  rw [deltaRule]
  cases snap.absDelta with
  | none => simp [Reads]
  | some delta =>
    cases zoned : delta.availableAt.aware with
    | false => simp [Reads, zoned]
    | true =>
      by_cases known : delta.provenance ∈ filter.acceptedDeltaProvenance
      · cases found : delta.availableBy snap.decisionAt with
        | false => simp [Reads, known, zoned, found]
        | true =>
          simp only [known, zoned, found]
          simp [Reads, known, zoned, found]
      · simp [known, zoned]

theorem deliverableRule_blocks : (deliverableRule filter snap).1.blocks = false ↔
    (filter.standardDeliverableOnly = true →
      snap.contract.standardContractFlag = true ∧ snap.contract.corporateActionId = none ∧
        snap.contract.sharesPerContract = 100) := by
  rw [deliverableRule]
  cases filter.standardDeliverableOnly with
  | false => simp
  | true => simp

theorem openInterestRule_blocks : (openInterestRule filter snap).1.blocks = false ↔
    if filter.liquidityRegime.isFlow then snap.openInterest = none
    else Reads snap.openInterest snap.decisionAt fun value => filter.minOpenInterest ≤ value := by
  rw [openInterestRule]
  cases filter.liquidityRegime with
  | volumeFlow => cases snap.openInterest <;> simp
  | twoSided => simp [judge_blocks]

theorem volumeRule_blocks : (volumeRule filter snap).1.blocks = false ↔
    match filter.liquidityRegime with
    | .volumeFlow volumeMin _ =>
      Reads snap.sameDayVolume snap.decisionAt fun value => volumeMin ≤ value
    | .twoSided =>
      (snap.sameDayVolume = none ∧ filter.volumeOnlyIfAlreadyAvailable = true ∧
        snap.sameDayVolumeApplicable = false) ∨
        Reads snap.sameDayVolume snap.decisionAt fun value => filter.minSameDayVolume ≤ value := by
  rw [volumeRule]
  cases filter.liquidityRegime with
  | volumeFlow => simp [judge_blocks]
  | twoSided =>
    cases filter.volumeOnlyIfAlreadyAvailable <;> cases snap.sameDayVolumeApplicable <;>
      simp [judge_blocks]

theorem judgeSpread_blocks {bid ask : ℚ} : (judgeSpread filter bid ask).1.blocks = false ↔
    bid ≤ ask ∧ 0 < midpoint bid ask ∧
      spreadFraction bid ask ≤ filter.maxSpreadFractionOfMidpoint := by
  rw [judgeSpread]
  by_cases crossed : ask < bid
  · simp [crossed]
  · by_cases positive : midpoint bid ask ≤ 0
    · simp [crossed, positive]
    · simp [crossed, positive, not_lt.mp crossed, not_le.mp positive]

theorem spreadRule_blocks : (spreadRule filter snap).1.blocks = false ↔
    if filter.liquidityRegime.isFlow then snap.bid = none ∧ snap.ask = none
    else Reads snap.bid snap.decisionAt fun bid => Reads snap.ask snap.decisionAt fun ask =>
      bid ≤ ask ∧ 0 < midpoint bid ask ∧
        spreadFraction bid ask ≤ filter.maxSpreadFractionOfMidpoint := by
  rw [spreadRule]
  cases filter.liquidityRegime with
  | volumeFlow => cases snap.bid <;> cases snap.ask <;> simp
  | twoSided =>
    cases snap.bid with
    | none => simp [Reads]
    | some bid =>
      cases snap.ask with
      | none => simp [Reads]
      | some ask =>
        cases zoned : bid.availableAt.aware <;> cases zoned' : ask.availableAt.aware <;>
          cases found : bid.availableBy snap.decisionAt <;>
            cases found' : ask.availableBy snap.decisionAt <;>
              simp [Reads, zoned, zoned', found, found', judgeSpread_blocks]

theorem underlyingLiquidityRule_blocks :
    (underlyingLiquidityRule filter snap).1.blocks = false ↔
      if filter.dropsUnderlyingLiquidity then snap.underlying20dMedianDollarVolume = none
      else Reads snap.underlying20dMedianDollarVolume snap.decisionAt fun value =>
        filter.minUnderlying20dMedianDollarVolume ≤ value := by
  rw [underlyingLiquidityRule]
  cases filter.dropsUnderlyingLiquidity with
  | true => cases snap.underlying20dMedianDollarVolume <;> simp
  | false => simp [judge_blocks]

theorem earningsRule_blocks : (earningsRule filter snap).1.blocks = false ↔
    (filter.excludeEarningsSpanningHold = true →
      (snap.spansEarnings = none ∧ filter.earningsDisclosedAbsence = true) ∨
        Reads snap.spansEarnings snap.decisionAt fun value => value = false) := by
  rw [earningsRule]
  cases filter.excludeEarningsSpanningHold with
  | false => simp
  | true => cases filter.earningsDisclosedAbsence <;> simp [judge_blocks]

theorem decisionCoherence_eq_nil : decisionCoherence snap sessionClose = [] ↔
    snap.decisionAt.aware = true ∧
      sessionClose snap.decisionSession = some snap.decisionAt.instant := by
  rw [decisionCoherence]
  cases snap.decisionAt.aware with
  | false => simp
  | true =>
    cases sessionClose snap.decisionSession with
    | none => simp
    | some close => simp [eq_comm]

theorem contractCoherence_eq_nil : contractCoherence snap = [] ↔
    snap.expiration = snap.contract.expiration ∧
      snap.underlyingSecurityId = snap.contract.underlyingSecurityId := by
  rw [contractCoherence]
  split
  case isTrue differs => simp; tauto
  case isFalse agrees => simp; tauto

/-- **What is accepted is coherent and meets every rule.** -/
theorem accepted_iff_meets : (evaluate filter snap sessionClose).accepted = true ↔
    Meets filter sessionClose snap := by
  rw [evaluate]
  split
  case h_1 coherent =>
    obtain ⟨decision, contract⟩ := List.append_eq_nil_iff.mp coherent
    obtain ⟨zoned, atClose⟩ := decisionCoherence_eq_nil.mp decision
    have agrees := contractCoherence_eq_nil.mp contract
    simp only [rules, List.any_cons, List.any_nil, Bool.not_eq_true', Bool.or_eq_false_iff,
      dteRule_blocks, deltaRule_blocks, deliverableRule_blocks, openInterestRule_blocks,
      volumeRule_blocks, spreadRule_blocks, underlyingLiquidityRule_blocks, earningsRule_blocks]
    constructor
    · rintro ⟨dte, delta, deliverable, interest, volume, spread, liquidity, earnings, -⟩
      exact ⟨zoned, atClose, agrees, dte, delta, deliverable, interest, volume, spread, liquidity,
        earnings⟩
    · intro meets
      exact ⟨meets.dte, meets.delta, meets.deliverable, meets.openInterest, meets.volume,
        meets.spread, meets.underlyingLiquidity, meets.earnings, trivial⟩
  case h_2 incoherent =>
    constructor
    · intro accepted
      cases accepted
    · intro meets
      refine absurd (List.append_eq_nil_iff.mpr ⟨?_, ?_⟩) incoherent
      · exact decisionCoherence_eq_nil.mpr ⟨meets.zoned, meets.atClose⟩
      · exact contractCoherence_eq_nil.mpr meets.agrees

/-! ## The audit -/

theorem ruleNames_nodup : (ruleNames filter).Nodup := by
  rw [ruleNames]
  cases filter.liquidityRegime.isFlow <;> decide

/-- **The audit lists what was incoherent, and then each rule.** -/
theorem results_names : (evaluate filter snap sessionClose).results.map RuleResult.rule =
    (decisionCoherence snap sessionClose ++ contractCoherence snap).map RuleResult.rule ++
      ruleNames filter := by
  rw [evaluate]
  split
  case h_1 coherent =>
    rw [coherent]
    rfl
  case h_2 =>
    rw [List.map_append, List.map_map]
    exact congrArg _ (List.map_id _)

theorem notMem_coherence {result : RuleResult}
    (member : result ∈ decisionCoherence snap sessionClose ++ contractCoherence snap) :
    result.rule ∉ ruleNames filter := by
  have named : result.rule ∈ ["decision_coherence", "contract_coherence"] := by
    rcases List.mem_append.mp member with decision | contract
    · rw [decisionCoherence] at decision
      split_ifs at decision
      · simp_all
      · split at decision
        · simp_all
        · split_ifs at decision <;> simp_all
    · rw [contractCoherence] at contract
      split_ifs at contract <;> simp_all
  rw [ruleNames]
  rcases List.mem_pair.mp named with same | same <;> rw [same] <;>
    cases filter.liquidityRegime.isFlow <;> simp

theorem count_results {rule : String} (isRule : rule ∈ ruleNames filter) :
    ((evaluate filter snap sessionClose).results.map RuleResult.rule).count rule = 1 := by
  rw [results_names, List.count_append, List.count_eq_one_of_mem ruleNames_nodup isRule,
    List.count_eq_zero_of_not_mem]
  intro member
  obtain ⟨result, isResult, rfl⟩ := List.mem_map.mp member
  exact notMem_coherence isResult isRule

end Accepted

/-- **Filtering is point-in-time and exact**: values that are not read change no outcome, what is
accepted meets every rule, and each rule is in the audit once. -/
theorem filtering_exact (filter : CandidateFilter) (sessionClose : ℤ → Option ℤ) :
    (∀ snap other, ValuesReplaced filter snap other →
      evaluate filter other sessionClose = evaluate filter snap sessionClose) ∧
    (∀ snap, (evaluate filter snap sessionClose).accepted = true ↔
      Meets filter sessionClose snap) ∧
    ∀ snap, ∀ rule ∈ ruleNames filter,
      ((evaluate filter snap sessionClose).results.map RuleResult.rule).count rule = 1 :=
  ⟨fun _ _ replaced => replaced.evaluate sessionClose, fun _ => accepted_iff_meets,
    fun _ _ => count_results⟩

end TreeOptions.Candidates
