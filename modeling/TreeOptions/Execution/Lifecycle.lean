import TreeOptions.Execution.Records
import TreeOptions.Foundations.Checked
import TreeOptions.Foundations.Intervals

/-!
# The lifecycle of an order

`ExecutionLifecycle.apply` retains one record after the other and derives everything else
from the set of records it holds (`projectRecords`): the state of the order, the totals,
what was filled, and the reasons that keep the order from going on before it is
reconciled. The records stand here without the first of the source's, which is the
intent.

A replacement names the readback it is based on. Whether it was entitled to is decided
twice, on the records known locally when it was created: before it is retained
(`applyReplace`) and again in every projection after that (`HasInvalidReplaceBasis`).
-/

set_option autoImplicit false

namespace TreeOptions.Execution

open Checked

inductive ExecutionState where
  | created
  | submitting
  | acknowledged
  | partiallyFilled
  | filled
  | cancelPending
  | canceled
  | rejected
  | unknown
  | reconciliationRequired
  deriving DecidableEq

/-- Why an order waits for a reconciliation. -/
inductive ReconciliationReason where
  | missingSubmit
  | brokerOrderIdConflict
  | totalUnconfirmed
  | fillExceedsConfirmedTotal
  | fillKindTotalMismatch
  | fillEconomicGap
  | fillEconomicOverlap
  | fillCumulativeRegression
  | retryAfterLocalKnowledge
  | overlappingReplaceIntents
  | invalidReplaceBasis
  | rejectWithObservedFill
  | readbackFillContradiction
  | readbackCumulativeRegression
  | terminalFactContradiction
  | ambiguousReadback
  | ambiguousReplaceConfirmation
  | replaceConfirmationMismatch
  | unexpectedConfirmedTotalChange
  deriving DecidableEq

/-- Why a record is refused. -/
inductive LifecycleError where
  | intentMismatch (recordIntentId intentId : String)
  | recordIdentityCollision (recordId : String)
  | sequenceIdentityCollision (sourceKey : String × String)
  | brokerSequenceCollision (brokerKey : Option (String × String))
  | temporalOrder (message : String)
  | transitionRefused (message : String)
  | replacementRefused (message : String)

/-! ## The records of a kind -/

namespace ExecutionRecord

def submitAttempt? : ExecutionRecord → Option SubmitAttempt
  | submitAttempt record => some record
  | replaceIntent _ | observation _ | brokerFact _ => none

def replaceIntent? : ExecutionRecord → Option ReplaceIntent
  | replaceIntent record => some record
  | submitAttempt _ | observation _ | brokerFact _ => none

def observation? : ExecutionRecord → Option Observation
  | observation record => some record
  | submitAttempt _ | replaceIntent _ | brokerFact _ => none

def brokerFact? : ExecutionRecord → Option BrokerFact
  | brokerFact record => some record
  | submitAttempt _ | replaceIntent _ | observation _ => none

end ExecutionRecord

namespace BrokerFact

def fill? : BrokerFact → Option FillRecord
  | fill record => some record
  | acknowledgement _ | reject _ | readback _ => none

def readback? : BrokerFact → Option BrokerReadback
  | readback record => some record
  | acknowledgement _ | reject _ | fill _ => none

/-- The quantity filled so far, where the fact says. -/
def cumulativeQuantity? : BrokerFact → Option ℕ
  | fill record => some record.cumulativeQuantity
  | readback record => some record.cumulativeQuantity
  | acknowledgement _ | reject _ => none

end BrokerFact

section

variable (records : List ExecutionRecord)

def submitAttempts : List SubmitAttempt :=
  records.filterMap ExecutionRecord.submitAttempt?

def replaceIntents : List ReplaceIntent :=
  records.filterMap ExecutionRecord.replaceIntent?

def observations : List Observation :=
  records.filterMap ExecutionRecord.observation?

def brokerFacts : List BrokerFact :=
  records.filterMap ExecutionRecord.brokerFact?

def fillRecords : List FillRecord :=
  (brokerFacts records).filterMap BrokerFact.fill?

def readbacks : List BrokerReadback :=
  (brokerFacts records).filterMap BrokerFact.readback?

end

variable (json : Serialization)

def sortedAttempts (records : List ExecutionRecord) : List SubmitAttempt :=
  sortedBy (fun attempt => eventSortKey json (.submitAttempt attempt)) (submitAttempts records)

def sortedFacts (facts : List BrokerFact) : List BrokerFact :=
  sortedBy (fun fact => eventSortKey json (.brokerFact fact)) facts

/-! ## Fills -/

/-- The part of the order a fill filled. -/
def fillInterval (record : FillRecord) : ℕ × ℕ :=
  (record.cumulativeQuantity - record.fillQuantity, record.cumulativeQuantity)

/-- The intervals of the fills in the order of their starts. -/
def rawIntervals (records : List ExecutionRecord) : List (ℕ × ℕ) :=
  sortedBy (fun interval => toLex interval) ((fillRecords records).map fillInterval)

def deriveFillIntervals (records : List ExecutionRecord) : List (ℕ × ℕ) :=
  Intervals.merge (rawIntervals records)

/-- Two fills overlap. -/
def FillOverlap (records : List ExecutionRecord) : Prop :=
  ¬ (rawIntervals records).Pairwise fun left right => ¬ Intervals.Overlap left right

/-- A fill reports less than a fact of the same order from before it. -/
def HasFillCumulativeRegression (records : List ExecutionRecord) : Prop :=
  ∃ earlier ∈ brokerFacts records, ∃ later ∈ fillRecords records,
    some later.brokerOrderId = earlier.brokerOrderId ∧
      earlier.primaryTime < later.exchangeEventAt ∧
        earlier.cumulativeQuantity?.any (later.cumulativeQuantity < ·)

def coversThrough (intervals : List (ℕ × ℕ)) (quantity : ℕ) : Bool :=
  quantity = 0 ∨ intervals = [(0, quantity)]

/-- The largest quantity any fact reports. -/
def deriveObservedCumulative (records : List ExecutionRecord) : ℕ :=
  ((brokerFacts records).filterMap BrokerFact.cumulativeQuantity?).foldr max 0

/-! ## Retries and replacements -/

/-- When something was learned about the outcome of the order. -/
def knowledgeBoundaries (records : List ExecutionRecord) : List ℤ :=
  (brokerFacts records).map BrokerFact.locallyReceivedAt ++
    (observations records).map Observation.locallyReceivedAt

def HasRetryAfterLocalKnowledge (records : List ExecutionRecord) : Prop :=
  ∃ retry ∈ (sortedAttempts json records).tail, ∃ boundary ∈ knowledgeBoundaries records,
    boundary ≤ retry.sendAttemptAt

/-- A snapshot that answers one replacement was known before the next. -/
def ResolvedBefore (readbacks : List BrokerReadback) (prior current : ReplaceIntent) : Prop :=
  ∃ readback ∈ readbacks, readback.totalQuantity ≠ none ∧
    readback.brokerOrderId = some prior.brokerOrderId ∧
    readback.recordId ≠ prior.basedOnReadbackId ∧
    prior.replaceCreatedAt < readback.brokerSnapshotAt ∧
    (readback.locallyReceivedAt < current.replaceCreatedAt ∨
      readback.recordId = current.basedOnReadbackId ∧
        readback.locallyReceivedAt ≤ current.replaceCreatedAt)

instance (readbacks : List BrokerReadback) :
    DecidableRel (ResolvedBefore readbacks) := fun prior current =>
  inferInstanceAs (Decidable (∃ readback ∈ readbacks, readback.totalQuantity ≠ none ∧
    readback.brokerOrderId = some prior.brokerOrderId ∧
    readback.recordId ≠ prior.basedOnReadbackId ∧
    prior.replaceCreatedAt < readback.brokerSnapshotAt ∧
    (readback.locallyReceivedAt < current.replaceCreatedAt ∨
      readback.recordId = current.basedOnReadbackId ∧
        readback.locallyReceivedAt ≤ current.replaceCreatedAt)))

def sortedReplacements (records : List ExecutionRecord) : List ReplaceIntent :=
  sortedBy (fun replacement => eventSortKey json (.replaceIntent replacement))
    (replaceIntents records)

def HasOverlappingReplaceIntents (records : List ExecutionRecord) : Prop :=
  ¬ (sortedReplacements json records).Pairwise (ResolvedBefore (readbacks records))

/-! ## The identity of the order -/

/-- The facts that name a broker order, in the order of their events. -/
def identifiedFacts (records : List ExecutionRecord) : List BrokerFact :=
  sortedFacts json ((brokerFacts records).filter fun fact => fact.brokerOrderId.isSome)

def deriveBrokerOrderId (records : List ExecutionRecord) : Option String :=
  (identifiedFacts json records).head?.bind BrokerFact.brokerOrderId

def BrokerIdConflict (records : List ExecutionRecord) : Prop :=
  1 < ((identifiedFacts json records).map BrokerFact.brokerOrderId).toFinset.card

/-! ## The authority on the quantity -/

/-- The total the broker confirmed and the replacement it still has to confirm. -/
structure QuantityAuthority where
  confirmed : Option ℕ := none
  pending : Option ℕ := none
  pendingBasisId : Option String := none
  pendingCreatedAt : Option ℤ := none
  supersededPending : Option ℕ := none
  confirmedAt : Option ℤ := none
  submitted : Bool := false
  reasons : Finset ReconciliationReason := ∅

namespace QuantityAuthority

def addIf (authority : QuantityAuthority) (found : Bool) (reason : ReconciliationReason) :
    QuantityAuthority :=
  if found then { authority with reasons := insert reason authority.reasons } else authority

def confirm (authority : QuantityAuthority) (record : BrokerReadback) (observed : ℕ) :
    QuantityAuthority :=
  { authority with confirmed := some observed, confirmedAt := some record.brokerSnapshotAt }

/-- A total without a replacement to confirm. -/
def observe (authority : QuantityAuthority) (intent : OrderIntent) (record : BrokerReadback)
    (observed : ℕ) : QuantityAuthority :=
  match authority.confirmed with
  | none =>
    (authority.addIf (observed ≠ intent.quantity) .unexpectedConfirmedTotalChange).confirm
      record observed
  | some confirmed =>
    if observed ≠ confirmed then
      (authority.addIf true .unexpectedConfirmedTotalChange).confirm record observed
    else authority

/-- A total while a replacement is pending. The readback it is based on confirms the
replacement it superseded, one from before it changes nothing, and one after it
answers it. -/
def answer (authority : QuantityAuthority) (intent : OrderIntent) (pending : ℕ)
    (record : BrokerReadback) (observed : ℕ) : QuantityAuthority :=
  if authority.pendingBasisId = some record.recordId then
    match authority.supersededPending with
    | some superseded =>
      { (authority.addIf (observed ≠ superseded) .replaceConfirmationMismatch).confirm
          record observed with supersededPending := none }
    | none => authority.observe intent record observed
  else if authority.pendingCreatedAt.any (record.brokerSnapshotAt ≤ ·) then
    if some observed ≠ authority.confirmed then
      (authority.addIf true .ambiguousReplaceConfirmation).confirm record observed
    else authority
  else
    { (authority.addIf (observed ≠ pending) .replaceConfirmationMismatch).confirm record observed
        with pending := none, pendingBasisId := none, pendingCreatedAt := none }

def onReadback (authority : QuantityAuthority) (intent : OrderIntent) (record : BrokerReadback) :
    QuantityAuthority :=
  match record.totalQuantity with
  | none => authority
  | some observed =>
    match authority.pending with
    | some pending => authority.answer intent pending record observed
    | none => authority.observe intent record observed

def onAcknowledgement (authority : QuantityAuthority) (intent : OrderIntent)
    (record : BrokerAcknowledgement) : QuantityAuthority :=
  if authority.confirmed = none then
    { authority with
        confirmed := some intent.quantity, confirmedAt := some record.brokerAcknowledgedAt }
  else authority

def onReplace (authority : QuantityAuthority) (record : ReplaceIntent) : QuantityAuthority :=
  { authority with
      supersededPending := if authority.pending = none then authority.supersededPending
        else authority.pending
      pending := some record.newTotalQuantity
      pendingBasisId := some record.basedOnReadbackId
      pendingCreatedAt := some record.replaceCreatedAt }

/-- What a record changes. Nothing counts before the first submit. -/
def next (intent : OrderIntent) (authority : QuantityAuthority) (record : ExecutionRecord) :
    QuantityAuthority :=
  match record with
  | .submitAttempt _ => { authority with submitted := true }
  | .replaceIntent record => if authority.submitted then authority.onReplace record else authority
  | .brokerFact (.acknowledgement record) =>
    if authority.submitted then authority.onAcknowledgement intent record else authority
  | .brokerFact (.readback record) =>
    if authority.submitted then authority.onReadback intent record else authority
  | .brokerFact (.reject _) | .brokerFact (.fill _) | .observation _ => authority

end QuantityAuthority

/-- The records that say something of the total. -/
def ExecutionRecord.isAuthority : ExecutionRecord → Bool
  | submitAttempt _ | replaceIntent _ => true
  | brokerFact (.acknowledgement _) | brokerFact (.readback _) => true
  | brokerFact (.reject _) | brokerFact (.fill _) | observation _ => false

/-- The records on the total, in the order of their events. -/
def authorityRecords (records : List ExecutionRecord) : List ExecutionRecord :=
  sortedBy (eventSortKey json) (records.filter ExecutionRecord.isAuthority)

def deriveQuantityAuthority (intent : OrderIntent) (records : List ExecutionRecord) :
    QuantityAuthority :=
  (authorityRecords json records).foldl (QuantityAuthority.next intent) {}

/-! ## Contradictions among the facts -/

/-- The state that ends the order, where a readback reports one. -/
def readbackTerminalState (record : BrokerReadback) : Option ExecutionState :=
  match record.status with
  | .filled => some .filled
  | .canceled =>
    if record.totalQuantity = some record.cumulativeQuantity then some .filled
    else some .canceled
  | .rejected => some .rejected
  | .opened | .partiallyFilled | .absent | .ambiguous => none

structure FactScan where
  observed : ℕ := 0
  terminal : Option ExecutionState := none
  terminalCumulative : ℕ := 0
  terminalAt : Option ℤ := none
  reasons : Finset ReconciliationReason := ∅

namespace FactScan

def addIf (scan : FactScan) (found : Bool) (reason : ReconciliationReason) : FactScan :=
  if found then { scan with reasons := insert reason scan.reasons } else scan

def finish (scan : FactScan) (state : ExecutionState) (cumulative : ℕ) (time : ℤ) : FactScan :=
  { scan with terminal := some state, terminalCumulative := cumulative, terminalAt := some time }

def onReject (scan : FactScan) (record : OrderReject) : FactScan :=
  (((scan.addIf (0 < scan.observed) .rejectWithObservedFill).addIf
    (scan.terminal ≠ none ∧ scan.terminal ≠ some .rejected) .terminalFactContradiction)).finish
      .rejected scan.observed record.brokerAcknowledgedAt

def onFill (scan : FactScan) (record : FillRecord) : FactScan :=
  let observed := max scan.observed record.cumulativeQuantity
  let scan := { scan.addIf (scan.terminal ≠ none ∧
    (scan.terminalCumulative < record.cumulativeQuantity ∨
      scan.terminalAt.any (· < record.exchangeEventAt))) .terminalFactContradiction with
    observed := observed }
  match record.kind with
  | .completeFill => scan.finish .filled observed record.exchangeEventAt
  | .partialFill => scan

/-- A snapshot that found the order. -/
def onSnapshot (scan : FactScan) (record : BrokerReadback) : FactScan :=
  let observed := max scan.observed record.cumulativeQuantity
  let scan := { ((scan.addIf (record.cumulativeQuantity < scan.observed)
      .readbackCumulativeRegression).addIf
      ((record.status = .opened ∨ record.status = .rejected) ∧ 0 < scan.observed)
        .readbackFillContradiction).addIf
      (scan.terminal ≠ none ∧ readbackTerminalState record ≠ scan.terminal)
        .terminalFactContradiction with
    observed := observed }
  match readbackTerminalState record with
  | some state => scan.finish state observed record.brokerSnapshotAt
  | none => scan

def next (scan : FactScan) (fact : BrokerFact) : FactScan :=
  match fact with
  | .acknowledgement _ =>
    scan.addIf (scan.terminal = some .canceled ∨ scan.terminal = some .rejected)
      .terminalFactContradiction
  | .reject record => scan.onReject record
  | .fill record => scan.onFill record
  | .readback record =>
    if record.status = .absent ∨ record.status = .ambiguous then
      scan.addIf true .ambiguousReadback
    else scan.onSnapshot record

end FactScan

def deriveFactReasons (records : List ExecutionRecord) : Finset ReconciliationReason :=
  ((sortedFacts json (brokerFacts records)).foldl FactScan.next {}).reasons

/-! ## The state at the broker -/

def terminalStates : List ExecutionState :=
  [.filled, .canceled, .rejected]

structure BrokerProgress where
  state : ExecutionState := .submitting
  observed : ℕ := 0

namespace BrokerProgress

def onAcknowledgement (progress : BrokerProgress) : BrokerProgress :=
  if progress.state ∈ terminalStates then progress
  else
    { progress with state := if 0 < progress.observed then .partiallyFilled else .acknowledged }

def onFill (progress : BrokerProgress) (record : FillRecord) : BrokerProgress :=
  let observed := max progress.observed record.cumulativeQuantity
  if progress.state ∈ terminalStates ∧ record.cumulativeQuantity ≤ progress.observed then
    { progress with observed }
  else
    match record.kind with
    | .completeFill => ⟨.filled, observed⟩
    | .partialFill => ⟨.partiallyFilled, observed⟩

/-- The state a status stands for, none where the order was not found. -/
def stateForStatus (record : BrokerReadback) : Option ExecutionState :=
  match record.status with
  | .opened => some .acknowledged
  | .partiallyFilled => some .partiallyFilled
  | .filled => some .filled
  | .canceled =>
    if record.totalQuantity = some record.cumulativeQuantity then some .filled
    else some .canceled
  | .rejected => some .rejected
  | .absent | .ambiguous => none

def onReadback (progress : BrokerProgress) (record : BrokerReadback) : BrokerProgress :=
  let observed := max progress.observed record.cumulativeQuantity
  match stateForStatus record with
  | none => { progress with observed }
  | some state =>
    if record.cumulativeQuantity < progress.observed ∨
        (record.status = .opened ∨ record.status = .rejected) ∧ 0 < progress.observed then
      { progress with observed }
    else ⟨state, observed⟩

def next (progress : BrokerProgress) (fact : BrokerFact) : BrokerProgress :=
  match fact with
  | .acknowledgement _ => progress.onAcknowledgement
  | .reject _ => if progress.observed = 0 then { progress with state := .rejected } else progress
  | .fill record => progress.onFill record
  | .readback record => progress.onReadback record

end BrokerProgress

def deriveBrokerState (records : List ExecutionRecord) : ExecutionState :=
  if submitAttempts records = [] then .created
  else ((sortedFacts json (brokerFacts records)).foldl BrokerProgress.next {}).state

/-! ## Receipts and uncertainty -/

def BrokerFact.isReadback (fact : BrokerFact) : Bool :=
  fact.readback?.isSome

def nonReadbacks (records : List ExecutionRecord) : List BrokerFact :=
  (brokerFacts records).filter fun fact => !fact.isReadback

/-- The last receipt of a fact that no later fact at the broker makes stale. -/
def deriveLatestAuthoritativeReceipt (records : List ExecutionRecord) : Option ℤ :=
  let latestNonReadbackAt := ((nonReadbacks records).map BrokerFact.primaryTime).max?
  ((nonReadbacks records).map BrokerFact.locallyReceivedAt ++
    ((readbacks records).filter fun readback =>
      latestNonReadbackAt.all (· ≤ readback.brokerSnapshotAt)).map
        fun readback => readback.locallyReceivedAt).max?

/-- A snapshot that found the order, taken and received after an instant. -/
def Recovered (records : List ExecutionRecord) (latestUncertainty : ℤ) : Prop :=
  ∃ readback ∈ readbacks records, (readback.status ≠ .absent ∧ readback.status ≠ .ambiguous) ∧
    latestUncertainty < readback.locallyReceivedAt ∧ latestUncertainty < readback.brokerSnapshotAt

instance (records : List ExecutionRecord) (latestUncertainty : ℤ) :
    Decidable (Recovered records latestUncertainty) :=
  inferInstanceAs (Decidable (∃ readback ∈ readbacks records,
    (readback.status ≠ .absent ∧ readback.status ≠ .ambiguous) ∧
      latestUncertainty < readback.locallyReceivedAt ∧
        latestUncertainty < readback.brokerSnapshotAt))

def deriveUncertainSince (records : List ExecutionRecord) : Option ℤ :=
  (((observations records).map Observation.locallyReceivedAt).max?).filter
    fun latestUncertainty => ¬ Recovered records latestUncertainty

/-- The uncertainty, none where the order is at its end. -/
def uncertainSince (brokerState : ExecutionState) (records : List ExecutionRecord) : Option ℤ :=
  if brokerState ∈ terminalStates then none else deriveUncertainSince records

/-! ## Reasons to reconcile -/

instance (records : List ExecutionRecord) : Decidable (FillOverlap records) :=
  inferInstanceAs (Decidable (¬ _))

instance (records : List ExecutionRecord) : Decidable (HasFillCumulativeRegression records) :=
  inferInstanceAs (Decidable (∃ earlier ∈ brokerFacts records, ∃ later ∈ fillRecords records,
    some later.brokerOrderId = earlier.brokerOrderId ∧
      earlier.primaryTime < later.exchangeEventAt ∧
        earlier.cumulativeQuantity?.any (later.cumulativeQuantity < ·)))

instance (records : List ExecutionRecord) : Decidable (HasRetryAfterLocalKnowledge json records) :=
  inferInstanceAs (Decidable (∃ retry ∈ (sortedAttempts json records).tail,
    ∃ boundary ∈ knowledgeBoundaries records, boundary ≤ retry.sendAttemptAt))

instance (records : List ExecutionRecord) :
    Decidable (HasOverlappingReplaceIntents json records) :=
  inferInstanceAs (Decidable (¬ (sortedReplacements json records).Pairwise _))

instance (records : List ExecutionRecord) : Decidable (BrokerIdConflict json records) :=
  inferInstanceAs (Decidable (1 < _))

/-- A fill whose kind does not fit the total. -/
def FillRecord.MismatchesTotal (record : FillRecord) (confirmed : ℕ) : Prop :=
  match record.kind with
  | .completeFill => record.cumulativeQuantity ≠ confirmed
  | .partialFill => confirmed ≤ record.cumulativeQuantity

instance (record : FillRecord) (confirmed : ℕ) : Decidable (record.MismatchesTotal confirmed) := by
  unfold FillRecord.MismatchesTotal
  cases record.kind <;> infer_instance

def reasonIf (reason : ReconciliationReason) (found : Bool) : Finset ReconciliationReason :=
  if found then {reason} else ∅

/-- The reasons other than a replacement without a basis. -/
def deriveReconciliationReasons (authority : QuantityAuthority) (records : List ExecutionRecord) :
    Finset ReconciliationReason :=
  let filled := deriveObservedCumulative records
  authority.reasons ∪
  reasonIf .missingSubmit (brokerFacts records ≠ [] ∧ submitAttempts records = []) ∪
  reasonIf .brokerOrderIdConflict (BrokerIdConflict json records) ∪
  reasonIf .fillEconomicOverlap (FillOverlap records) ∪
  reasonIf .fillCumulativeRegression (HasFillCumulativeRegression records) ∪
  reasonIf .retryAfterLocalKnowledge (HasRetryAfterLocalKnowledge json records) ∪
  reasonIf .overlappingReplaceIntents (HasOverlappingReplaceIntents json records) ∪
  reasonIf .fillEconomicGap (0 < filled ∧ ¬ coversThrough (deriveFillIntervals records) filled) ∪
  reasonIf .totalUnconfirmed (0 < filled ∧ authority.confirmed = none) ∪
  reasonIf .fillExceedsConfirmedTotal (authority.confirmed.any (· < filled)) ∪
  reasonIf .fillKindTotalMismatch (authority.confirmed.any fun confirmed =>
    ∃ record ∈ fillRecords records, record.MismatchesTotal confirmed) ∪
  deriveFactReasons json records

def effectiveState (reasons : Finset ReconciliationReason) (uncertainSince : Option ℤ)
    (brokerState : ExecutionState) : ExecutionState :=
  if reasons ≠ ∅ then .reconciliationRequired
  else if uncertainSince ≠ none then .unknown
  else brokerState

/-! ## The basis of a replacement -/

/-- A snapshot of the order as it stands. -/
def IsCandidate (brokerOrderId : Option String) (confirmed : Option ℕ) (filled : ℕ)
    (record : BrokerReadback) : Prop :=
  (record.status = .opened ∨ record.status = .partiallyFilled) ∧
    record.brokerOrderId = brokerOrderId ∧ record.totalQuantity = confirmed ∧
      record.cumulativeQuantity = filled

/-- No other fact was learned as late, or happened after the snapshot. -/
def IsCurrent (facts : List BrokerFact) (candidate : BrokerReadback) : Prop :=
  ∀ fact ∈ facts, fact = .readback candidate ∨
    fact.locallyReceivedAt < candidate.locallyReceivedAt ∧
      fact.primaryTime ≤ candidate.brokerSnapshotAt

instance (brokerOrderId : Option String) (confirmed : Option ℕ) (filled : ℕ) :
    DecidablePred (IsCandidate brokerOrderId confirmed filled) := fun record =>
  inferInstanceAs (Decidable ((record.status = .opened ∨ record.status = .partiallyFilled) ∧
    record.brokerOrderId = brokerOrderId ∧ record.totalQuantity = confirmed ∧
      record.cumulativeQuantity = filled))

instance (facts : List BrokerFact) : DecidablePred (IsCurrent facts) := fun candidate =>
  inferInstanceAs (Decidable (∀ fact ∈ facts, fact = .readback candidate ∨
    fact.locallyReceivedAt < candidate.locallyReceivedAt ∧
      fact.primaryTime ≤ candidate.brokerSnapshotAt))

/-- Of two readbacks the one received later comes after. -/
def readbackKey (record : BrokerReadback) : ℤ ×ₗ ℤ ×ₗ List Char :=
  toLex (record.locallyReceivedAt, toLex (record.brokerSnapshotAt,
    canonicalBytes json (.execution (.brokerFact (.readback record)))))

/-- The readback a replacement may be based on. -/
def deriveReplaceBasis (records : List ExecutionRecord) (state : ExecutionState)
    (authority : QuantityAuthority) : Option BrokerReadback :=
  let filled := deriveObservedCumulative records
  if (state = .acknowledged ∨ state = .partiallyFilled) ∧ authority.pending = none ∧
      coversThrough (deriveFillIntervals records) filled then
    greatestBy (readbackKey json) ((readbacks records).filter fun record =>
      IsCandidate (deriveBrokerOrderId json records) authority.confirmed filled record ∧
        IsCurrent (brokerFacts records) record)
  else none

/-- What was known at a cut: the basis a replacement may name and the replacement still
pending. Bases are not checked again here. -/
def deriveLocalReplaceBasis (intent : OrderIntent) (records : List ExecutionRecord) :
    Option BrokerReadback × Option ℕ :=
  let authority := deriveQuantityAuthority json intent records
  let brokerState := deriveBrokerState json records
  let state := effectiveState (deriveReconciliationReasons json authority records)
    (uncertainSince brokerState records) brokerState
  (deriveReplaceBasis json records state authority, authority.pending)

/-- What was known locally at an instant. -/
def knownRecords (records : List ExecutionRecord) (observedAt : ℤ) : List ExecutionRecord :=
  records.filter (ExecutionRecord.knownNoLaterThan observedAt)

/-- The records known when a replacement was created, without it. -/
def knownBefore (records : List ExecutionRecord) (replacement : ReplaceIntent) :
    List ExecutionRecord :=
  (knownRecords records replacement.replaceCreatedAt).filter
    fun record => record ≠ .replaceIntent replacement

/-- A replacement was not based on the readback it could be based on. While another was
pending it is not asked. -/
def HasInvalidReplaceBasis (intent : OrderIntent) (records : List ExecutionRecord) : Prop :=
  ∃ replacement ∈ replaceIntents records,
    let known := deriveLocalReplaceBasis json intent (knownBefore records replacement)
    known.2 = none ∧
      known.1.map (fun basis => basis.recordId) ≠ some replacement.basedOnReadbackId

instance (intent : OrderIntent) (records : List ExecutionRecord) :
    Decidable (HasInvalidReplaceBasis json intent records) :=
  inferInstanceAs (Decidable (∃ replacement ∈ replaceIntents records,
    (deriveLocalReplaceBasis json intent (knownBefore records replacement)).2 = none ∧
      (deriveLocalReplaceBasis json intent (knownBefore records replacement)).1.map
        (fun basis => basis.recordId) ≠ some replacement.basedOnReadbackId))

/-! ## The projection -/

structure ExecutionLifecycle where
  intent : OrderIntent
  state : ExecutionState
  brokerState : ExecutionState
  records : List ExecutionRecord
  submitAttemptIds : List String := []
  brokerOrderId : Option String := none
  brokerConfirmedTotalQuantity : Option ℕ := none
  pendingReplaceTotalQuantity : Option ℕ := none
  filledQuantity : ℕ := 0
  fillEconomicIntervals : List (ℕ × ℕ) := []
  reconciliationReasons : Finset ReconciliationReason := ∅
  latestFillExchangeAt : Option ℤ := none
  latestBrokerFactAt : Option ℤ := none
  latestBrokerFactReceivedAt : Option ℤ := none
  latestTotalConfirmationAt : Option ℤ := none
  uncertainSinceAt : Option ℤ := none
  replaceBasis : Option BrokerReadback := none

namespace ExecutionLifecycle

def start (intent : OrderIntent) : ExecutionLifecycle where
  intent := intent
  state := .created
  brokerState := .created
  records := []

/-- Everything that follows from the records of an intent. -/
def projectRecords (intent : OrderIntent) (records : List ExecutionRecord) : ExecutionLifecycle :=
  let authority := deriveQuantityAuthority json intent records
  let reasons := deriveReconciliationReasons json authority records ∪
    reasonIf .invalidReplaceBasis (HasInvalidReplaceBasis json intent records)
  let brokerState := deriveBrokerState json records
  let state := effectiveState reasons (uncertainSince brokerState records) brokerState
  { intent := intent
    state := state
    brokerState := brokerState
    records := records
    submitAttemptIds := (sortedAttempts json records).map fun attempt => attempt.recordId
    brokerOrderId := deriveBrokerOrderId json records
    brokerConfirmedTotalQuantity := authority.confirmed
    pendingReplaceTotalQuantity := authority.pending
    filledQuantity := deriveObservedCumulative records
    fillEconomicIntervals := deriveFillIntervals records
    reconciliationReasons := reasons
    latestFillExchangeAt := ((fillRecords records).map fun record => record.exchangeEventAt).max?
    latestBrokerFactAt := ((brokerFacts records).map BrokerFact.primaryTime).max?
    latestBrokerFactReceivedAt := deriveLatestAuthoritativeReceipt records
    latestTotalConfirmationAt := authority.confirmedAt
    uncertainSinceAt := uncertainSince brokerState records
    replaceBasis := deriveReplaceBasis json records state authority }

/-! ## Retaining a record -/

/-- The records with the intent, which stands first. -/
def stored (life : ExecutionLifecycle) : List StoredExecutionRecord :=
  .orderIntent life.intent :: life.records.map .execution

/-- Is the record retained already? A record of the same identity has to have the same
bytes. -/
def checkIdentity (record : ExecutionRecord) :
    List StoredExecutionRecord → Except LifecycleError Bool
  | [] => .ok false
  | existing :: rest =>
    let candidate := StoredExecutionRecord.execution record
    let same := canonicalBytes json existing = canonicalBytes json candidate
    if existing.recordId = candidate.recordId then
      if same then .ok true else .error (.recordIdentityCollision candidate.recordId)
    else if existing.sourceKey = candidate.sourceKey then
      if same then .ok true else .error (.sequenceIdentityCollision candidate.sourceKey)
    else if candidate.brokerKey ≠ none ∧ existing.brokerKey = candidate.brokerKey then
      if same then .ok true else .error (.brokerSequenceCollision candidate.brokerKey)
    else checkIdentity record rest

theorem checkIdentity_cons_same {record : ExecutionRecord} {rest : List StoredExecutionRecord} :
    checkIdentity json record (.execution record :: rest) = .ok true := by
  rw [checkIdentity, if_pos rfl, if_pos rfl]

variable (life : ExecutionLifecycle)

def withRecord (record : ExecutionRecord) : ExecutionLifecycle :=
  projectRecords json life.intent (life.records ++ [record])

def firstSubmitAt : Option ℤ :=
  ((submitAttempts life.records).map fun attempt => attempt.sendAttemptAt).min?

def requireAfterFirstSubmit (eventAt : ℤ) : Except LifecycleError Unit :=
  refuse (life.firstSubmitAt.any (eventAt < ·))
    (.temporalOrder "broker fact predates first submit attempt")

/-- The first of the attempts may not come after a fact. -/
def applySubmit (record : SubmitAttempt) : Except LifecycleError ExecutionLifecycle := do
  let records := life.records ++ [.submitAttempt record]
  refuse ((sortedAttempts json records).head?.any fun first =>
      (brokerFacts records).any fun fact => fact.primaryTime < first.sendAttemptAt)
    (.temporalOrder "retrospective submit postdates a retained broker fact")
  return projectRecords json life.intent records

/-- A timeout names the attempt it is about. -/
def applyTimeout (record : TimeoutObserved) : Except LifecycleError ExecutionLifecycle :=
  match (submitAttempts life.records).find? fun attempt => attempt.recordId = record.attemptId with
  | none => .error (.transitionRefused
      ("timeout references unknown submit attempt '" ++ record.attemptId ++ "'"))
  | some attempt => do
      refuse (record.locallyReceivedAt < attempt.sendAttemptAt)
        (.temporalOrder "timeout predates its submit attempt")
      return life.withRecord json (.observation (.timeout record))

def applyOutage (record : Observation) : Except LifecycleError ExecutionLifecycle := do
  life.requireAfterFirstSubmit record.locallyReceivedAt
  refuse (life.submitAttemptIds = [])
    (.transitionRefused "uncertainty observation requires a submit attempt")
  return life.withRecord json (.observation record)

def applyUncertainty (record : Observation) : Except LifecycleError ExecutionLifecycle :=
  match record with
  | .timeout record => life.applyTimeout json record
  | .disconnect _ | .uncertainty _ => life.applyOutage json record

def applyFact (record : BrokerFact) : Except LifecycleError ExecutionLifecycle := do
  life.requireAfterFirstSubmit record.primaryTime
  return life.withRecord json (.brokerFact record)

/-- A replacement while another is pending has to fit the readback it names. -/
def applyOverlapping (record : ReplaceIntent) (retained : BrokerReadback) :
    Except LifecycleError ExecutionLifecycle := do
  refuse (retained.brokerOrderId ≠ some record.brokerOrderId)
    (.replacementRefused "replace broker order does not match readback")
  refuse (record.newTotalQuantity ≤ retained.cumulativeQuantity)
    (.replacementRefused "replace total must exceed filled quantity")
  return life.withRecord json (.replaceIntent record)

def applyBased (record : ReplaceIntent) (historical : ExecutionLifecycle)
    (basis : Option BrokerReadback) : Except LifecycleError ExecutionLifecycle :=
  match basis with
  | none => .error (.replacementRefused "replace requires a current matching readback")
  | some basis => do
      refuse (basis.recordId ≠ record.basedOnReadbackId)
        (.replacementRefused "replace requires a current matching readback")
      refuse (basis.brokerOrderId ≠ some record.brokerOrderId ∨
          historical.brokerOrderId ≠ some record.brokerOrderId)
        (.replacementRefused "replace broker order does not match readback")
      refuse (basis.totalQuantity ≠ historical.brokerConfirmedTotalQuantity)
        (.replacementRefused "replace readback total quantity is stale")
      refuse (basis.cumulativeQuantity ≠ historical.filledQuantity)
        (.replacementRefused "replace readback filled quantity is stale")
      refuse (¬ coversThrough historical.fillEconomicIntervals historical.filledQuantity)
        (.replacementRefused "replace requires complete fill economics")
      refuse (record.newTotalQuantity ≤ historical.filledQuantity)
        (.replacementRefused "replace total must exceed filled quantity")
      return life.withRecord json (.replaceIntent record)

/-- What was known locally when a replacement was created. -/
def historical (record : ReplaceIntent) : ExecutionLifecycle :=
  projectRecords json life.intent (knownRecords life.records record.replaceCreatedAt)

/-- The basis it may name and the replacement still pending at that time. -/
def localReplaceBasis (record : ReplaceIntent) : Option BrokerReadback × Option ℕ :=
  deriveLocalReplaceBasis json life.intent (knownRecords life.records record.replaceCreatedAt)

def applyNamed (record : ReplaceIntent) (retained : BrokerReadback) :
    Except LifecycleError ExecutionLifecycle := do
  refuse (record.replaceCreatedAt < retained.locallyReceivedAt)
    (.temporalOrder "replace predates its broker readback")
  if (life.localReplaceBasis json record).2 ≠ none then
    life.applyOverlapping json record retained
  else
    life.applyBased json record (life.historical json record) (life.localReplaceBasis json record).1

def applyReplace (record : ReplaceIntent) : Except LifecycleError ExecutionLifecycle :=
  match (readbacks life.records).find? fun readback =>
      readback.recordId = record.basedOnReadbackId with
  | none => .error (.replacementRefused "replace requires a current matching readback")
  | some retained => life.applyNamed json record retained

def retain (record : ExecutionRecord) : Except LifecycleError ExecutionLifecycle := do
  refuse (record.primaryTime < life.intent.intentCreatedAt)
    (.temporalOrder "execution record predates intent_created_at")
  match record with
  | .submitAttempt record => life.applySubmit json record
  | .observation record => life.applyUncertainty json record
  | .brokerFact record => life.applyFact json record
  | .replaceIntent record => life.applyReplace json record

def apply (record : ExecutionRecord) : Except LifecycleError ExecutionLifecycle := do
  refuse (record.head.intentId ≠ life.intent.intentId)
    (.intentMismatch record.head.intentId life.intent.intentId)
  let duplicate ← checkIdentity json record life.stored
  if duplicate then return life else life.retain json record

/-- Apply the records in order. -/
def applyAll (life : ExecutionLifecycle) (records : List ExecutionRecord) :
    Except LifecycleError ExecutionLifecycle :=
  records.foldlM (fun life record => life.apply json record) life

end ExecutionLifecycle

end TreeOptions.Execution
