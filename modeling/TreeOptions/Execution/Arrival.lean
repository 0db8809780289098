import TreeOptions.Execution.Retained

/-!
# The order records arrive in

A lifecycle is a function of the set of records it retains: whatever is derived from them
sorts them first, or asks only which of them there are. Two runs that accept the same
records in different orders therefore end in lifecycles that differ in the order of the
retained records alone (`arrivalOrder`).
-/

set_option autoImplicit false

namespace TreeOptions.Execution

variable {json : Serialization} {first second : List ExecutionRecord}

/-! ## Records of a kind -/

section

variable (same : first.Perm second)

include same

theorem submitAttempts_perm : (submitAttempts first).Perm (submitAttempts second) :=
  same.filterMap _

theorem replaceIntents_perm : (replaceIntents first).Perm (replaceIntents second) :=
  same.filterMap _

theorem observations_perm : (observations first).Perm (observations second) :=
  same.filterMap _

theorem brokerFacts_perm : (brokerFacts first).Perm (brokerFacts second) :=
  same.filterMap _

theorem fillRecords_perm : (fillRecords first).Perm (fillRecords second) :=
  (brokerFacts_perm same).filterMap _

theorem readbacks_perm : (readbacks first).Perm (readbacks second) :=
  (brokerFacts_perm same).filterMap _

theorem knownRecords_perm (observedAt : ℤ) :
    (knownRecords first observedAt).Perm (knownRecords second observedAt) :=
  same.filter _

theorem knownBefore_perm (replacement : ReplaceIntent) :
    (knownBefore first replacement).Perm (knownBefore second replacement) :=
  (knownRecords_perm same _).filter _

end

/-! ## Sorted records -/

theorem sortedFacts_eq_of_perm {facts facts' : List BrokerFact} (same : facts.Perm facts') :
    sortedFacts json facts = sortedFacts json facts' := by
  apply sortedBy_eq_of_perm same
  intro a _ b _ sameKey
  cases eventSortKey_injective sameKey
  rfl

section

variable (same : first.Perm second)

include same

theorem sortedAttempts_eq_of_perm : sortedAttempts json first = sortedAttempts json second := by
  apply sortedBy_eq_of_perm (submitAttempts_perm same)
  intro a _ b _ sameKey
  cases eventSortKey_injective sameKey
  rfl

theorem sortedReplacements_eq_of_perm :
    sortedReplacements json first = sortedReplacements json second := by
  apply sortedBy_eq_of_perm (replaceIntents_perm same)
  intro a _ b _ sameKey
  cases eventSortKey_injective sameKey
  rfl

theorem authorityRecords_eq_of_perm :
    authorityRecords json first = authorityRecords json second :=
  sortedBy_eq_of_perm (same.filter _) fun _ _ _ _ sameKey => eventSortKey_injective sameKey

theorem identifiedFacts_eq_of_perm : identifiedFacts json first = identifiedFacts json second :=
  sortedFacts_eq_of_perm ((brokerFacts_perm same).filter _)

theorem rawIntervals_eq_of_perm : rawIntervals first = rawIntervals second :=
  sortedBy_eq_of_perm ((fillRecords_perm same).map _) fun _ _ _ _ sameKey => toLex_inj.mp sameKey

/-! ## What is derived -/

theorem deriveFillIntervals_eq_of_perm : deriveFillIntervals first = deriveFillIntervals second := by
  rw [deriveFillIntervals, rawIntervals_eq_of_perm same]
  rfl

theorem fillOverlap_iff_of_perm : FillOverlap first ↔ FillOverlap second := by
  rw [FillOverlap, rawIntervals_eq_of_perm same]
  rfl

theorem hasFillCumulativeRegression_iff_of_perm :
    HasFillCumulativeRegression first ↔ HasFillCumulativeRegression second := by
  simp only [HasFillCumulativeRegression, (brokerFacts_perm same).mem_iff,
    (fillRecords_perm same).mem_iff]

theorem deriveObservedCumulative_eq_of_perm :
    deriveObservedCumulative first = deriveObservedCumulative second :=
  ((brokerFacts_perm same).filterMap _).foldr_eq 0

theorem hasRetryAfterLocalKnowledge_iff_of_perm :
    HasRetryAfterLocalKnowledge json first ↔ HasRetryAfterLocalKnowledge json second := by
  have boundaries : (knowledgeBoundaries first).Perm (knowledgeBoundaries second) :=
    ((brokerFacts_perm same).map _).append ((observations_perm same).map _)
  simp only [HasRetryAfterLocalKnowledge, sortedAttempts_eq_of_perm same, boundaries.mem_iff]

theorem hasOverlappingReplaceIntents_iff_of_perm :
    HasOverlappingReplaceIntents json first ↔ HasOverlappingReplaceIntents json second := by
  have resolved : ResolvedBefore (readbacks first) = ResolvedBefore (readbacks second) := by
    funext prior current
    simp only [ResolvedBefore, (readbacks_perm same).mem_iff]
  rw [HasOverlappingReplaceIntents, sortedReplacements_eq_of_perm same, resolved]
  rfl

theorem deriveBrokerOrderId_eq_of_perm :
    deriveBrokerOrderId json first = deriveBrokerOrderId json second := by
  rw [deriveBrokerOrderId, identifiedFacts_eq_of_perm same]
  rfl

theorem brokerIdConflict_iff_of_perm :
    BrokerIdConflict json first ↔ BrokerIdConflict json second := by
  rw [BrokerIdConflict, identifiedFacts_eq_of_perm same]
  rfl

theorem deriveQuantityAuthority_eq_of_perm (intent : OrderIntent) :
    deriveQuantityAuthority json intent first = deriveQuantityAuthority json intent second := by
  rw [deriveQuantityAuthority, authorityRecords_eq_of_perm same]
  rfl

theorem deriveFactReasons_eq_of_perm :
    deriveFactReasons json first = deriveFactReasons json second := by
  rw [deriveFactReasons, sortedFacts_eq_of_perm (brokerFacts_perm same)]
  rfl

theorem submitAttempts_eq_nil_iff_of_perm :
    submitAttempts first = [] ↔ submitAttempts second = [] := by
  rw [← List.length_eq_zero_iff, (submitAttempts_perm same).length_eq, List.length_eq_zero_iff]

theorem brokerFacts_eq_nil_iff_of_perm : brokerFacts first = [] ↔ brokerFacts second = [] := by
  rw [← List.length_eq_zero_iff, (brokerFacts_perm same).length_eq, List.length_eq_zero_iff]

theorem deriveBrokerState_eq_of_perm :
    deriveBrokerState json first = deriveBrokerState json second := by
  rw [deriveBrokerState, deriveBrokerState, sortedFacts_eq_of_perm (brokerFacts_perm same)]
  simp only [submitAttempts_eq_nil_iff_of_perm same]

theorem deriveLatestAuthoritativeReceipt_eq_of_perm :
    deriveLatestAuthoritativeReceipt first = deriveLatestAuthoritativeReceipt second := by
  have others : (nonReadbacks first).Perm (nonReadbacks second) := (brokerFacts_perm same).filter _
  have latest := max?_eq_of_perm (others.map BrokerFact.primaryTime)
  rw [deriveLatestAuthoritativeReceipt, deriveLatestAuthoritativeReceipt, latest]
  exact max?_eq_of_perm ((others.map _).append (((readbacks_perm same).filter _).map _))

theorem deriveUncertainSince_eq_of_perm :
    deriveUncertainSince first = deriveUncertainSince second := by
  have recovered : ∀ latest, Recovered first latest ↔ Recovered second latest := by
    intro latest
    simp only [Recovered, (readbacks_perm same).mem_iff]
  rw [deriveUncertainSince, deriveUncertainSince,
    max?_eq_of_perm ((observations_perm same).map Observation.locallyReceivedAt)]
  simp only [recovered]

theorem deriveReconciliationReasons_eq_of_perm (authority : QuantityAuthority) :
    deriveReconciliationReasons json authority first =
      deriveReconciliationReasons json authority second := by
  simp [deriveReconciliationReasons, brokerFacts_eq_nil_iff_of_perm same,
    submitAttempts_eq_nil_iff_of_perm same, brokerIdConflict_iff_of_perm same,
    fillOverlap_iff_of_perm same, hasFillCumulativeRegression_iff_of_perm same,
    hasRetryAfterLocalKnowledge_iff_of_perm same, hasOverlappingReplaceIntents_iff_of_perm same,
    deriveObservedCumulative_eq_of_perm same, deriveFillIntervals_eq_of_perm same,
    (fillRecords_perm same).mem_iff, deriveFactReasons_eq_of_perm same]

theorem deriveReplaceBasis_eq_of_perm (state : ExecutionState) (authority : QuantityAuthority) :
    deriveReplaceBasis json first state authority =
      deriveReplaceBasis json second state authority := by
  have current : ∀ candidate,
      IsCurrent (brokerFacts first) candidate ↔ IsCurrent (brokerFacts second) candidate := by
    intro candidate
    simp only [IsCurrent, (brokerFacts_perm same).mem_iff]
  simp only [deriveReplaceBasis, deriveObservedCumulative_eq_of_perm same,
    deriveFillIntervals_eq_of_perm same, deriveBrokerOrderId_eq_of_perm same, current]
  split
  case isTrue =>
    apply greatestBy_eq_of_perm ((readbacks_perm same).filter _)
    intro a _ b _ sameKey
    have bytes := congrArg (fun key => (ofLex (ofLex key).2).2) sameKey
    cases canonicalBytes_injective bytes
    rfl
  case isFalse => rfl

theorem uncertainSince_eq_of_perm (brokerState : ExecutionState) :
    uncertainSince brokerState first = uncertainSince brokerState second := by
  rw [uncertainSince, uncertainSince, deriveUncertainSince_eq_of_perm same]

theorem deriveLocalReplaceBasis_eq_of_perm (intent : OrderIntent) :
    deriveLocalReplaceBasis json intent first = deriveLocalReplaceBasis json intent second := by
  rw [deriveLocalReplaceBasis, deriveLocalReplaceBasis, deriveQuantityAuthority_eq_of_perm same,
    deriveBrokerState_eq_of_perm same, deriveReconciliationReasons_eq_of_perm same,
    uncertainSince_eq_of_perm same, deriveReplaceBasis_eq_of_perm same]

theorem hasInvalidReplaceBasis_iff_of_perm (intent : OrderIntent) :
    HasInvalidReplaceBasis json intent first ↔ HasInvalidReplaceBasis json intent second := by
  have known : ∀ replacement, deriveLocalReplaceBasis json intent (knownBefore first replacement) =
      deriveLocalReplaceBasis json intent (knownBefore second replacement) := by
    intro replacement
    exact deriveLocalReplaceBasis_eq_of_perm (knownBefore_perm same replacement) intent
  simp only [HasInvalidReplaceBasis, (replaceIntents_perm same).mem_iff, known]

end

namespace ExecutionLifecycle

/-- **A projection depends on the order of the records in that order alone.** -/
theorem projectRecords_eq_of_perm (same : first.Perm second) (intent : OrderIntent) :
    { projectRecords json intent first with records := second } =
      projectRecords json intent second := by
  have fillTimes := max?_eq_of_perm
    ((fillRecords_perm same).map fun record => record.exchangeEventAt)
  have factTimes := max?_eq_of_perm ((brokerFacts_perm same).map BrokerFact.primaryTime)
  simp [projectRecords, deriveQuantityAuthority_eq_of_perm same,
    deriveReconciliationReasons_eq_of_perm same, hasInvalidReplaceBasis_iff_of_perm same,
    deriveBrokerState_eq_of_perm same, uncertainSince_eq_of_perm same,
    sortedAttempts_eq_of_perm same, deriveBrokerOrderId_eq_of_perm same,
    deriveObservedCumulative_eq_of_perm same, deriveFillIntervals_eq_of_perm same, fillTimes,
    factTimes, deriveLatestAuthoritativeReceipt_eq_of_perm same, deriveReplaceBasis_eq_of_perm same]

/-- **Lifecycles of the same records agree on all that is derived.** -/
theorem arrivalOrder (json : Serialization) (intent : OrderIntent)
    (first second : List ExecutionRecord) (life life' : ExecutionLifecycle)
    (same : ∀ record, record ∈ first ↔ record ∈ second)
    (applied : (start intent).applyAll json first = .ok life)
    (applied' : (start intent).applyAll json second = .ok life') :
    { life with records := life'.records } = life' ∧ life.records.Perm life'.records ∧
      ∀ record ∈ life.records, life.apply json record = .ok life := by
  obtain ⟨retains, isIntent, members⟩ := retains_applyAll (retains_start intent) applied
  obtain ⟨retains', isIntent', members'⟩ := retains_applyAll (retains_start intent) applied'
  have perm : life.records.Perm life'.records := by
    rw [List.perm_ext_iff_of_nodup retains.nodup retains'.nodup]
    intro record
    rw [members, members', same]
  refine ⟨?_, perm, ?_⟩
  · rw [retains.projected, retains'.projected, isIntent, isIntent']
    exact projectRecords_eq_of_perm perm _
  · intro record member
    exact retains.apply_of_mem member

def sampleSubmitted : ExecutionRecord :=
  .submitAttempt (sampleAttempt "s" 0)

def sampleAcknowledged : ExecutionRecord :=
  .brokerFact (.acknowledgement (sampleAcknowledgement "a" 0 0))

theorem arrivalOrder_sample :
    { projectRecords sampleSerialization (sampleIntent 1 (le_refl 1))
        [sampleSubmitted, sampleAcknowledged] with
      records := [sampleAcknowledged, sampleSubmitted] } =
        projectRecords sampleSerialization (sampleIntent 1 (le_refl 1))
          [sampleAcknowledged, sampleSubmitted] :=
  (arrivalOrder sampleSerialization (sampleIntent 1 (le_refl 1))
    [sampleSubmitted, sampleAcknowledged] [sampleAcknowledged, sampleSubmitted] _ _
    (fun record => by simp [or_comm]) rfl rfl).1

end ExecutionLifecycle

end TreeOptions.Execution
