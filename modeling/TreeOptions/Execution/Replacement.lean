import TreeOptions.Execution.Economics

/-!
# The authority of a replacement

A replacement is accepted on the records that were known when it was created. Either they
offered exactly the readback it names to a lifecycle with nothing to reconcile
(`Entitled`), or the lifecycle that retains it waits for a reconciliation
(`replacementAuthority`): another replacement was still pending, and the two overlap, or
an earlier one has lost its basis, which the check before the acceptance leaves out.

The pending replacement is the last one known (`exists_pending`). A snapshot that resolves
it before the next would have answered it.
-/

set_option autoImplicit false

namespace TreeOptions.Execution

open Checked QuantityAuthority ExecutionLifecycle

variable {json : Serialization} {intent : OrderIntent} {records : List ExecutionRecord}
  {authority : QuantityAuthority}

/-! ## The pending replacement -/

/-- A snapshot that answers a replacement: it reports a total, is not the one the
replacement is based on, and was taken after it. -/
def Answers (request : ReplaceIntent) (record : ExecutionRecord) : Prop :=
  ∃ readback, record = .brokerFact (.readback readback) ∧ readback.totalQuantity ≠ none ∧
    readback.recordId ≠ request.basedOnReadbackId ∧
      request.replaceCreatedAt < readback.brokerSnapshotAt

/-- The replacement an authority waits for. -/
structure Awaits (authority : QuantityAuthority) (request : ReplaceIntent) : Prop where
  pending : authority.pending = some request.newTotalQuantity
  basis : authority.pendingBasisId = some request.basedOnReadbackId
  createdAt : authority.pendingCreatedAt = some request.replaceCreatedAt

/-- What an authority says of the replacement it waits for. -/
def QuantityAuthority.request (authority : QuantityAuthority) :
    Option ℕ × Option String × Option ℤ :=
  (authority.pending, authority.pendingBasisId, authority.pendingCreatedAt)

theorem Awaits.of_request {authority' : QuantityAuthority} {request : ReplaceIntent}
    (awaits : Awaits authority request) (same : authority'.request = authority.request) :
    Awaits authority' request := by
  simp only [QuantityAuthority.request, Prod.mk.injEq] at same
  exact ⟨same.1.trans awaits.pending, same.2.1.trans awaits.basis,
    same.2.2.trans awaits.createdAt⟩

theorem addIf_request (found : Bool) (reason : ReconciliationReason) :
    (authority.addIf found reason).request = authority.request := by
  rw [addIf]
  split <;> rfl

theorem observe_request (record : BrokerReadback) (observed : ℕ) :
    (authority.observe intent record observed).request = authority.request := by
  rw [observe]
  split
  · exact addIf_request _ _
  · split
    · exact addIf_request _ _
    · rfl

/-- A snapshot that leaves an authority waiting changes nothing about what it waits for,
and it is no answer. -/
theorem onReadback_awaits {record : BrokerReadback} {request : ReplaceIntent}
    (awaits : Awaits authority request)
    (pending : (authority.onReadback intent record).pending ≠ none) :
    (authority.onReadback intent record).request = authority.request ∧
      ¬ Answers request (.brokerFact (.readback record)) := by
  have answers : Answers request (.brokerFact (.readback record)) →
      record.totalQuantity ≠ none ∧ record.recordId ≠ request.basedOnReadbackId ∧
        request.replaceCreatedAt < record.brokerSnapshotAt := by
    rintro ⟨readback, same, answering⟩
    cases same
    exact answering
  rw [onReadback] at pending ⊢
  split at pending
  case h_1 noTotal => exact ⟨rfl, fun answering => (answers answering).1 noTotal⟩
  case h_2 observed isTotal =>
    rw [awaits.pending] at pending ⊢
    simp only [answer, awaits.basis, awaits.createdAt] at pending ⊢
    split at pending
    case isTrue named =>
      rw [if_pos named]
      refine ⟨?_, fun answering => (answers answering).2.1 (Option.some.inj named).symm⟩
      split
      · exact addIf_request _ _
      · exact observe_request _ _
    case isFalse other =>
      rw [if_neg other]
      split at pending
      case isTrue stale =>
        rw [if_pos stale]
        have early : record.brokerSnapshotAt ≤ request.replaceCreatedAt := by simpa using stale
        refine ⟨?_, fun answering => absurd (answers answering).2.2 (not_lt.mpr early)⟩
        split
        · exact addIf_request _ _
        · rfl
      case isFalse => exact absurd rfl pending

/-- A snapshot makes no authority wait. -/
theorem onReadback_pending (nothing : authority.pending = none) (record : BrokerReadback) :
    (authority.onReadback intent record).pending = none := by
  rw [onReadback]
  split
  case h_1 => exact nothing
  case h_2 observed _ =>
    rw [nothing]
    exact (congrArg Prod.fst (observe_request record observed)).trans nothing

/-- **An authority that waits for a replacement waits for the last one, and nothing after
it answered it.** -/
theorem exists_pending (records : List ExecutionRecord)
    (pending : (records.foldl (QuantityAuthority.next intent) {}).pending ≠ none) :
    ∃ before request after, records = before ++ .replaceIntent request :: after ∧
      Awaits (records.foldl (QuantityAuthority.next intent) {}) request ∧
      (records.foldl (QuantityAuthority.next intent) {}).submitted = true ∧
      ∀ record ∈ after, ¬ Answers request record := by
  induction records using List.reverseRecOn with
  | nil => exact absurd rfl pending
  | append_singleton rest record ih =>
    rw [List.foldl_append, List.foldl_cons, List.foldl_nil] at pending ⊢
    generalize authority : rest.foldl (QuantityAuthority.next intent) {} = current at *
    -- a record that changes nothing about the replacement is one more after it
    have kept : (current.next intent record).request = current.request →
        (∀ request, Awaits current request → ¬ Answers request record) →
        ∃ before request after, rest ++ [record] = before ++ .replaceIntent request :: after ∧
          Awaits (current.next intent record) request ∧
          (current.next intent record).submitted = true ∧
          ∀ record ∈ after, ¬ Answers request record := by
      intro same silent
      have samePending : (current.next intent record).pending = current.pending :=
        congrArg Prod.fst same
      have waits : current.pending ≠ none := samePending ▸ pending
      obtain ⟨before, request, after, split, awaits, submitted, quiet⟩ := ih waits
      refine ⟨before, request, after ++ [record], by rw [split]; simp, awaits.of_request same,
        next_submitted record submitted, ?_⟩
      rw [List.forall_mem_append, List.forall_mem_singleton]
      exact ⟨quiet, silent request awaits⟩
    have silent : ∀ {request}, (∀ readback, record ≠ .brokerFact (.readback readback)) →
        ¬ Answers request record := by
      rintro request other ⟨readback, same, -⟩
      exact other readback same
    cases record with
    | submitAttempt record => exact kept rfl fun _ _ => silent fun _ same => by cases same
    | observation record => exact kept rfl fun _ _ => silent fun _ same => by cases same
    | replaceIntent record =>
      rw [QuantityAuthority.next] at pending ⊢
      split at pending
      case isTrue submitted =>
        rw [if_pos submitted]
        exact ⟨rest, record, [], rfl, ⟨rfl, rfl, rfl⟩, submitted, by simp⟩
      case isFalse unsubmitted =>
        obtain ⟨-, -, -, -, -, submitted, -⟩ := ih pending
        exact absurd submitted unsubmitted
    | brokerFact fact =>
      cases fact with
      | acknowledgement record =>
        refine kept ?_ fun _ _ => silent fun _ same => by cases same
        rw [QuantityAuthority.next, onAcknowledgement]
        split
        · split <;> rfl
        · rfl
      | reject record => exact kept rfl fun _ _ => silent fun _ same => by cases same
      | fill record => exact kept rfl fun _ _ => silent fun _ same => by cases same
      | readback record =>
        by_cases submitted : current.submitted = true
        · have isNext : current.next intent (.brokerFact (.readback record)) =
              current.onReadback intent record := if_pos submitted
          rw [isNext] at pending kept ⊢
          have waits : current.pending ≠ none := by
            intro nothing
            exact pending (onReadback_pending nothing record)
          obtain ⟨-, request, -, -, awaits, -, -⟩ := ih waits
          refine kept (onReadback_awaits awaits pending).1 ?_
          intro request' awaits'
          exact (onReadback_awaits awaits' pending).2
        · have isNext : current.next intent (.brokerFact (.readback record)) = current :=
            if_neg submitted
          rw [isNext] at pending
          obtain ⟨-, -, -, -, -, submitted', -⟩ := ih pending
          exact absurd submitted' submitted

/-! ## Overlapping replacements -/

theorem mem_replaceIntents {record : ReplaceIntent} :
    record ∈ replaceIntents records ↔ .replaceIntent record ∈ records := by
  rw [replaceIntents, List.mem_filterMap]
  constructor
  · rintro ⟨stored, member, is⟩
    cases stored <;> cases is
    exact member
  · intro member
    exact ⟨_, member, rfl⟩

theorem overlapping_of_unresolved {first second : ReplaceIntent}
    (member : first ∈ replaceIntents records) (member' : second ∈ replaceIntents records)
    (different : first ≠ second)
    (unresolved : ¬ ResolvedBefore (readbacks records) first second)
    (unresolved' : ¬ ResolvedBefore (readbacks records) second first) :
    HasOverlappingReplaceIntents json records := by
  intro resolved
  have either : (sortedReplacements json records).Pairwise fun a b =>
      ResolvedBefore (readbacks records) a b ∨ ResolvedBefore (readbacks records) b a :=
    resolved.imp .inl
  have symmetric : Std.Symm fun a b => ResolvedBefore (readbacks records) a b ∨
      ResolvedBefore (readbacks records) b a := ⟨fun _ _ => Or.symm⟩
  rcases either.forall (mem_sortedBy.mpr member) (mem_sortedBy.mpr member')
    different with before | before
  · exact unresolved before
  · exact unresolved' before

theorem not_resolvedBefore_of_le {prior current : ReplaceIntent} {readbacks : List BrokerReadback}
    (noLater : current.replaceCreatedAt ≤ prior.replaceCreatedAt) :
    ¬ ResolvedBefore readbacks prior current := by
  rintro ⟨readback, -, -, -, -, after, known⟩
  have := readback.snapshot_le
  omega

theorem replaceIntents_append (record : ReplaceIntent) :
    replaceIntents (records ++ [.replaceIntent record]) = replaceIntents records ++ [record] := by
  simp [replaceIntents, ExecutionRecord.replaceIntent?]

theorem readbacks_append (record : ReplaceIntent) :
    readbacks (records ++ [.replaceIntent record]) = readbacks records := by
  simp [readbacks, brokerFacts_append, ExecutionRecord.brokerFact?]

theorem mem_knownRecords {record : ExecutionRecord} {observedAt : ℤ} :
    record ∈ knownRecords records observedAt ↔ record ∈ records ∧ record.knownAt ≤ observedAt := by
  rw [knownRecords, List.mem_filter, ExecutionRecord.knownNoLaterThan, decide_eq_true_iff]

/-- **A replacement made while another is pending overlaps it.** -/
theorem overlapping_of_pending {record : ReplaceIntent} (new : .replaceIntent record ∉ records)
    (pending : (deriveQuantityAuthority json intent
      (knownRecords records record.replaceCreatedAt)).pending ≠ none) :
    HasOverlappingReplaceIntents json (records ++ [.replaceIntent record]) := by
  obtain ⟨before, request, after, split, -, -, quiet⟩ := exists_pending _ pending
  have sorted := pairwise_sortedBy (eventSortKey json)
    ((knownRecords records record.replaceCreatedAt).filter ExecutionRecord.isAuthority)
  have inSorted : .replaceIntent request ∈
      authorityRecords json (knownRecords records record.replaceCreatedAt) := by
    rw [split]
    exact List.mem_append_right _ List.mem_cons_self
  obtain ⟨isRecord, noLater⟩ := mem_knownRecords.mp (mem_authorityRecords.mp inSorted).1
  have isRequest : request ∈ replaceIntents (records ++ [.replaceIntent record]) := by
    rw [replaceIntents_append]
    exact List.mem_append_left _ (mem_replaceIntents.mpr isRecord)
  have isNew : record ∈ replaceIntents (records ++ [.replaceIntent record]) := by
    rw [replaceIntents_append]
    exact List.mem_append_right _ (List.mem_singleton_self _)
  apply overlapping_of_unresolved isRequest isNew
  · rintro rfl
    exact new isRecord
  · -- a snapshot that resolved the pending replacement would have answered it
    rw [readbacks_append]
    rintro ⟨readback, member, total, -, other, after', known⟩
    have received : readback.locallyReceivedAt ≤ record.replaceCreatedAt := by
      rcases known with less | ⟨-, le⟩
      · exact less.le
      · exact le
    have inSorted' : .brokerFact (.readback readback) ∈
        authorityRecords json (knownRecords records record.replaceCreatedAt) :=
      mem_authorityRecords.mpr
        ⟨mem_knownRecords.mpr ⟨mem_brokerFacts.mp (mem_readbacks.mp member), received⟩, rfl⟩
    rw [split] at inSorted'
    rw [authorityRecords] at split
    rw [split] at sorted
    rcases List.mem_append.mp inSorted' with inBefore | inRest
    · have le := (List.pairwise_append.mp sorted).2.2 _ inBefore _ List.mem_cons_self
      rw [eventSortKey, eventSortKey, Prod.Lex.toLex_le_toLex] at le
      rcases le with less | ⟨same, -⟩
      · exact absurd after' (not_lt.mpr less.le)
      · exact absurd after' (not_lt.mpr same.le)
    · rcases List.mem_cons.mp inRest with same | inAfter
      · cases same
      · exact quiet _ inAfter ⟨readback, rfl, total, other, after'⟩
  · exact not_resolvedBefore_of_le noLater

/-! ## What a replacement is accepted on -/

namespace ExecutionLifecycle

variable {life next : ExecutionLifecycle} {record : ReplaceIntent}

/-- The records known when a replacement was created offered it the readback it names,
with nothing to reconcile, to doubt or to wait for. -/
structure Entitled (json : Serialization) (life : ExecutionLifecycle) (record : ReplaceIntent) :
    Prop where
  state : (life.historical json record).state = .acknowledged ∨
    (life.historical json record).state = .partiallyFilled
  reasons : (life.historical json record).reconciliationReasons = ∅
  certain : (life.historical json record).uncertainSinceAt = none
  settled : (life.historical json record).pendingReplaceTotalQuantity = none
  basis : (life.historical json record).replaceBasis.map (fun basis => basis.recordId) =
    some record.basedOnReadbackId
  exceeds : (life.historical json record).filledQuantity < record.newTotalQuantity

/-- What an accepted replacement passed. -/
theorem applyReplace_cases (applied : life.applyReplace json record = .ok next) :
    (life.localReplaceBasis json record).2 ≠ none ∨
      ((life.localReplaceBasis json record).2 = none ∧
        (life.localReplaceBasis json record).1.map (fun basis => basis.recordId) =
          some record.basedOnReadbackId ∧
        (life.historical json record).filledQuantity < record.newTotalQuantity) := by
  rw [applyReplace] at applied
  split at applied
  case h_1 => cases applied
  case h_2 =>
    obtain ⟨-, named⟩ := refuse_bind_eq_ok.mp applied
    split at named
    case isTrue pending => exact .inl pending
    case isFalse pending =>
      cases basis : (life.localReplaceBasis json record).1 with
      | none =>
        rw [basis] at named
        cases named
      | some basis =>
        simp only [basis, applyBased, refuse_bind_eq_ok, not_not, not_le] at named
        obtain ⟨same, -, -, -, -, exceeds, -⟩ := named
        exact .inr ⟨not_not.mp pending, congrArg some same, exceeds⟩

theorem deriveReplaceBasis_some {state : ExecutionState} {readback : BrokerReadback}
    (offered : deriveReplaceBasis json records state authority = some readback) :
    (state = .acknowledged ∨ state = .partiallyFilled) ∧ authority.pending = none := by
  rw [deriveReplaceBasis, Option.ite_none_right_eq_some] at offered
  exact ⟨offered.1.1, offered.1.2.1⟩

theorem knownBefore_append {request : ReplaceIntent}
    (earlier : request.replaceCreatedAt < record.replaceCreatedAt) :
    knownBefore (records ++ [.replaceIntent record]) request =
      knownBefore (knownRecords records record.replaceCreatedAt) request := by
  have later : ExecutionRecord.knownNoLaterThan request.replaceCreatedAt (.replaceIntent record) =
      false := decide_eq_false (not_le.mpr earlier)
  have known : knownRecords (records ++ [.replaceIntent record]) request.replaceCreatedAt =
      knownRecords (knownRecords records record.replaceCreatedAt) request.replaceCreatedAt := by
    rw [knownRecords, knownRecords, knownRecords, List.filter_append, List.filter_filter,
      List.filter_singleton, later]
    simp only [cond_false, List.append_nil]
    apply List.filter_congr
    intro stored _
    rw [ExecutionRecord.knownNoLaterThan, ExecutionRecord.knownNoLaterThan, Bool.eq_iff_iff,
      Bool.and_eq_true, decide_eq_true_iff, decide_eq_true_iff]
    constructor
    · intro known
      exact ⟨known, known.trans earlier.le⟩
    · exact And.left
  rw [knownBefore, knownBefore, known]

/-- **An earlier replacement without its basis stays one, or the two overlap.** -/
theorem invalid_or_overlapping (new : .replaceIntent record ∉ records)
    (invalid : HasInvalidReplaceBasis json intent
      (knownRecords records record.replaceCreatedAt)) :
    HasInvalidReplaceBasis json intent (records ++ [.replaceIntent record]) ∨
      HasOverlappingReplaceIntents json (records ++ [.replaceIntent record]) := by
  obtain ⟨request, member, settled, other⟩ := invalid
  obtain ⟨isRecord, noLater⟩ := mem_knownRecords.mp (mem_replaceIntents.mp member)
  have isRequest : request ∈ replaceIntents (records ++ [.replaceIntent record]) := by
    rw [replaceIntents_append]
    exact List.mem_append_left _ (mem_replaceIntents.mpr isRecord)
  rcases noLater.lt_or_eq with earlier | same
  · refine .inl ⟨request, isRequest, ?_⟩
    rw [knownBefore_append earlier]
    exact ⟨settled, other⟩
  · have isNew : record ∈ replaceIntents (records ++ [.replaceIntent record]) := by
      rw [replaceIntents_append]
      exact List.mem_concat_self
    refine .inr (overlapping_of_unresolved isRequest isNew ?_ ?_ ?_)
    · rintro rfl
      exact new isRecord
    · exact not_resolvedBefore_of_le same.ge
    · exact not_resolvedBefore_of_le same.le

theorem mem_reasonIf {reason : ReconciliationReason} {found : Bool} (isFound : found = true) :
    reason ∈ reasonIf reason found := by
  rw [reasonIf, if_pos isFound]
  exact Finset.mem_singleton_self _

theorem state_of_reason {reason : ReconciliationReason}
    (found : reason ∈ (projectRecords json intent records).reconciliationReasons) :
    (projectRecords json intent records).state = .reconciliationRequired :=
  if_pos (Finset.ne_empty_of_mem found)

theorem overlapping_mem (overlapping : HasOverlappingReplaceIntents json records) :
    .overlappingReplaceIntents ∈ (projectRecords json intent records).reconciliationReasons := by
  refine Finset.mem_union_left _ ?_
  simp only [deriveReconciliationReasons, Finset.mem_union]
  refine .inl (.inl (.inl (.inl (.inl (.inr (mem_reasonIf ?_))))))
  exact decide_eq_true overlapping

theorem invalid_mem (invalid : HasInvalidReplaceBasis json intent records) :
    .invalidReplaceBasis ∈ (projectRecords json intent records).reconciliationReasons :=
  Finset.mem_union_right _ (mem_reasonIf (decide_eq_true invalid))

/-- Where every earlier replacement kept its basis, what is offered is offered by the
whole projection. -/
theorem entitled_of_valid
    (valid : ¬ HasInvalidReplaceBasis json life.intent
      (knownRecords life.records record.replaceCreatedAt))
    (settled : (life.localReplaceBasis json record).2 = none)
    (named : (life.localReplaceBasis json record).1.map (fun basis => basis.recordId) =
      some record.basedOnReadbackId)
    (exceeds : (life.historical json record).filledQuantity < record.newTotalQuantity) :
    Entitled json life record := by
  have sameReasons : (life.historical json record).reconciliationReasons =
      deriveReconciliationReasons json
        (deriveQuantityAuthority json life.intent
          (knownRecords life.records record.replaceCreatedAt))
        (knownRecords life.records record.replaceCreatedAt) := by
    rw [historical, projectRecords, reasonIf, if_neg (by simpa using valid), Finset.union_empty]
  have sameState : (life.historical json record).state =
      effectiveState (life.historical json record).reconciliationReasons
        (life.historical json record).uncertainSinceAt
        (life.historical json record).brokerState := rfl
  have sameBasis : (life.historical json record).replaceBasis =
      (life.localReplaceBasis json record).1 := by
    change deriveReplaceBasis json _ (life.historical json record).state _ =
      deriveReplaceBasis json _ _ _
    rw [sameState, sameReasons]
    rfl
  obtain ⟨basis, isBasis, -⟩ := Option.map_eq_some_iff.mp named
  obtain ⟨open', -⟩ := deriveReplaceBasis_some (sameBasis.trans isBasis)
  have known : (life.historical json record).reconciliationReasons = ∅ ∧
      (life.historical json record).uncertainSinceAt = none := by
    rcases open' with acknowledged | partiallyFilled
    · obtain ⟨noReason, certain, -⟩ :=
        settled_of_effective (sameState.symm.trans acknowledged) (by decide) (by decide)
      exact ⟨noReason, certain⟩
    · obtain ⟨noReason, certain, -⟩ :=
        settled_of_effective (sameState.symm.trans partiallyFilled) (by decide) (by decide)
      exact ⟨noReason, certain⟩
  exact ⟨open', known.1, known.2, settled, sameBasis ▸ named, exceeds⟩

/-- **No replacement without authority.** -/
theorem replacementAuthority (json : Serialization) (life next : ExecutionLifecycle)
    (record : ReplaceIntent) (new : .replaceIntent record ∉ life.records)
    (applied : life.apply json (.replaceIntent record) = .ok next) :
    Entitled json life record ∨ (next.state = .reconciliationRequired ∧
      (.overlappingReplaceIntents ∈ next.reconciliationReasons ∨
        .invalidReplaceBasis ∈ next.reconciliationReasons)) := by
  have isNew : next = life.withRecord json (.replaceIntent record) ∧
      life.applyReplace json record = .ok next := by
    obtain ⟨-, ⟨checked, -⟩ | ⟨-, retained⟩⟩ := apply_eq_ok.mp applied
    · exact absurd (execution_mem_stored.mp (mem_of_checkIdentity checked)) new
    · exact ⟨retain_ok retained, (refuse_bind_eq_ok.mp retained).2⟩
  obtain ⟨rfl, accepted⟩ := isNew
  have blocked : ∀ {reason : ReconciliationReason},
      reason ∈ (life.withRecord json (.replaceIntent record)).reconciliationReasons →
      (life.withRecord json (.replaceIntent record)).state = .reconciliationRequired :=
    fun found => state_of_reason found
  rcases applyReplace_cases accepted with pending | ⟨settled, named, exceeds⟩
  · have found : _ ∈ (life.withRecord json (.replaceIntent record)).reconciliationReasons :=
      overlapping_mem (overlapping_of_pending new pending)
    exact .inr ⟨blocked found, .inl found⟩
  · by_cases invalid : HasInvalidReplaceBasis json life.intent
        (knownRecords life.records record.replaceCreatedAt)
    · rcases invalid_or_overlapping new invalid with invalid' | overlapping
      · have found := invalid_mem invalid'
        exact .inr ⟨blocked found, .inr found⟩
      · have found : _ ∈ (life.withRecord json (.replaceIntent record)).reconciliationReasons :=
          overlapping_mem overlapping
        exact .inr ⟨blocked found, .inl found⟩
    · exact .inl (entitled_of_valid invalid settled named exceeds)

/-! ## Two replacements -/

/-- A second, in microseconds. -/
def sampleSecond : ℤ :=
  10 ^ 6

/-- A snapshot of the open order that is received at once. -/
def sampleSnapshot (recordId : String) (total : ℕ) (positive : 1 ≤ total) (snapshotAt : ℤ) :
    BrokerReadback where
  toBrokerHead := sampleBrokerHead recordId snapshotAt
  status := .opened
  brokerOrderId := some "b"
  totalQuantity := some total
  cumulativeQuantity := 0
  brokerSnapshotAt := snapshotAt
  total_pos := by simpa using positive
  observedTotal_pos := by simp
  observedOrder := by simp
  observedTotal := by simp
  snapshot_le := Int.le_refl snapshotAt
  admitted := by simp [BrokerReadbackStatus.Admits]

def sampleReplacement (recordId basis : String) (total : ℕ) (positive : 1 ≤ total)
    (createdAt : ℤ) : ReplaceIntent where
  toRecordHead := sampleHead recordId
  basedOnReadbackId := basis
  brokerOrderId := "b"
  newTotalQuantity := total
  newLimitPrice := samplePrice
  replaceCreatedAt := createdAt
  newTotal_pos := positive

/-- A replacement based on a snapshot, and an acknowledgement that was received between
the two but is learned of afterwards. -/
def sampleReplaced : List ExecutionRecord :=
  [.submitAttempt (sampleAttempt "s" 0),
    .brokerFact (.acknowledgement (sampleAcknowledgement "a" sampleSecond 0)),
    .brokerFact (.readback (sampleSnapshot "r1" 5 (by decide) (2 * sampleSecond))),
    .replaceIntent (sampleReplacement "p1" "r1" 10 (by decide) (4 * sampleSecond)),
    .brokerFact (.acknowledgement (sampleAcknowledgement "a2" sampleSecond 2000000)),
    .brokerFact (.readback (sampleSnapshot "r2" 10 (by decide) (5 * sampleSecond)))]

/-- Before the first replacement. -/
def sampleOpen : ExecutionLifecycle :=
  projectRecords sampleSerialization (sampleIntent 5 (by decide)) (sampleReplaced.take 3)

def firstReplacement : ReplaceIntent :=
  sampleReplacement "p1" "r1" 10 (by decide) (4 * sampleSecond)

set_option maxRecDepth 4000 in
theorem accepted_firstReplacement :
    sampleOpen.apply sampleSerialization (.replaceIntent firstReplacement) =
      .ok (sampleOpen.withRecord sampleSerialization (.replaceIntent firstReplacement)) := by
  rfl

theorem replacementAuthority_sample :
    Entitled sampleSerialization sampleOpen firstReplacement :=
  (replacementAuthority sampleSerialization sampleOpen _ firstReplacement (by decide)
    accepted_firstReplacement).resolve_right (by decide +kernel)

def sampleLife : ExecutionLifecycle :=
  projectRecords sampleSerialization (sampleIntent 5 (by decide)) sampleReplaced

/-- Based on the snapshot that confirmed the first. -/
def secondReplacement : ReplaceIntent :=
  sampleReplacement "p2" "r2" 12 (by decide) (6 * sampleSecond)

theorem reachable_sampleLife : Reachable sampleSerialization sampleLife :=
  ⟨sampleReplaced, by rfl⟩

set_option maxRecDepth 4000 in
theorem accepted_secondReplacement :
    sampleLife.apply sampleSerialization (.replaceIntent secondReplacement) =
      .ok (sampleLife.withRecord sampleSerialization (.replaceIntent secondReplacement)) := by
  rfl

theorem accepted_without_overlap :
    Reachable sampleSerialization sampleLife ∧
    .replaceIntent secondReplacement ∉ sampleLife.records ∧
    (∃ next, sampleLife.apply sampleSerialization (.replaceIntent secondReplacement) = .ok next ∧
      ¬ Entitled sampleSerialization sampleLife secondReplacement ∧
      .overlappingReplaceIntents ∉ next.reconciliationReasons) := by
  refine ⟨reachable_sampleLife, by decide, sampleLife.withRecord sampleSerialization
    (.replaceIntent secondReplacement), accepted_secondReplacement, ?_, by decide +kernel⟩
  intro entitled
  have reasons := entitled.reasons
  revert reasons
  decide +kernel

end ExecutionLifecycle

end TreeOptions.Execution
