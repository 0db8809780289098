import TreeOptions.Execution.Lifecycle

/-!
# What is retained

A record is retained when its identity is new and the lifecycle admits it
(`apply_eq_ok`). Two retained records never share an id, a number of their source or a
number of the broker (`Apart`), so a record that is retained already is recognized
(`checkIdentity_of_mem`) and changes nothing.

Every lifecycle a run of accepted records leads to is the projection of what it retains,
and that is the records of the run (`Retains`, `retains_applyAll`).
-/

set_option autoImplicit false

namespace TreeOptions.Execution

open Checked

variable {json : Serialization}

/-! ## Identity -/

/-- Two stored records that share no identity. -/
structure Apart (first second : StoredExecutionRecord) : Prop where
  recordId : first.recordId ≠ second.recordId
  sourceKey : first.sourceKey ≠ second.sourceKey
  brokerKey : second.brokerKey ≠ none → first.brokerKey ≠ second.brokerKey

theorem Apart.irrefl {record : StoredExecutionRecord} (apart : Apart record record) : False :=
  apart.recordId rfl

namespace ExecutionLifecycle

section

variable {record : ExecutionRecord} {existing : StoredExecutionRecord}
  {rest : List StoredExecutionRecord}

theorem checkIdentity_cons_apart (apart : Apart existing (.execution record)) :
    checkIdentity json record (existing :: rest) = checkIdentity json record rest := by
  rw [checkIdentity, if_neg apart.recordId, if_neg apart.sourceKey, if_neg]
  rintro ⟨numbered, same⟩
  exact apart.brokerKey numbered same

theorem checkIdentity_cons_taken (taken : ¬ Apart existing (.execution record)) {found : Bool}
    (checked : checkIdentity json record (existing :: rest) = .ok found) :
    found = true ∧ existing = .execution record := by
  rw [checkIdentity] at checked
  split_ifs at checked with sameId sameBytes sameSource sameBytes sameBroker sameBytes
  · exact ⟨(Except.ok.inj checked).symm, canonicalBytes_injective sameBytes⟩
  · exact ⟨(Except.ok.inj checked).symm, canonicalBytes_injective sameBytes⟩
  · exact ⟨(Except.ok.inj checked).symm, canonicalBytes_injective sameBytes⟩
  · exact absurd ⟨sameId, sameSource, fun numbered same => sameBroker ⟨numbered, same⟩⟩ taken

end

variable {stored : List StoredExecutionRecord}

/-- **A record is new when it shares no identity with a stored record.** -/
theorem checkIdentity_eq_false {record : ExecutionRecord} :
    checkIdentity json record stored = .ok false ↔
      ∀ existing ∈ stored, Apart existing (.execution record) := by
  induction stored with
  | nil => simp [checkIdentity]
  | cons existing rest ih =>
    rw [List.forall_mem_cons, ← ih]
    by_cases apart : Apart existing (.execution record)
    · rw [checkIdentity_cons_apart apart]
      exact ⟨fun fresh => ⟨apart, fresh⟩, fun fresh => fresh.2⟩
    · constructor
      · intro checked
        exact absurd (checkIdentity_cons_taken apart checked).1 (by decide)
      · rintro ⟨apart', -⟩
        exact absurd apart' apart

theorem mem_of_checkIdentity {record : ExecutionRecord}
    (checked : checkIdentity json record stored = .ok true) : .execution record ∈ stored := by
  induction stored with
  | nil => cases checked
  | cons existing rest ih =>
    by_cases apart : Apart existing (.execution record)
    · rw [checkIdentity_cons_apart apart] at checked
      exact List.mem_cons_of_mem _ (ih checked)
    · rw [(checkIdentity_cons_taken apart checked).2]
      exact List.mem_cons_self

/-- **A record that is retained already is recognized.** -/
theorem checkIdentity_of_mem {record : ExecutionRecord} (apart : stored.Pairwise Apart)
    (member : .execution record ∈ stored) : checkIdentity json record stored = .ok true := by
  induction stored with
  | nil => cases member
  | cons existing rest ih =>
    obtain ⟨fromRest, apart'⟩ := List.pairwise_cons.mp apart
    rcases List.mem_cons.mp member with rfl | later
    · exact checkIdentity_cons_same json
    · rw [checkIdentity_cons_apart (fromRest _ later)]
      exact ih apart' later

/-! ## One record -/

variable {life next : ExecutionLifecycle}

theorem execution_mem_stored {record : ExecutionRecord} :
    .execution record ∈ life.stored ↔ record ∈ life.records := by
  simp [stored]

/-- **What is applied is retained already, or new and admitted.** -/
theorem apply_eq_ok {record : ExecutionRecord} :
    life.apply json record = .ok next ↔ record.head.intentId = life.intent.intentId ∧
      ((checkIdentity json record life.stored = .ok true ∧ next = life) ∨
        (∀ existing ∈ life.stored, Apart existing (.execution record)) ∧
          life.retain json record = .ok next) := by
  rw [apply, refuse_bind_eq_ok, not_not, bind_eq_ok]
  refine and_congr_right fun _ => ?_
  constructor
  · rintro ⟨duplicate, checked, result⟩
    cases duplicate with
    | true =>
      cases result
      exact .inl ⟨checked, rfl⟩
    | false => exact .inr ⟨checkIdentity_eq_false.mp checked, result⟩
  · rintro (⟨checked, rfl⟩ | ⟨apart, retained⟩)
    · exact ⟨true, checked, rfl⟩
    · exact ⟨false, checkIdentity_eq_false.mpr apart, retained⟩

theorem withRecord_of_pure {record : ExecutionRecord}
    (done : (pure (life.withRecord json record) : Except LifecycleError ExecutionLifecycle) =
      .ok next) : next = life.withRecord json record :=
  (Except.ok.inj done).symm

theorem applyReplace_ok {record : ReplaceIntent}
    (applied : life.applyReplace json record = .ok next) :
    next = life.withRecord json (.replaceIntent record) := by
  rw [applyReplace] at applied
  split at applied
  case h_1 => cases applied
  case h_2 =>
    obtain ⟨-, named⟩ := refuse_bind_eq_ok.mp applied
    split at named
    case isTrue =>
      simp only [applyOverlapping, refuse_bind_eq_ok] at named
      exact withRecord_of_pure named.2.2
    case isFalse =>
      cases basis : (life.localReplaceBasis json record).1 with
      | none =>
        rw [basis] at named
        cases named
      | some basis =>
        simp only [basis, applyBased, refuse_bind_eq_ok] at named
        exact withRecord_of_pure named.2.2.2.2.2.2

theorem applyOutage_ok {record : Observation}
    (applied : life.applyOutage json record = .ok next) :
    next = life.withRecord json (.observation record) := by
  obtain ⟨-, -, accepted⟩ := bind_eq_ok.mp applied
  exact withRecord_of_pure (refuse_bind_eq_ok.mp accepted).2

theorem applyUncertainty_ok {record : Observation}
    (applied : life.applyUncertainty json record = .ok next) :
    next = life.withRecord json (.observation record) := by
  cases record with
  | timeout record =>
    change life.applyTimeout json record = .ok next at applied
    rw [applyTimeout] at applied
    split at applied
    case h_1 => cases applied
    case h_2 => exact withRecord_of_pure (refuse_bind_eq_ok.mp applied).2
  | disconnect record => exact applyOutage_ok applied
  | uncertainty record => exact applyOutage_ok applied

theorem applySubmit_eq_ok {record : SubmitAttempt} :
    life.applySubmit json record = .ok next ↔
      (∀ first, (sortedAttempts json (life.records ++ [.submitAttempt record])).head? = some first →
        ∀ fact ∈ brokerFacts life.records, first.sendAttemptAt ≤ fact.primaryTime) ∧
      next = life.withRecord json (.submitAttempt record) := by
  have facts : brokerFacts (life.records ++ [.submitAttempt record]) = brokerFacts life.records := by
    simp [brokerFacts, ExecutionRecord.brokerFact?]
  simp only [applySubmit, refuse_bind_eq_ok, facts]
  refine and_congr ?_ ?_
  · cases (sortedAttempts json (life.records ++ [.submitAttempt record])).head? <;> simp
  · exact ⟨fun same => (Except.ok.inj same).symm, fun same => congrArg _ same.symm⟩

theorem applyFact_eq_ok {record : BrokerFact} :
    life.applyFact json record = .ok next ↔
      (∀ first, life.firstSubmitAt = some first → first ≤ record.primaryTime) ∧
      next = life.withRecord json (.brokerFact record) := by
  simp only [applyFact, requireAfterFirstSubmit, refuse_bind_eq_ok]
  refine and_congr ?_ ?_
  · cases life.firstSubmitAt <;> simp
  · exact ⟨fun same => (Except.ok.inj same).symm, fun same => congrArg _ same.symm⟩

/-- **A record that is retained is added to the others.** -/
theorem retain_ok {record : ExecutionRecord} (retained : life.retain json record = .ok next) :
    next = life.withRecord json record := by
  obtain ⟨-, retained⟩ := refuse_bind_eq_ok.mp retained
  cases record with
  | submitAttempt record => exact (applySubmit_eq_ok.mp retained).2
  | observation record => exact applyUncertainty_ok retained
  | brokerFact record => exact (applyFact_eq_ok.mp retained).2
  | replaceIntent record => exact applyReplace_ok retained

/-! ## Records of a kind -/

theorem submitAttempts_append (records : List ExecutionRecord) (record : ExecutionRecord) :
    submitAttempts (records ++ [record]) =
      submitAttempts records ++ record.submitAttempt?.toList := by
  rw [submitAttempts, List.filterMap_append]
  cases record <;> rfl

theorem brokerFacts_append (records : List ExecutionRecord) (record : ExecutionRecord) :
    brokerFacts (records ++ [record]) = brokerFacts records ++ record.brokerFact?.toList := by
  rw [brokerFacts, List.filterMap_append]
  cases record <;> rfl

variable {records : List ExecutionRecord}

theorem mem_submitAttempts {attempt : SubmitAttempt} :
    attempt ∈ submitAttempts records ↔ .submitAttempt attempt ∈ records := by
  rw [submitAttempts, List.mem_filterMap]
  constructor
  · rintro ⟨record, member, is⟩
    cases record <;> cases is
    exact member
  · intro member
    exact ⟨_, member, rfl⟩

theorem mem_brokerFacts {fact : BrokerFact} :
    fact ∈ brokerFacts records ↔ .brokerFact fact ∈ records := by
  rw [brokerFacts, List.mem_filterMap]
  constructor
  · rintro ⟨record, member, is⟩
    cases record <;> cases is
    exact member
  · intro member
    exact ⟨_, member, rfl⟩

/-! ## Runs -/

/-- Where there is a submit, some submit comes no later than any fact. -/
def SubmitFirst (records : List ExecutionRecord) : Prop :=
  submitAttempts records ≠ [] → ∃ first ∈ submitAttempts records,
    ∀ fact ∈ brokerFacts records, first.sendAttemptAt ≤ fact.primaryTime

theorem submitFirst_submit {record : SubmitAttempt}
    (applied : life.applySubmit json record = .ok next) :
    SubmitFirst (life.records ++ [.submitAttempt record]) := by
  obtain ⟨noFactBefore, -⟩ := applySubmit_eq_ok.mp applied
  intro submitted
  obtain ⟨first, isFirst⟩ : ∃ first,
      (sortedAttempts json (life.records ++ [.submitAttempt record])).head? = some first := by
    refine ⟨_, List.head?_eq_some_head ?_⟩
    intro nothing
    have perm := sortedBy_perm (fun attempt => eventSortKey json (.submitAttempt attempt))
      (submitAttempts (life.records ++ [.submitAttempt record]))
    exact submitted (List.nil_perm.mp (nothing ▸ perm))
  refine ⟨first, mem_sortedBy.mp (List.mem_of_mem_head? isFirst), ?_⟩
  intro fact member
  rw [brokerFacts_append] at member
  exact noFactBefore first isFirst fact (by simpa [ExecutionRecord.brokerFact?] using member)

theorem submitFirst_fact (before : SubmitFirst life.records) {record : BrokerFact}
    (applied : life.applyFact json record = .ok next) :
    SubmitFirst (life.records ++ [.brokerFact record]) := by
  obtain ⟨afterFirst, -⟩ := applyFact_eq_ok.mp applied
  intro submitted
  rw [submitAttempts_append, ExecutionRecord.submitAttempt?, Option.toList_none,
    List.append_nil] at submitted ⊢
  obtain ⟨early, member, early_le⟩ := before submitted
  obtain ⟨first, isMin⟩ : ∃ first, life.firstSubmitAt = some first := by
    rw [← Option.isSome_iff_exists, firstSubmitAt, List.isSome_min?_iff]
    simpa using submitted
  obtain ⟨inTimes, least⟩ := List.min?_eq_some_iff.mp isMin
  obtain ⟨attempt, isAttempt, rfl⟩ := List.mem_map.mp inTimes
  refine ⟨attempt, isAttempt, ?_⟩
  intro fact isFact
  rw [brokerFacts_append, List.mem_append] at isFact
  rcases isFact with old | new
  · exact (least _ (List.mem_map_of_mem member)).trans (early_le fact old)
  · rw [ExecutionRecord.brokerFact?, Option.toList_some, List.mem_singleton] at new
    rw [new]
    exact afterFirst _ isMin

theorem submitFirst_retain (before : SubmitFirst life.records) {record : ExecutionRecord}
    (retained : life.retain json record = .ok next) :
    SubmitFirst (life.records ++ [record]) := by
  obtain ⟨-, retained⟩ := refuse_bind_eq_ok.mp retained
  cases record with
  | submitAttempt record => exact submitFirst_submit retained
  | brokerFact record => exact submitFirst_fact before retained
  | _ =>
    rw [SubmitFirst, submitAttempts_append, brokerFacts_append, ExecutionRecord.submitAttempt?,
      ExecutionRecord.brokerFact?, Option.toList_none, Option.toList_none, List.append_nil,
      List.append_nil]
    exact before

structure Retains (json : Serialization) (life : ExecutionLifecycle) : Prop where
  projected : life = projectRecords json life.intent life.records
  apart : life.stored.Pairwise Apart
  ours : ∀ record ∈ life.records, record.head.intentId = life.intent.intentId
  submitFirst : SubmitFirst life.records

theorem projectRecords_nil (intent : OrderIntent) : projectRecords json intent [] = start intent := by
  rfl

theorem retains_start (intent : OrderIntent) : Retains json (start intent) where
  projected := (projectRecords_nil intent).symm
  apart := List.pairwise_singleton _ _
  ours := fun _ member => absurd member List.not_mem_nil
  submitFirst := fun submitted => absurd rfl submitted

/-- **A step keeps what is retained and adds the record.** -/
theorem retains_apply (before : Retains json life) {record : ExecutionRecord}
    (applied : life.apply json record = .ok next) :
    Retains json next ∧ next.intent = life.intent ∧
      ∀ other, other ∈ next.records ↔ other ∈ life.records ∨ other = record := by
  obtain ⟨ours, ⟨checked, rfl⟩ | ⟨apart, retained⟩⟩ := apply_eq_ok.mp applied
  · refine ⟨before, rfl, ?_⟩
    have member := execution_mem_stored.mp (mem_of_checkIdentity checked)
    intro other
    constructor
    · exact .inl
    · rintro (same | rfl)
      · exact same
      · exact member
  · rw [retain_ok retained]
    refine ⟨⟨rfl, ?_, ?_, submitFirst_retain before.submitFirst retained⟩, rfl, ?_⟩
    · change (StoredExecutionRecord.orderIntent life.intent ::
        (life.records ++ [record]).map .execution).Pairwise Apart
      rw [List.map_append, ← List.cons_append, List.pairwise_append]
      refine ⟨before.apart, List.pairwise_singleton _ _, ?_⟩
      intro existing member other isRecord
      rw [List.map_singleton, List.mem_singleton] at isRecord
      rw [isRecord]
      exact apart existing member
    · exact List.forall_mem_append.mpr ⟨before.ours, List.forall_mem_singleton.mpr ours⟩
    · intro other
      change other ∈ life.records ++ [record] ↔ _
      rw [List.mem_append, List.mem_singleton]

/-- **A run retains the records it applied.** -/
theorem retains_applyAll (before : Retains json life)
    (applied : life.applyAll json records = .ok next) :
    Retains json next ∧ next.intent = life.intent ∧
      ∀ other, other ∈ next.records ↔ other ∈ life.records ∨ other ∈ records := by
  induction records generalizing life with
  | nil =>
    cases applied
    exact ⟨before, rfl, by simp⟩
  | cons record rest ih =>
    obtain ⟨middle, stepped, ran⟩ := bind_eq_ok.mp applied
    obtain ⟨kept, same, members⟩ := retains_apply before stepped
    obtain ⟨kept', same', members'⟩ := ih kept ran
    refine ⟨kept', same'.trans same, ?_⟩
    intro other
    rw [members', members, List.mem_cons, or_assoc]

/-- The lifecycles of an intent. -/
def Reachable (json : Serialization) (life : ExecutionLifecycle) : Prop :=
  ∃ records, (start life.intent).applyAll json records = .ok life

theorem Reachable.retains (reachable : Reachable json life) : Retains json life := by
  obtain ⟨records, applied⟩ := reachable
  exact (retains_applyAll (retains_start _) applied).1

theorem Retains.nodup (retains : Retains json life) : life.records.Nodup := by
  have apart := (List.pairwise_cons.mp retains.apart).2
  rw [List.pairwise_map] at apart
  refine apart.imp ?_
  rintro first second different rfl
  exact different.irrefl

/-- **A retained record changes nothing.** -/
theorem Retains.apply_of_mem (retains : Retains json life) {record : ExecutionRecord}
    (member : record ∈ life.records) : life.apply json record = .ok life :=
  apply_eq_ok.mpr ⟨retains.ours record member, .inl
    ⟨checkIdentity_of_mem retains.apart (execution_mem_stored.mpr member), rfl⟩⟩

/-! ## Journals -/

/-- What is retained, cut after any record, can be applied again from the start. -/
def Replays (json : Serialization) (life : ExecutionLifecycle) : Prop :=
  ∀ kept, kept <+: life.records →
    (start life.intent).applyAll json kept = .ok (projectRecords json life.intent kept)

theorem replays_apply (before : Retains json life) (replays : Replays json life)
    {record : ExecutionRecord} (applied : life.apply json record = .ok next) :
    Replays json next := by
  obtain ⟨-, ⟨-, rfl⟩ | ⟨-, retained⟩⟩ := apply_eq_ok.mp applied
  · exact replays
  · cases retain_ok retained
    intro kept starts
    rcases List.prefix_concat_iff.mp starts with rfl | earlier
    · have again := replays life.records (List.prefix_refl _)
      rw [← before.projected] at again
      rw [applyAll, List.foldlM_append]
      exact bind_eq_ok.mpr ⟨life, again, bind_eq_ok.mpr ⟨_, applied, rfl⟩⟩
    · exact replays kept earlier

theorem Reachable.replays (reachable : Reachable json life) : Replays json life := by
  obtain ⟨records, applied⟩ := reachable
  refine (foldlM_keeps (fun life => Retains json life ∧ Replays json life) ?_
    ⟨retains_start _, ?_⟩ applied).2
  · rintro record - life next ⟨before, replays⟩ stepped
    exact ⟨(retains_apply before stepped).1, replays_apply before replays stepped⟩
  · intro kept starts
    rw [List.prefix_nil.mp starts]
    rfl

end ExecutionLifecycle

end TreeOptions.Execution
