import TreeOptions.Acceptance.Verdict

/-!
# Evidence that is left out

Two sets of records, one within the other, give two documents of one calendar. The final run of the
smaller one ends the final run of the larger one, and its lifecycles count there too. Of a drill the
last record counts, so that leaving one out helps only where an earlier record of the drill takes
its place.
-/

set_option autoImplicit false

namespace TreeOptions.Acceptance

open Checked

section Omission

variable {etDate : ℤ → ℤ} {contentSha256 : SessionCalendar etDate → String}

/-! ## Documents that are computed -/

variable {owners : List String} {calendar : SessionCalendar etDate}

theorem of_computeAcceptance {evidence : Evidence} {computedAt : ℤ}
    {document : AcceptanceDocument etDate}
    (computed : computeAcceptance contentSha256 evidence owners calendar computedAt =
      .ok document) :
    document.toDocumentFields =
      evidence.fields owners (contentSha256 calendar) calendar computedAt := by
  rw [computeAcceptance] at computed
  split at computed
  case isTrue =>
    cases computed
    rfl
  case isFalse => cases computed

theorem verify_computed {evidence : Evidence} {computedAt : ℤ}
    {document : AcceptanceDocument etDate}
    (computed : computeAcceptance contentSha256 evidence owners calendar computedAt =
      .ok document) : verifyAcceptance contentSha256 document calendar = .ok ⟨⟩ := by
  have fields := of_computeAcceptance computed
  have valid := validated_of_validate document.valid
  rw [verifyAcceptance, refuse_bind_eq_ok, refuse_eq_ok, not_not, not_not]
  rw [fields] at valid ⊢
  refine ⟨rfl, ?_⟩
  have head : ((sortedBy (fun record => record.session) evidence.sessions).head?.map
        fun record => record.session) =
      (evidence.fields owners (contentSha256 calendar) calendar
        computedAt).calendarWindow.head?.map fun entry => entry.session := by
    by_cases nothing : sortedBy (fun record => record.session) evidence.sessions = []
    · have empty := valid.emptyTogether.mp nothing
      rw [nothing, empty]
      rfl
    · have opens := valid.emptyTogether.not.mp nothing
      have together := valid.startsTogether nothing opens
      rw [List.head?_map, List.head?_map] at together
      exact together
  rw [← head]
  rfl

/-! ## Less evidence -/

theorem sorted_closed (calendar : SessionCalendar etDate) (computedAt : ℤ) :
    (closedSessions calendar computedAt).Pairwise fun first second =>
      first.session < second.session :=
  calendar.increasing.sublist (List.takeWhile_sublist _)

theorem CountsIn.mono {closed shorter run : List (CalendarSession etDate)} {kind : AssetKind}
    {life : LifecycleRecord}
    (sorted : closed.Pairwise fun first second => first.session < second.session)
    (within : shorter <:+ run) (inClosed : run <:+ closed) (counts : CountsIn shorter kind life) :
    CountsIn run kind life := by
  obtain ⟨isKind, complete, first, last, reconciled, isFirst, isLast, isReconciled, approved,
    before⟩ := counts
  obtain ⟨more, rfl⟩ := within
  have nonempty : shorter ≠ [] := by
    rintro rfl
    cases isFirst
  have sortedRun := sorted.sublist inClosed.sublist
  refine ⟨isKind, complete, ?_⟩
  cases more with
  | nil => exact ⟨first, last, reconciled, isFirst, isLast, isReconciled, approved, before⟩
  | cons earlier rest =>
    have earliest := (List.pairwise_cons.mp sortedRun).1 first
      (List.mem_append_right _ (List.mem_of_mem_head? isFirst))
    refine ⟨earlier, last, reconciled, rfl, ?_, isReconciled, earliest.le.trans approved, before⟩
    rw [List.getLast?_append_of_ne_nil _ nonempty]
    exact isLast

theorem acceptanceMet_mono {computedAt : ℤ} {good better : CalendarSession etDate → Prop}
    {fewerLives lives : List LifecycleRecord} {drills drills' : List DrillRecord}
    (implies : ∀ session, good session → better session) (keptLives : fewerLives.Subperm lives)
    (keptDrills : ∀ drill ∈ drills, PassedBy owners drill → drill ∈ drills')
    (met : AcceptanceMet good (closedSessions calendar computedAt) fewerLives drills owners) :
    AcceptanceMet better (closedSessions calendar computedAt) lives drills' owners := by
  obtain ⟨shorter, final, long, counts, passed⟩ := met
  obtain ⟨run, final'⟩ := exists_finalRun better (closedSessions calendar computedAt)
  have within : shorter <:+ run := final.mono final' fun session _ isGood => implies session isGood
  refine ⟨run, final', long.trans within.length_le, ?_, ?_⟩
  · intro kind
    obtain ⟨chosen, among, enough, allCount⟩ := counts kind
    refine ⟨chosen, among.trans keptLives, enough, ?_⟩
    intro life member
    exact (allCount life member).mono (sorted_closed calendar computedAt) within final'.isSuffix
  · intro id isDrill
    obtain ⟨drill, member, same, isPassed⟩ := passed id isDrill
    exact ⟨drill, keptDrills drill member isPassed, same, isPassed⟩

theorem drillRow_mem {fewer drills : List DrillRecord}
    (lastKept : ∀ id record, lastDrill fewer id = some record → lastDrill drills id = some record) :
    ∀ drill ∈ drillIds.map (drillRow fewer), PassedBy owners drill →
      drill ∈ drillIds.map (drillRow drills) := by
  intro drill member passed
  obtain ⟨id, isDrill, rfl⟩ := List.mem_map.mp member
  refine List.mem_map.mpr ⟨id, isDrill, ?_⟩
  rw [drillRow] at passed
  rw [drillRow, drillRow]
  cases found : lastDrill fewer id with
  | none =>
    rw [found] at passed
    cases passed.1
  | some record => rw [lastKept id record found]

/-- **Leaving out evidence does not improve a verdict, where of each drill the last record that is
left is the last one, and a verdict that was verified is met just when the final run, the
lifecycles in it and the drills are enough.** -/
theorem acceptance_verdict (etDate : ℤ → ℤ) (contentSha256 : SessionCalendar etDate → String)
    (calendar : SessionCalendar etDate) :
    (∀ (owners : List String) (computedAt : ℤ) (evidence fewer : Evidence)
      (document document' : AcceptanceDocument etDate),
      fewer.sessions.Subperm evidence.sessions → fewer.lifecycles.Subperm evidence.lifecycles →
      fewer.drills.Subperm evidence.drills →
      (∀ id record, lastDrill fewer.drills id = some record →
        lastDrill evidence.drills id = some record) →
      computeAcceptance contentSha256 evidence owners calendar computedAt = .ok document →
      computeAcceptance contentSha256 fewer owners calendar computedAt = .ok document' →
      document'.derived.verdict = .met → document.derived.verdict = .met) ∧
    ∀ document : AcceptanceDocument etDate,
      verifyAcceptance contentSha256 document calendar = .ok ⟨⟩ →
        (document.derived.verdict = .met ↔
          AcceptanceMet (RecordedGood document.sessions)
            (closedSessions calendar document.computedAt) document.lifecycles document.drills
              document.owners) := by
  refine ⟨?_, fun document verified => met_iff verified⟩
  intro owners computedAt evidence fewer document document' sessions lifecycles _ lastKept computed
    computed' met
  have met' := (met_iff (verify_computed computed')).mp met
  apply (met_iff (verify_computed computed)).mpr
  rw [of_computeAcceptance computed]
  rw [of_computeAcceptance computed'] at met'
  refine acceptanceMet_mono ?_ ?_ (drillRow_mem lastKept) met'
  · rintro session ⟨record, member, same, qualifies⟩
    exact ⟨record, mem_sortedBy.mpr (sessions.subset (mem_sortedBy.mp member)), same, qualifies⟩
  · exact ((sortedBy_perm _ _).subperm.trans lifecycles).trans (sortedBy_perm _ _).symm.subperm

end Omission

/-! ## Ten sessions, and a drill that failed in the end -/

def dayMicroseconds : ℤ := 86400 * 1000000

def utcDate (instant : ℤ) : ℤ :=
  instant / dayMicroseconds

/-- The open of a session, at half past nine. -/
def openOf (day : ℕ) : ℤ :=
  day * dayMicroseconds + 34200 * 1000000

theorem sample_span (day : ℕ) :
    0 < seconds (openOf day + 23400 * 1000000) (openOf day) ∧
      seconds (openOf day + 23400 * 1000000) (openOf day) % 60 = 0 := by
  have difference : openOf day + 23400 * 1000000 - openOf day = 23400 * 1000000 :=
    add_sub_cancel_left _ _
  rw [seconds, difference]
  decide

theorem sample_opensOn (day : ℕ) : utcDate (openOf day) = day := by
  rw [utcDate, openOf, dayMicroseconds]
  omega

/-- A session of 390 minutes. -/
def sampleSession (day : ℕ) : CalendarSession utcDate :=
  ⟨day, openOf day, openOf day + 23400 * 1000000, sample_span day, sample_opensOn day⟩

theorem sampleSessions_increasing :
    ((List.range 10).map sampleSession).Pairwise fun first second =>
      first.session < second.session := by
  refine List.pairwise_map.mpr (List.pairwise_lt_range.imp ?_)
  intro first second earlier
  exact Int.ofNat_lt.mpr earlier

theorem sampleSessions_closes :
    ((List.range 10).map sampleSession).Pairwise fun first second =>
      first.closesAt < second.closesAt := by
  refine List.pairwise_map.mpr (List.pairwise_lt_range.imp ?_)
  intro first second earlier
  simp only [sampleSession, openOf, dayMicroseconds]
  omega

def tenSessions : SessionCalendar utcDate :=
  ⟨(List.range 10).map sampleSession, sampleSessions_increasing, sampleSessions_closes⟩

def cleanMetrics (minutes : ℕ) : SessionMetrics :=
  ⟨some minutes, some .clean, some .clean, some [], some 0, some 0⟩

theorem clean_named (minutes : ℕ) (metric : SessionMetric) :
    metric ∈ ([] : List (SessionMetric × String)).map Prod.fst ↔
      (cleanMetrics minutes).isKnown metric = false := by
  cases metric <;> simp [cleanMetrics, SessionMetrics.isKnown]

def cleanRecord (minutes day : ℕ) : SessionRecord :=
  ⟨cleanMetrics minutes, day, [], clean_named minutes⟩

def sampleLife (kind : AssetKind) (name : Char) (index : ℕ) : LifecycleFields :=
  ⟨String.ofList (name :: List.replicate index name), kind, "proposal", "key", openOf 0, 1,
    some (openOf 0), .policy, some (openOf 0), some (openOf 0), some (openOf 0), some true, none⟩

theorem sampleLife_shaped (kind : AssetKind) (name : Char) (index : ℕ) :
    (sampleLife kind name index).Shaped := by
  constructor <;> simp [sampleLife]

def completeLife (kind : AssetKind) (name : Char) (index : ℕ) : LifecycleRecord :=
  ⟨sampleLife kind name index, sampleLife_shaped kind name index⟩

def tenLives : List LifecycleRecord :=
  (List.range 10).map (completeLife .option 'o') ++ (List.range 10).map (completeLife .equity 'e')

theorem ran_shaped (id : DrillId) (status : DrillStatus) (ran : status ≠ .notRun) :
    DrillFields.Shaped ⟨id, status, [("check.json", "hash")], some "owner@desk.example", some 0,
      ""⟩ := by
  constructor <;> simp [ran]

theorem passed_ran : DrillStatus.passed ≠ .notRun := by decide

theorem failed_ran : DrillStatus.failed ≠ .notRun := by decide

def passedDrill (id : DrillId) : DrillRecord :=
  ⟨⟨id, .passed, [("check.json", "hash")], some "owner@desk.example", some 0, ""⟩,
    ran_shaped id .passed passed_ran⟩

def failedDrill (id : DrillId) : DrillRecord :=
  ⟨⟨id, .failed, [("check.json", "hash")], some "owner@desk.example", some 0, ""⟩,
    ran_shaped id .failed failed_ran⟩

/-- Ten sessions, ten lifecycles of each kind, and every drill passed. -/
def sampleEvidence (minutes : ℕ) (more : List DrillRecord) : Evidence :=
  ⟨(List.range 10).map (cleanRecord minutes), tenLives, drillIds.map passedDrill ++ more⟩

def sampleFields (minutes : ℕ) (more : List DrillRecord) : DocumentFields utcDate :=
  (sampleEvidence minutes more).fields ["owner@desk.example"] "sha" tenSessions
    (10 * dayMicroseconds)

/-- The three samples are valid documents, and the first alone meets the acceptance. -/
theorem sample_verdicts :
    (validate (sampleFields 390 []) = .ok ⟨⟩ ∧
      (sampleFields 390 []).derived.verdict = .met) ∧
      (validate (sampleFields 390 [failedDrill .relogin]) = .ok ⟨⟩ ∧
        (sampleFields 390 [failedDrill .relogin]).derived.verdict = .notMet) ∧
      validate (sampleFields 391 []) = .ok ⟨⟩ ∧
        (sampleFields 391 []).derived.verdict = .notMet := by
  decide +kernel

theorem all_passed_valid : validate (sampleFields 390 []) = .ok ⟨⟩ :=
  sample_verdicts.1.1

theorem one_failed_valid : validate (sampleFields 390 [failedDrill .relogin]) = .ok ⟨⟩ :=
  sample_verdicts.2.1.1

theorem long_heartbeat_valid : validate (sampleFields 391 []) = .ok ⟨⟩ :=
  sample_verdicts.2.2.1

theorem all_passed_met : (sampleFields 390 []).derived.verdict = .met :=
  sample_verdicts.1.2

theorem one_failed_not_met :
    (sampleFields 390 [failedDrill .relogin]).derived.verdict = .notMet :=
  sample_verdicts.2.1.2

theorem long_heartbeat_not_met : (sampleFields 391 []).derived.verdict = .notMet :=
  sample_verdicts.2.2.2

theorem computeAcceptance_of_valid {sha256 : SessionCalendar utcDate → String}
    {owners : List String} {calendar : SessionCalendar utcDate} {computedAt : ℤ}
    (evidence : Evidence)
    (valid : validate (evidence.fields owners (sha256 calendar) calendar computedAt) = .ok ⟨⟩) :
    computeAcceptance sha256 evidence owners calendar computedAt =
      .ok ⟨evidence.fields owners (sha256 calendar) calendar computedAt, valid⟩ := by
  rw [computeAcceptance, dif_pos valid]

theorem sample_computed {minutes : ℕ} {more : List DrillRecord}
    (valid : validate (sampleFields minutes more) = .ok ⟨⟩) :
    computeAcceptance (fun _ => "sha") (sampleEvidence minutes more) ["owner@desk.example"]
      tenSessions (10 * dayMicroseconds) = .ok ⟨sampleFields minutes more, valid⟩ :=
  computeAcceptance_of_valid (sampleEvidence minutes more) valid

/-- A session that is good but for its heartbeat, which is of 99% and more. -/
structure RoughlyQualifies {etDate : ℤ → ℤ} (metrics : SessionMetrics)
    (calendar : CalendarSession etDate) : Prop where
  heartbeat : ∃ minutes, metrics.heartbeatMinutes = some minutes ∧
    99 * calendar.regularMinutes ≤ 100 * (minutes : ℤ)
  cleanClose : metrics.reconciliationClose = some .clean
  resolved : ∃ episodes, metrics.reconciliationEpisodes = some episodes ∧
    ∀ episode ∈ episodes, ∃ resolved, episode.resolvedAt = some resolved ∧
      resolved ≤ calendar.closesAt
  owned : metrics.unownedOrders = some 0
  guarded : ∃ longest, metrics.maxExitUnguardedS = some longest ∧ longest ≤ maxExitUnguardedS

def RoughlyGood {etDate : ℤ → ℤ} (sessions : List SessionRecord)
    (calendar : CalendarSession etDate) : Prop :=
  ∃ record ∈ sessions, record.session = calendar.session ∧
    RoughlyQualifies record.toSessionMetrics calendar

/-- A session of which one more minute was seen is still good in the rough sense. -/
theorem roughlyGood_of_recordedGood {calendar : CalendarSession utcDate}
    (good : RecordedGood (sampleFields 390 []).sessions calendar) :
    RoughlyGood (sampleFields 391 []).sessions calendar := by
  obtain ⟨record, member, same, qualifies⟩ := good
  obtain ⟨day, inRange, rfl⟩ := List.mem_map.mp (mem_sortedBy.mp member)
  refine ⟨cleanRecord 391 day, mem_sortedBy.mpr (List.mem_map_of_mem inRange), same, ?_⟩
  obtain ⟨minutes, isMinutes, enough, -⟩ := qualifies.heartbeat
  cases isMinutes
  obtain ⟨episodes, isEpisodes, resolved, -⟩ := qualifies.resolved
  refine ⟨⟨391, rfl, by omega⟩, qualifies.cleanClose, ⟨episodes, isEpisodes, resolved⟩,
    qualifies.owned, qualifies.guarded⟩

theorem acceptance_verdict_sample :
    (sampleFields 390 []).derived.verdict = .met ↔
      AcceptanceMet (RecordedGood (sampleFields 390 []).sessions)
        (closedSessions tenSessions (10 * dayMicroseconds)) (sampleFields 390 []).lifecycles
          (sampleFields 390 []).drills ["owner@desk.example"] :=
  (acceptance_verdict utcDate (fun _ => "sha") tenSessions).2 ⟨sampleFields 390 [], all_passed_valid⟩
    (verify_computed (sample_computed all_passed_valid))

/-- A drill that failed in the end and is left out improves the verdict, and a heartbeat of more
minutes than the session has does not count. -/
theorem omitted_failure_meets :
    (¬ ∀ (owners : List String) (computedAt : ℤ) (evidence fewer : Evidence)
      (document document' : AcceptanceDocument utcDate),
      fewer.sessions.Subperm evidence.sessions → fewer.lifecycles.Subperm evidence.lifecycles →
      fewer.drills.Subperm evidence.drills →
      computeAcceptance (fun _ => "sha") evidence owners tenSessions computedAt = .ok document →
      computeAcceptance (fun _ => "sha") fewer owners tenSessions computedAt = .ok document' →
      document'.derived.verdict = .met → document.derived.verdict = .met) ∧
    ¬ ∀ document : AcceptanceDocument utcDate,
      verifyAcceptance (fun _ => "sha") document tenSessions = .ok ⟨⟩ →
        (document.derived.verdict = .met ↔
          AcceptanceMet (RoughlyGood document.sessions)
            (closedSessions tenSessions document.computedAt) document.lifecycles document.drills
              document.owners) := by
  constructor
  · intro monotone
    have met := monotone ["owner@desk.example"] (10 * dayMicroseconds)
      (sampleEvidence 390 [failedDrill .relogin]) (sampleEvidence 390 []) _ _
      (List.Subperm.refl _) (List.Subperm.refl _) ?_ (sample_computed one_failed_valid)
      (sample_computed all_passed_valid) all_passed_met
    · rw [one_failed_not_met] at met
      cases met
    · rw [sampleEvidence, sampleEvidence, List.append_nil]
      exact (List.sublist_append_left _ _).subperm
  · intro exact_
    have met := (met_iff (verify_computed (sample_computed all_passed_valid))).mp all_passed_met
    have roughly := (exact_ ⟨sampleFields 391 [], long_heartbeat_valid⟩
      (verify_computed (sample_computed long_heartbeat_valid))).mpr
      (acceptanceMet_mono (fun session good => roughlyGood_of_recordedGood good)
        (List.Subperm.refl _) (fun drill member _ => member) met)
    rw [long_heartbeat_not_met] at roughly
    cases roughly

end TreeOptions.Acceptance
