import TreeOptions.Acceptance.Document
import TreeOptions.Foundations.FinalRun

/-!
# When the acceptance is met

The verdict of a document that was verified is met just when the run of qualifying sessions that
ends at the last closed session of the calendar has at least ten sessions, at least ten complete
lifecycles of each asset kind lie inside it, and every drill was passed and attested by an owner
(`met_iff`). Evidence that is left out can then only shorten the run and the counts.
-/

set_option autoImplicit false

namespace TreeOptions.Acceptance

open Checked

/-! ## What the records say -/

section Records

variable {etDate : ℤ → ℤ}

/-- A session qualifies: the heartbeat covers 99% of its minutes and no more than all of them,
reconciliation was clean at the close and every stretch in which it was not was resolved by then,
one at the open among them, and no order was unowned and no exit unguarded for too long. -/
structure Qualifies (metrics : SessionMetrics) (calendar : CalendarSession etDate) : Prop where
  heartbeat : ∃ minutes, metrics.heartbeatMinutes = some minutes ∧
    99 * calendar.regularMinutes ≤ 100 * (minutes : ℤ) ∧ (minutes : ℤ) ≤ calendar.regularMinutes
  cleanClose : metrics.reconciliationClose = some .clean
  resolved : ∃ episodes, metrics.reconciliationEpisodes = some episodes ∧
    (∀ episode ∈ episodes, ∃ resolved, episode.resolvedAt = some resolved ∧
      resolved ≤ calendar.closesAt) ∧
    ∃ opening, metrics.reconciliationOpen = some opening ∧
      (opening = .clean ∨
        ∃ episode ∈ episodes, episode.startedAt ≤ calendar.opensAt + openCheckWindow)
  owned : metrics.unownedOrders = some 0
  guarded : ∃ longest, metrics.maxExitUnguardedS = some longest ∧ longest ≤ maxExitUnguardedS

structure Complete (life : LifecycleFields) : Prop where
  filled : 1 ≤ life.filledQuantity
  exited : life.exitBy = .policy ∨ life.exitBy = .flatten
  flat : life.brokerFlatAt.isSome
  reconciled : life.reconciledAt.isSome
  commissions : life.commissionsComplete = some true

variable {metrics : SessionMetrics} {calendar : CalendarSession etDate}

theorem heartbeatReasons_eq_nil :
    heartbeatReasons metrics calendar = [] ↔
      ∃ minutes, metrics.heartbeatMinutes = some minutes ∧
        99 * calendar.regularMinutes ≤ 100 * (minutes : ℤ) ∧
          (minutes : ℤ) ≤ calendar.regularMinutes := by
  rw [heartbeatReasons]
  cases metrics.heartbeatMinutes with
  | none => simp
  | some minutes =>
    simp only [Option.some.injEq, exists_eq_left', heartbeatMinPercent]
    by_cases above : calendar.regularMinutes < minutes
    · simp [above]
    · by_cases below : 100 * (minutes : ℤ) < 99 * calendar.regularMinutes
      · simp [above, below]
      · simp [above, below, not_lt.mp above, not_lt.mp below]

theorem not_unresolved {episode : ReconciliationEpisode} :
    unresolved calendar episode = false ↔
      ∃ resolved, episode.resolvedAt = some resolved ∧ resolved ≤ calendar.closesAt := by
  rw [unresolved]
  cases episode.resolvedAt with
  | none => simp
  | some resolved => simp

theorem reconciliationReasons_eq_nil :
    reconciliationReasons metrics calendar = [] ↔
      metrics.reconciliationClose = some .clean ∧
        ∃ episodes, metrics.reconciliationEpisodes = some episodes ∧
          (∀ episode ∈ episodes, ∃ resolved, episode.resolvedAt = some resolved ∧
            resolved ≤ calendar.closesAt) ∧
          ∃ opening, metrics.reconciliationOpen = some opening ∧
            (opening = .clean ∨
              ∃ episode ∈ episodes, episode.startedAt ≤ calendar.opensAt + openCheckWindow) := by
  rw [reconciliationReasons]
  cases metrics.reconciliationOpen with
  | none => simp
  | some opening =>
    cases metrics.reconciliationClose with
    | none => simp
    | some close =>
      cases metrics.reconciliationEpisodes with
      | none => simp
      | some episodes =>
        have resolved : (if episodes.any (unresolved calendar) then
              [SessionReason.reconciliationUnresolvedInSession] else []) = [] ↔
            ∀ episode ∈ episodes, ∃ resolved, episode.resolvedAt = some resolved ∧
              resolved ≤ calendar.closesAt := by
          rw [ite_eq_right_iff]
          simp [not_unresolved]
        rw [List.append_eq_nil_iff, List.append_eq_nil_iff, resolved]
        simp [and_assoc, or_iff_not_imp_left]

theorem unownedReasons_eq_nil : unownedReasons metrics = [] ↔ metrics.unownedOrders = some 0 := by
  rw [unownedReasons]
  cases metrics.unownedOrders with
  | none => simp
  | some orders =>
    cases orders with
    | zero => simp
    | succ orders => simp

theorem exitGuardReasons_eq_nil :
    exitGuardReasons metrics = [] ↔
      ∃ longest, metrics.maxExitUnguardedS = some longest ∧ longest ≤ maxExitUnguardedS := by
  rw [exitGuardReasons]
  cases metrics.maxExitUnguardedS with
  | none => simp
  | some longest =>
    by_cases above : maxExitUnguardedS < longest
    · simp [above]
    · simp [above, not_lt.mp above]

/-- **There is no reason against a session just when it qualifies.** -/
theorem sessionReasons_eq_nil :
    sessionReasons metrics calendar = [] ↔ Qualifies metrics calendar := by
  rw [sessionReasons, sortedBy_eq_nil, List.append_eq_nil_iff, List.append_eq_nil_iff,
    List.append_eq_nil_iff, heartbeatReasons_eq_nil, reconciliationReasons_eq_nil,
    unownedReasons_eq_nil, exitGuardReasons_eq_nil]
  constructor
  · rintro ⟨⟨⟨heartbeat, cleanClose, resolved⟩, owned⟩, guarded⟩
    exact ⟨heartbeat, cleanClose, resolved, owned, guarded⟩
  · rintro ⟨heartbeat, cleanClose, resolved, owned, guarded⟩
    exact ⟨⟨⟨heartbeat, cleanClose, resolved⟩, owned⟩, guarded⟩

theorem exitReasons_eq_nil {exitBy : ExitBy} :
    exitReasons exitBy = [] ↔ exitBy = .policy ∨ exitBy = .flatten := by
  cases exitBy <;> simp [exitReasons]

theorem commissionsReasons_eq_nil {complete : Option Bool} :
    commissionsReasons complete = [] ↔ complete = some true := by
  rcases complete with - | (- | -) <;> simp [commissionsReasons]

/-- **There is no reason against a lifecycle just when it is complete.** -/
theorem lifecycleReasons_eq_nil {life : LifecycleFields} :
    lifecycleReasons life = [] ↔ Complete life := by
  rw [lifecycleReasons, sortedBy_eq_nil]
  simp only [List.append_eq_nil_iff, ite_eq_right_iff, List.cons_ne_nil, imp_false, not_lt,
    exitReasons_eq_nil, commissionsReasons_eq_nil, ← ne_eq, Option.ne_none_iff_isSome]
  constructor
  · rintro ⟨⟨⟨⟨filled, exited⟩, flat⟩, reconciled⟩, commissions⟩
    exact ⟨filled, exited, flat, reconciled, commissions⟩
  · rintro ⟨filled, exited, flat, reconciled, commissions⟩
    exact ⟨⟨⟨⟨filled, exited⟩, flat⟩, reconciled⟩, commissions⟩

theorem drillReasons_eq_nil {drill : DrillFields} {owners : List String} :
    drillReasons drill owners = [] ↔
      drill.status = .passed ∧ ∃ owner ∈ owners, drill.attestedBy = some owner := by
  rw [drillReasons]
  have attested : (drill.attestedBy.any fun attester => decide (attester ∈ owners)) = true ↔
      ∃ owner ∈ owners, drill.attestedBy = some owner := by
    cases drill.attestedBy with
    | none => simp
    | some attester => simp
  cases status : drill.status with
  | notRun => simp
  | failed => simp
  | passed => simp [attested]

end Records

/-! ## The specification -/

/-- At least so many items of a list have a property. -/
def AtLeast {Item : Type} (count : ℕ) (holds : Item → Prop) (items : List Item) : Prop :=
  ∃ chosen : List Item, chosen.Subperm items ∧ count ≤ chosen.length ∧ ∀ item ∈ chosen, holds item

section Specification

variable {etDate : ℤ → ℤ}

/-- The session was recorded, and qualifies. -/
def RecordedGood (sessions : List SessionRecord) (calendar : CalendarSession etDate) : Prop :=
  ∃ record ∈ sessions, record.session = calendar.session ∧
    Qualifies record.toSessionMetrics calendar

/-- The lifecycle is of the kind and complete, and was approved and reconciled inside the run. -/
def CountsIn (run : List (CalendarSession etDate)) (kind : AssetKind) (life : LifecycleRecord) :
    Prop :=
  life.assetKind = kind ∧ Complete life.toLifecycleFields ∧
    ∃ first last reconciled, run.head? = some first ∧ run.getLast? = some last ∧
      life.reconciledAt = some reconciled ∧ first.session ≤ etDate life.approvedAt ∧
        etDate reconciled ≤ last.session

def closedSessions (calendar : SessionCalendar etDate) (computedAt : ℤ) :
    List (CalendarSession etDate) :=
  calendar.sessions.takeWhile fun session => session.closesAt ≤ computedAt

def PassedBy (owners : List String) (drill : DrillRecord) : Prop :=
  drill.status = .passed ∧ ∃ owner ∈ owners, drill.attestedBy = some owner

def AcceptanceMet (good : CalendarSession etDate → Prop) (closed : List (CalendarSession etDate))
    (lifecycles : List LifecycleRecord) (drills : List DrillRecord) (owners : List String) : Prop :=
  ∃ run, FinalRun good closed run ∧ requiredStreakSessions ≤ run.length ∧
    (∀ kind, AtLeast requiredLifecyclesPerKind (CountsIn run kind) lifecycles) ∧
      ∀ id ∈ drillIds, ∃ drill ∈ drills, drill.id = id ∧ PassedBy owners drill

end Specification

/-! ## The derivation -/

section Derivation

variable {etDate : ℤ → ℤ}

theorem le_countP_iff {Item : Type} {count : ℕ} {holds : Item → Bool} {items : List Item} :
    count ≤ items.countP holds ↔ AtLeast count (fun item => holds item = true) items := by
  constructor
  · intro enough
    refine ⟨items.filter holds, List.filter_sublist.subperm, ?_, ?_⟩
    · rwa [← List.countP_eq_length_filter]
    · intro item member
      exact (List.mem_filter.mp member).2
  · rintro ⟨chosen, within, enough, allHold⟩
    have all := List.countP_eq_length.mpr allHold
    exact (enough.trans all.ge).trans (within.countP_le holds)

variable {sessions : List SessionRecord}

theorem recordOf_eq_some {session : ℤ} {record : SessionRecord}
    (unique : (sessions.map fun record => record.session).Nodup) :
    recordOf sessions session = some record ↔ record ∈ sessions ∧ record.session = session := by
  rw [recordOf]
  constructor
  · intro found
    have same := List.find?_some found
    exact ⟨List.mem_reverse.mp (List.mem_of_find?_eq_some found), of_decide_eq_true same⟩
  · rintro ⟨member, rfl⟩
    cases found : sessions.reverse.find? fun other => decide (other.session = record.session) with
    | none =>
      have other := List.find?_eq_none.mp found record (List.mem_reverse.mpr member)
      exact absurd (decide_eq_true rfl) other
    | some other =>
      have inside := List.mem_reverse.mp (List.mem_of_find?_eq_some found)
      have same := List.find?_some found
      rw [List.inj_on_of_nodup_map unique inside member (of_decide_eq_true same)]

theorem qualifying_iff (unique : (sessions.map fun record => record.session).Nodup)
    (calendar : CalendarSession etDate) :
    (sessionResult sessions calendar).qualifying = true ↔ RecordedGood sessions calendar := by
  rw [sessionResult, List.isEmpty_iff, reasonsOf]
  cases found : recordOf sessions calendar.session with
  | none =>
    simp only [Option.elim_none, List.cons_ne_nil, false_iff]
    rintro ⟨record, member, same, -⟩
    rw [(recordOf_eq_some unique).mpr ⟨member, same⟩] at found
    cases found
  | some record =>
    obtain ⟨member, same⟩ := (recordOf_eq_some unique).mp found
    rw [Option.elim_some, sessionReasons_eq_nil]
    constructor
    · intro qualifies
      exact ⟨record, member, same, qualifies⟩
    · rintro ⟨other, member', same', qualifies⟩
      have sameRecord := found.symm.trans ((recordOf_eq_some unique).mpr ⟨member', same'⟩)
      cases sameRecord
      exact qualifies

theorem foldl_extendStreak (results : List SessionResult) (runs : ℕ × ℕ) :
    (results.foldl extendStreak runs).1 =
      results.foldl (fun run result => if result.qualifying then run + 1 else 0) runs.1 := by
  induction results generalizing runs with
  | nil => rfl
  | cons result rest ih => exact ih _

variable {run : List (CalendarSession etDate)} {window : List (CalendarSession etDate)}

/-- **The streak is the final run of the window.** -/
theorem streakOf_run (unique : (sessions.map fun record => record.session).Nodup)
    (final : FinalRun (RecordedGood sessions) window run) :
    let streak := streakOf (window.map (sessionResult sessions))
    streak.currentSessions = run.length ∧
      streak.currentStart = run.head?.map CalendarSession.session ∧
      streak.currentEnd = run.getLast?.map CalendarSession.session := by
  have current : (streakOf (window.map (sessionResult sessions))).currentSessions =
      run.length := by
    rw [streakOf]
    dsimp only
    rw [foldl_extendStreak, List.foldl_map]
    refine final.counted ?_ ?_
    · intro count calendar good
      rw [if_pos ((qualifying_iff unique calendar).mpr good)]
    · intro count calendar bad
      rw [if_neg ((qualifying_iff unique calendar).not.mpr bad)]
  refine ⟨current, ?_, ?_⟩
  · rw [streakOf] at current ⊢
    dsimp only at current ⊢
    rw [current]
    obtain ⟨before, rfl⟩ := final.isSuffix
    cases run with
    | nil => rfl
    | cons first rest =>
      rw [if_pos (List.length_pos_of_ne_nil (List.cons_ne_nil _ _)), List.length_map,
        List.length_append, Nat.add_sub_cancel,
        List.map_append, List.getElem?_append_right (by rw [List.length_map]),
        List.length_map, Nat.sub_self]
      rfl
  · rw [streakOf] at current ⊢
    dsimp only at current ⊢
    rw [current]
    obtain ⟨before, rfl⟩ := final.isSuffix
    cases run with
    | nil => rfl
    | cons first rest =>
      rw [if_pos (List.length_pos_of_ne_nil (List.cons_ne_nil _ _)), List.getLast?_map, List.getLast?_append_of_ne_nil _
        (List.cons_ne_nil _ _), Option.map_map]
      rfl

variable {streak : StreakSummary}

theorem counted_iff (start : streak.currentStart = run.head?.map CalendarSession.session)
    (last : streak.currentEnd = run.getLast?.map CalendarSession.session) (life : LifecycleRecord)
    (kind : AssetKind) :
    (life.assetKind = kind ∧ (lifecycleResult etDate streak life).counted = true) ↔
      CountsIn run kind life := by
  rw [lifecycleResult, CountsIn]
  dsimp only
  rw [Bool.and_eq_true, List.isEmpty_iff, lifecycleReasons_eq_nil, insideStreak, start, last]
  cases run.head? with
  | none => simp
  | some first =>
    cases run.getLast? with
    | none => simp
    | some final =>
      cases life.reconciledAt with
      | none => simp
      | some reconciled => simp

theorem counters_counted (start : streak.currentStart = run.head?.map CalendarSession.session)
    (last : streak.currentEnd = run.getLast?.map CalendarSession.session)
    (lifecycles : List LifecycleRecord) (kind : AssetKind) (count : ℕ) :
    count ≤ (countersOf (lifecycles.map (lifecycleResult etDate streak)) kind).counted ↔
      AtLeast count (CountsIn run kind) lifecycles := by
  have counted : (countersOf (lifecycles.map (lifecycleResult etDate streak)) kind).counted =
      lifecycles.countP fun life =>
        decide (life.assetKind = kind) && (lifecycleResult etDate streak life).counted := by
    rw [countersOf]
    dsimp only
    rw [List.countP_filter, List.countP_map]
    apply List.countP_congr
    intro life _
    rw [Function.comp, Bool.and_comm]
    rfl
  have same : (fun life : LifecycleRecord => (decide (life.assetKind = kind) &&
      (lifecycleResult etDate streak life).counted) = true) = CountsIn run kind := by
    funext life
    rw [Bool.and_eq_true, decide_eq_true_eq]
    exact propext (counted_iff start last life kind)
  rw [counted, le_countP_iff, same]

/-- **The verdict that is derived from records over a window.** -/
theorem verdict_derive {lifecycles : List LifecycleRecord} {drills : List DrillRecord}
    {owners : List String} (unique : (sessions.map fun record => record.session).Nodup)
    (final : FinalRun (RecordedGood sessions) window run) :
    (derive window sessions lifecycles drills owners).verdict = .met ↔
      requiredStreakSessions ≤ run.length ∧
        (∀ kind, AtLeast requiredLifecyclesPerKind (CountsIn run kind) lifecycles) ∧
          ∀ drill ∈ drills, PassedBy owners drill := by
  obtain ⟨current, start, last⟩ := streakOf_run unique final
  have counts := counters_counted start last lifecycles
  have passed : ((drills.map (drillResult owners)).filter fun drill => !drill.passed) = [] ↔
      ∀ drill ∈ drills, PassedBy owners drill := by
    rw [List.filter_eq_nil_iff, List.forall_mem_map]
    refine forall₂_congr fun drill _ => ?_
    rw [drillResult, PassedBy, ← drillReasons_eq_nil]
    simp
  have kinds : (assetKinds.filter fun kind => decide ((PerKind.of
        ⟨countersOf (lifecycles.map (lifecycleResult etDate
            (streakOf (window.map (sessionResult sessions))))) .option,
          countersOf (lifecycles.map (lifecycleResult etDate
            (streakOf (window.map (sessionResult sessions))))) .equity⟩ kind).counted <
        requiredLifecyclesPerKind)) = [] ↔
      ∀ kind, AtLeast requiredLifecyclesPerKind (CountsIn run kind) lifecycles := by
    rw [List.filter_eq_nil_iff]
    constructor
    · intro enough kind
      rw [← counts]
      have isKind : kind ∈ assetKinds := by cases kind <;> decide
      have notShort := enough kind isKind
      rw [decide_eq_true_eq, not_lt] at notShort
      cases kind with
      | option => exact notShort
      | equity => exact notShort
    · intro enough kind _
      rw [decide_eq_true_eq, not_lt]
      cases kind with
      | option => exact (counts .option _).mpr (enough .option)
      | equity => exact (counts .equity _).mpr (enough .equity)
  rw [derive]
  dsimp only
  rw [ite_eq_left_iff]
  simp only [reduceCtorEq, imp_false, not_not]
  rw [verdictReasonsOf, List.append_eq_nil_iff, List.append_eq_nil_iff, List.map_eq_nil_iff,
    List.map_eq_nil_iff, kinds, passed, current, ite_eq_right_iff, and_assoc]
  simp

end Derivation

/-! ## Documents -/

section Documents

variable {etDate : ℤ → ℤ}

structure Validated (fields : DocumentFields etDate) : Prop where
  increasing : (fields.calendarWindow.map CalendarSession.session).Pairwise (· < ·)
  recorded : (fields.sessions.map fun record => record.session).Pairwise (· < ·)
  inWindow : (fields.sessions.map fun record => record.session) ⊆
    fields.calendarWindow.map CalendarSession.session
  startsTogether : fields.sessions ≠ [] → fields.calendarWindow ≠ [] →
    (fields.sessions.map fun record => record.session).head? =
      (fields.calendarWindow.map CalendarSession.session).head?
  emptyTogether : fields.sessions = [] ↔ fields.calendarWindow = []
  drillOrder : (fields.drills.map fun drill => drill.id) = drillIds
  recomputed : fields.derived = derive fields.calendarWindow fields.sessions fields.lifecycles
    fields.drills fields.owners

theorem validated_of_validate {fields : DocumentFields etDate}
    (valid : validate fields = .ok ⟨⟩) : Validated fields := by
  obtain ⟨-, valid⟩ := refuse_bind_eq_ok.mp valid
  obtain ⟨increasing, valid⟩ := refuse_bind_eq_ok.mp valid
  obtain ⟨-, valid⟩ := refuse_bind_eq_ok.mp valid
  obtain ⟨recorded, valid⟩ := refuse_bind_eq_ok.mp valid
  obtain ⟨inWindow, valid⟩ := refuse_bind_eq_ok.mp valid
  obtain ⟨starts, valid⟩ := refuse_bind_eq_ok.mp valid
  obtain ⟨empty, valid⟩ := refuse_bind_eq_ok.mp valid
  obtain ⟨-, valid⟩ := refuse_bind_eq_ok.mp valid
  obtain ⟨order, valid⟩ := refuse_bind_eq_ok.mp valid
  have recomputed := refuse_eq_ok.mp valid
  refine ⟨not_not.mp increasing, not_not.mp recorded, not_not.mp inWindow, ?_, ?_,
    not_not.mp order, not_not.mp recomputed⟩
  · intro some_ open_
    by_contra differ
    exact starts ⟨List.map_eq_nil_iff.not.mpr some_, List.map_eq_nil_iff.not.mpr open_, differ⟩
  · have together := not_not.mp empty
    rwa [List.map_eq_nil_iff, List.map_eq_nil_iff] at together

theorem closed_eq_append (calendar : SessionCalendar etDate) (first computedAt : ℤ) :
    ∃ before, closedSessions calendar computedAt =
        before ++ windowFrom calendar (some first) computedAt ∧
      ∀ session ∈ before, session.session < first := by
  rw [closedSessions, windowFrom, Option.elim_some]
  have increasing := calendar.increasing
  have closes := calendar.closesInOrder
  revert increasing closes
  induction calendar.sessions with
  | nil =>
    intro _ _
    exact ⟨[], rfl, List.forall_mem_nil _⟩
  | cons head rest ih =>
    intro increasing closes
    obtain ⟨above, increasing⟩ := List.pairwise_cons.mp increasing
    obtain ⟨later, closes⟩ := List.pairwise_cons.mp closes
    by_cases early : first ≤ head.session
    · have all : (head :: rest).filter (fun session => first ≤ session.session) =
          head :: rest := by
        rw [List.filter_eq_self]
        exact List.forall_mem_cons.mpr
          ⟨decide_eq_true early, fun session inside =>
            decide_eq_true (early.trans (above session inside).le)⟩
      rw [all]
      exact ⟨[], rfl, List.forall_mem_nil _⟩
    · rw [List.filter_cons_of_neg (by simpa using early)]
      by_cases closed : head.closesAt ≤ computedAt
      · obtain ⟨before, same, all⟩ := ih increasing closes
        rw [List.takeWhile_cons_of_pos (by simpa using closed), same]
        refine ⟨head :: before, rfl, ?_⟩
        exact List.forall_mem_cons.mpr ⟨not_le.mp early, all⟩
      · have nothing : (rest.filter fun session => decide (first ≤ session.session)).takeWhile
            (fun session => decide (session.closesAt ≤ computedAt)) = [] := by
          cases kept : rest.filter fun session => decide (first ≤ session.session) with
          | nil => rfl
          | cons session others =>
            have member : session ∈ rest :=
              List.mem_of_mem_filter (kept ▸ List.mem_cons_self)
            have closesLater := later session member
            rw [List.takeWhile_cons_of_neg]
            simp only [decide_eq_true_eq, not_le]
            omega
        rw [nothing, List.takeWhile_cons_of_neg (by simpa using closed)]
        exact ⟨[], rfl, List.forall_mem_nil _⟩

variable {calendar : SessionCalendar etDate}

theorem finalRun_window {fields : DocumentFields etDate} {run : List (CalendarSession etDate)}
    (valid : Validated fields) (window : fields.calendarWindow = windowFrom calendar
      (fields.calendarWindow.head?.map fun entry => entry.session) fields.computedAt)
    (final : FinalRun (RecordedGood fields.sessions)
      (closedSessions calendar fields.computedAt) run) :
    FinalRun (RecordedGood fields.sessions) fields.calendarWindow run := by
  cases opens : fields.calendarWindow with
  | nil =>
    have nothing : fields.sessions = [] := valid.emptyTogether.mpr opens
    have empty : run = [] := by
      rw [List.eq_nil_iff_forall_not_mem]
      intro session member
      obtain ⟨record, recorded, -⟩ := final.all_good session member
      rw [nothing] at recorded
      cases recorded
    rw [empty]
    exact finalRun_nil _
  | cons first rest =>
    rw [opens, List.head?_cons, Option.map_some] at window
    obtain ⟨before, closed, early⟩ :=
      closed_eq_append calendar first.session fields.computedAt
    rw [closed, ← window] at final
    refine final.of_append ?_
    rintro session member ⟨record, recorded, same, -⟩
    have isWindow := valid.inWindow (List.mem_map_of_mem recorded)
    have increasing := valid.increasing
    rw [opens, List.map_cons] at isWindow increasing
    have above := (List.pairwise_cons.mp increasing).1
    have earlier := early session member
    rcases List.mem_cons.mp isWindow with isFirst | isLater
    · omega
    · have := above _ isLater
      omega

/-- **The verdict of a document that was verified.** -/
theorem met_iff {contentSha256 : SessionCalendar etDate → String}
    {document : AcceptanceDocument etDate}
    (verified : verifyAcceptance contentSha256 document calendar = .ok ⟨⟩) :
    document.derived.verdict = .met ↔
      AcceptanceMet (RecordedGood document.sessions)
        (closedSessions calendar document.computedAt) document.lifecycles document.drills
          document.owners := by
  have valid := validated_of_validate document.valid
  obtain ⟨-, verified⟩ := refuse_bind_eq_ok.mp verified
  have window := not_not.mp (refuse_eq_ok.mp verified)
  have unique : (document.sessions.map fun record => record.session).Nodup :=
    valid.recorded.imp fun before => before.ne
  have drills : (∀ drill ∈ document.drills, PassedBy document.owners drill) ↔
      ∀ id ∈ drillIds, ∃ drill ∈ document.drills, drill.id = id ∧
        PassedBy document.owners drill := by
    constructor
    · intro all id isDrill
      rw [← valid.drillOrder] at isDrill
      obtain ⟨drill, member, same⟩ := List.mem_map.mp isDrill
      exact ⟨drill, member, same, all drill member⟩
    · intro each drill member
      have isDrill : drill.id ∈ drillIds := by
        rw [← valid.drillOrder]
        exact List.mem_map_of_mem member
      obtain ⟨other, member', same, passed⟩ := each drill.id isDrill
      have distinct : (document.drills.map fun drill => drill.id).Nodup := by
        rw [valid.drillOrder]
        decide
      rwa [List.inj_on_of_nodup_map distinct member' member same] at passed
  obtain ⟨run, final⟩ :=
    exists_finalRun (RecordedGood document.sessions) (closedSessions calendar document.computedAt)
  have inWindow := finalRun_window valid window final
  rw [valid.recomputed, verdict_derive unique inWindow, drills]
  constructor
  · rintro ⟨long, counts, passed⟩
    exact ⟨run, final, long, counts, passed⟩
  · rintro ⟨other, final', long, counts, passed⟩
    rw [final'.unique final] at long counts
    exact ⟨long, counts, passed⟩

end Documents

end TreeOptions.Acceptance
