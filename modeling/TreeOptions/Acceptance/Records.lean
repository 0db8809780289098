import Mathlib.Data.Char
import Mathlib.Data.List.Lex
import TreeOptions.Foundations.Grouping

/-!
# The records of the paper acceptance

What the recorder saw of a session, of an approved entry, and of a drill, each a record that cannot
be built out of shape, with the reasons for which it does not count.

Instants are in microseconds, and the date of an instant in New York is a function that is given.
-/

set_option autoImplicit false

namespace TreeOptions.Acceptance

/-! ## Sessions of the calendar -/

section Calendar

variable (etDate : ℤ → ℤ)

/-- The whole seconds between two instants. -/
def seconds (later earlier : ℤ) : ℤ :=
  (later - earlier).tdiv 1000000

/-- A session of the calendar. It spans whole minutes and opens on its own date. -/
structure CalendarSession where
  session : ℤ
  opensAt : ℤ
  closesAt : ℤ
  span : 0 < seconds closesAt opensAt ∧ seconds closesAt opensAt % 60 = 0
  opensOn : etDate opensAt = session
deriving DecidableEq

def CalendarSession.regularMinutes {etDate : ℤ → ℤ} (calendar : CalendarSession etDate) : ℤ :=
  seconds calendar.closesAt calendar.opensAt / 60

/-- The calendar of the repository, in time order. -/
structure SessionCalendar where
  sessions : List (CalendarSession etDate)
  increasing : sessions.Pairwise fun first second => first.session < second.session
  closesInOrder : sessions.Pairwise fun first second => first.closesAt < second.closesAt

end Calendar

/-! ## Session records -/

inductive ReconciliationStatus
  | clean
  | reconciliationRequired
  | unavailable
deriving DecidableEq

/-- A stretch in which reconciliation was not clean, until it was resolved. -/
structure ReconciliationEpisode where
  startedAt : ℤ
  isUnavailable : Bool
  resolvedAt : Option ℤ
  ordered : ∀ resolved, resolvedAt = some resolved → startedAt ≤ resolved

inductive SessionMetric
  | heartbeatMinutes
  | reconciliationOpen
  | reconciliationClose
  | reconciliationEpisodes
  | unownedOrders
  | maxExitUnguardedS

/-- What was observed over a session. A metric that is not known is none. -/
structure SessionMetrics where
  heartbeatMinutes : Option ℕ
  reconciliationOpen : Option ReconciliationStatus
  reconciliationClose : Option ReconciliationStatus
  reconciliationEpisodes : Option (List ReconciliationEpisode)
  unownedOrders : Option ℕ
  maxExitUnguardedS : Option ℕ

def SessionMetrics.isKnown (metrics : SessionMetrics) : SessionMetric → Bool
  | .heartbeatMinutes => metrics.heartbeatMinutes.isSome
  | .reconciliationOpen => metrics.reconciliationOpen.isSome
  | .reconciliationClose => metrics.reconciliationClose.isSome
  | .reconciliationEpisodes => metrics.reconciliationEpisodes.isSome
  | .unownedOrders => metrics.unownedOrders.isSome
  | .maxExitUnguardedS => metrics.maxExitUnguardedS.isSome

/-- The record of a session names exactly the metrics that are not known, with a reason for each. -/
structure SessionRecord extends SessionMetrics where
  session : ℤ
  unavailable : List (SessionMetric × String)
  named : ∀ metric, metric ∈ unavailable.map Prod.fst ↔ toSessionMetrics.isKnown metric = false

inductive SessionReason
  | sessionNotRecorded
  | heartbeatUnavailable
  | heartbeatMinutesExceedSession
  | heartbeatBelow99pct
  | reconciliationUnavailable
  | reconciliationNotCleanAtClose
  | reconciliationOpenUnresolved
  | reconciliationUnresolvedInSession
  | unownedOrdersUnavailable
  | unownedOrdersPresent
  | exitGuardUnavailable
  | exitUnguardedOver5min
deriving DecidableEq

def SessionReason.text : SessionReason → String
  | .sessionNotRecorded => "session_not_recorded"
  | .heartbeatUnavailable => "heartbeat_unavailable"
  | .heartbeatMinutesExceedSession => "heartbeat_minutes_exceed_session"
  | .heartbeatBelow99pct => "heartbeat_below_99pct"
  | .reconciliationUnavailable => "reconciliation_unavailable"
  | .reconciliationNotCleanAtClose => "reconciliation_not_clean_at_close"
  | .reconciliationOpenUnresolved => "reconciliation_open_unresolved"
  | .reconciliationUnresolvedInSession => "reconciliation_unresolved_in_session"
  | .unownedOrdersUnavailable => "unowned_orders_unavailable"
  | .unownedOrdersPresent => "unowned_orders_present"
  | .exitGuardUnavailable => "exit_guard_unavailable"
  | .exitUnguardedOver5min => "exit_unguarded_over_5min"

def heartbeatMinPercent : ℤ := 99

def maxExitUnguardedS : ℕ := 300

/-- How long after the open the first reconciliation may be. -/
def openCheckWindow : ℤ := 900 * 1000000

section SessionReasons

variable {etDate : ℤ → ℤ} (metrics : SessionMetrics) (calendar : CalendarSession etDate)

def heartbeatReasons : List SessionReason :=
  match metrics.heartbeatMinutes with
  | none => [.heartbeatUnavailable]
  | some minutes =>
    if calendar.regularMinutes < minutes then [.heartbeatMinutesExceedSession]
    else if 100 * (minutes : ℤ) < heartbeatMinPercent * calendar.regularMinutes then
      [.heartbeatBelow99pct]
    else []

/-- An episode that was not resolved by the close. -/
def unresolved (episode : ReconciliationEpisode) : Bool :=
  episode.resolvedAt.all fun resolved => calendar.closesAt < resolved

/-- A reconciliation that was not clean at the open must be one of the episodes. -/
def reconciliationReasons : List SessionReason :=
  match metrics.reconciliationOpen, metrics.reconciliationClose,
    metrics.reconciliationEpisodes with
  | some opening, some close, some episodes =>
    (if close ≠ .clean then [.reconciliationNotCleanAtClose] else []) ++
      (if episodes.any (unresolved calendar) then [.reconciliationUnresolvedInSession] else []) ++
      if opening ≠ .clean ∧ ¬ (episodes.any fun episode =>
          episode.startedAt ≤ calendar.opensAt + openCheckWindow) then
        [.reconciliationOpenUnresolved]
      else []
  | _, _, _ => [.reconciliationUnavailable]

def unownedReasons : List SessionReason :=
  match metrics.unownedOrders with
  | none => [.unownedOrdersUnavailable]
  | some orders => if 0 < orders then [.unownedOrdersPresent] else []

def exitGuardReasons : List SessionReason :=
  match metrics.maxExitUnguardedS with
  | none => [.exitGuardUnavailable]
  | some longest => if maxExitUnguardedS < longest then [.exitUnguardedOver5min] else []

/-- Why a session does not qualify. -/
def sessionReasons : List SessionReason :=
  sortedBy (fun reason => reason.text.toList)
    (heartbeatReasons metrics calendar ++ reconciliationReasons metrics calendar ++
      unownedReasons metrics ++ exitGuardReasons metrics)

end SessionReasons

/-! ## Lifecycle records -/

inductive AssetKind
  | option
  | equity
deriving DecidableEq

inductive ExitBy
  | policy
  | flatten
  | manual
  | notExited

structure LifecycleFields where
  intentId : String
  assetKind : AssetKind
  proposalId : String
  approvalKey : String
  approvedAt : ℤ
  filledQuantity : ℕ
  firstFillAt : Option ℤ
  exitBy : ExitBy
  exitedAt : Option ℤ
  brokerFlatAt : Option ℤ
  reconciledAt : Option ℤ
  commissionsComplete : Option Bool
  commissionsUnavailableReason : Option String

/-- What happened is set when it did, and in order. -/
structure LifecycleFields.Shaped (life : LifecycleFields) : Prop where
  filled : 1 ≤ life.filledQuantity ↔ life.firstFillAt.isSome
  exited : life.exitBy ≠ .notExited ↔ life.exitedAt.isSome
  exitedFilled : life.exitBy ≠ .notExited → life.filledQuantity ≠ 0
  commissions : life.commissionsComplete = none ↔ life.commissionsUnavailableReason.isSome
  ordered : ([some life.approvedAt, life.firstFillAt, life.exitedAt].filterMap id).Pairwise
    (· ≤ ·)
  flat : ∀ flat, life.brokerFlatAt = some flat →
    ∃ exit, life.exitedAt = some exit ∧ exit ≤ flat
  reconciled : ∀ reconciled, life.reconciledAt = some reconciled →
    ∃ flat, life.brokerFlatAt = some flat ∧ flat ≤ reconciled

/-- An approved entry, followed to the end of its life. -/
structure LifecycleRecord extends LifecycleFields where
  shaped : toLifecycleFields.Shaped

inductive LifecycleReason
  | notFilled
  | notExited
  | exitNotByPolicy
  | brokerNotFlat
  | notReconciled
  | commissionsUnknown
  | commissionsMissing
deriving DecidableEq

def LifecycleReason.text : LifecycleReason → String
  | .notFilled => "not_filled"
  | .notExited => "not_exited"
  | .exitNotByPolicy => "exit_not_by_policy"
  | .brokerNotFlat => "broker_not_flat"
  | .notReconciled => "not_reconciled"
  | .commissionsUnknown => "commissions_unknown"
  | .commissionsMissing => "commissions_missing"

def exitReasons : ExitBy → List LifecycleReason
  | .notExited => [.notExited]
  | .manual => [.exitNotByPolicy]
  | .policy | .flatten => []

def commissionsReasons : Option Bool → List LifecycleReason
  | none => [.commissionsUnknown]
  | some false => [.commissionsMissing]
  | some true => []

/-- Why a lifecycle is not complete. -/
def lifecycleReasons (life : LifecycleFields) : List LifecycleReason :=
  sortedBy (fun reason => reason.text.toList)
    ((if life.filledQuantity < 1 then [.notFilled] else []) ++ exitReasons life.exitBy ++
      (if life.brokerFlatAt = none then [.brokerNotFlat] else []) ++
      (if life.reconciledAt = none then [.notReconciled] else []) ++
      commissionsReasons life.commissionsComplete)

/-! ## Drill records -/

inductive DrillId
  | relogin
  | restartMidPosition
  | gatewayOutage
  | duplicateCommand
  | backupRestore
  | notification
  | unassistedUse
deriving DecidableEq

/-- Every drill, in the order in which a document lists them. -/
def drillIds : List DrillId :=
  [.relogin, .restartMidPosition, .gatewayOutage, .duplicateCommand, .backupRestore,
    .notification, .unassistedUse]

inductive DrillStatus
  | notRun
  | passed
  | failed
deriving DecidableEq

structure DrillFields where
  id : DrillId
  status : DrillStatus
  evidence : List (String × String)
  attestedBy : Option String
  ranAt : Option ℤ
  note : String

structure DrillFields.Shaped (drill : DrillFields) : Prop where
  evidence : drill.status ≠ .notRun ↔ drill.evidence ≠ []
  attested : drill.status ≠ .notRun ↔ drill.attestedBy.isSome
  timed : drill.status ≠ .notRun ↔ drill.ranAt.isSome

structure DrillRecord extends DrillFields where
  shaped : toDrillFields.Shaped

theorem notRun_shaped (id : DrillId) : DrillFields.Shaped ⟨id, .notRun, [], none, none, ""⟩ := by
  constructor <;> simp

def DrillRecord.notRun (id : DrillId) : DrillRecord :=
  ⟨⟨id, .notRun, [], none, none, ""⟩, notRun_shaped id⟩

inductive DrillReason
  | drillNotRun
  | drillFailed
  | attesterNotOwner
deriving DecidableEq

/-- Why a drill does not pass. -/
def drillReasons (drill : DrillFields) (owners : List String) : List DrillReason :=
  if drill.status = .notRun then [.drillNotRun]
  else
    (if drill.status = .failed then [.drillFailed] else []) ++
      if drill.attestedBy.any fun attester => owners.contains attester then []
      else [.attesterNotOwner]

end TreeOptions.Acceptance
