import Mathlib.Data.Prod.Lex
import TreeOptions.Acceptance.Records
import TreeOptions.Foundations.Checked

/-!
# The acceptance document

The verdict is derived from the records of a document and the sessions of the calendar since the
first record. A document is validated by deriving it again, and verified against the calendar.
-/

set_option autoImplicit false

namespace TreeOptions.Acceptance

open Checked

/-! ## Derived results -/

def requiredStreakSessions : ℕ := 10

def requiredLifecyclesPerKind : ℕ := 10

structure SessionResult where
  session : ℤ
  recorded : Bool
  qualifying : Bool
  reasons : List SessionReason
deriving DecidableEq

structure LifecycleResult where
  intentId : String
  assetKind : AssetKind
  completed : Bool
  counted : Bool
  reasons : List LifecycleReason
deriving DecidableEq

structure DrillResult where
  id : DrillId
  passed : Bool
  reasons : List DrillReason
deriving DecidableEq

structure StreakSummary where
  currentSessions : ℕ
  currentStart : Option ℤ
  currentEnd : Option ℤ
  bestSessions : ℕ
  required : ℕ
deriving DecidableEq

structure KindCounters where
  completedTotal : ℕ
  counted : ℕ
  required : ℕ
deriving DecidableEq

structure PerKind where
  option : KindCounters
  equity : KindCounters
deriving DecidableEq

def PerKind.of (perKind : PerKind) : AssetKind → KindCounters
  | .option => perKind.option
  | .equity => perKind.equity

inductive VerdictReason
  | streakShort
  | lifecyclesShort (kind : AssetKind)
  | drillNotPassed (id : DrillId)
deriving DecidableEq

inductive Verdict
  | met
  | notMet
deriving DecidableEq

structure Derived where
  sessionResults : List SessionResult
  lifecycleResults : List LifecycleResult
  drillResults : List DrillResult
  streak : StreakSummary
  perKind : PerKind
  drillsPassed : ℕ
  verdict : Verdict
  verdictReasons : List VerdictReason
deriving DecidableEq

section Derive

variable {etDate : ℤ → ℤ}

/-- The record of a session, the last of them. -/
def recordOf (sessions : List SessionRecord) (session : ℤ) : Option SessionRecord :=
  sessions.reverse.find? fun record => record.session = session

def reasonsOf (sessions : List SessionRecord) (calendar : CalendarSession etDate) :
    List SessionReason :=
  (recordOf sessions calendar.session).elim [.sessionNotRecorded] fun record =>
    sessionReasons record.toSessionMetrics calendar

def sessionResult (sessions : List SessionRecord) (calendar : CalendarSession etDate) :
    SessionResult :=
  ⟨calendar.session, (recordOf sessions calendar.session).isSome,
    (reasonsOf sessions calendar).isEmpty, reasonsOf sessions calendar⟩

/-- The run of qualifying sessions, and the best one, with one more session. -/
def extendStreak (runs : ℕ × ℕ) (result : SessionResult) : ℕ × ℕ :=
  let run := if result.qualifying then runs.1 + 1 else 0
  (run, max runs.2 run)

def streakOf (results : List SessionResult) : StreakSummary :=
  let runs := results.foldl extendStreak (0, 0)
  ⟨runs.1,
    if 0 < runs.1 then results[results.length - runs.1]?.map SessionResult.session else none,
    if 0 < runs.1 then results.getLast?.map SessionResult.session else none,
    runs.2, requiredStreakSessions⟩

/-- A lifecycle lies inside the streak, by the dates of its approval and its reconciliation. -/
def insideStreak (etDate : ℤ → ℤ) (streak : StreakSummary) (life : LifecycleFields) : Bool :=
  match streak.currentStart, streak.currentEnd, life.reconciledAt with
  | some start, some last, some reconciled =>
    start ≤ etDate life.approvedAt && etDate reconciled ≤ last
  | _, _, _ => false

def lifecycleResult (etDate : ℤ → ℤ) (streak : StreakSummary) (life : LifecycleRecord) :
    LifecycleResult :=
  let reasons := lifecycleReasons life.toLifecycleFields
  ⟨life.intentId, life.assetKind, reasons.isEmpty,
    reasons.isEmpty && insideStreak etDate streak life.toLifecycleFields, reasons⟩

def countersOf (results : List LifecycleResult) (kind : AssetKind) : KindCounters :=
  let rows := results.filter fun result => result.assetKind = kind
  ⟨rows.countP LifecycleResult.completed, rows.countP LifecycleResult.counted,
    requiredLifecyclesPerKind⟩

def drillResult (owners : List String) (drill : DrillRecord) : DrillResult :=
  let reasons := drillReasons drill.toDrillFields owners
  ⟨drill.id, reasons.isEmpty, reasons⟩

def assetKinds : List AssetKind :=
  [.option, .equity]

def verdictReasonsOf (streak : StreakSummary) (perKind : PerKind) (drills : List DrillResult) :
    List VerdictReason :=
  (if streak.currentSessions < requiredStreakSessions then [.streakShort] else []) ++
    ((assetKinds.filter fun kind => (perKind.of kind).counted < requiredLifecyclesPerKind).map
      .lifecyclesShort) ++
    ((drills.filter fun drill => !drill.passed).map fun drill => .drillNotPassed drill.id)

/-- Every derived field of a document, from its records alone. -/
def derive (window : List (CalendarSession etDate)) (sessions : List SessionRecord)
    (lifecycles : List LifecycleRecord) (drills : List DrillRecord) (owners : List String) :
    Derived :=
  let sessionResults := window.map (sessionResult sessions)
  let streak := streakOf sessionResults
  let lifecycleResults := lifecycles.map (lifecycleResult etDate streak)
  let perKind : PerKind := ⟨countersOf lifecycleResults .option, countersOf lifecycleResults .equity⟩
  let drillResults := drills.map (drillResult owners)
  let reasons := verdictReasonsOf streak perKind drillResults
  ⟨sessionResults, lifecycleResults, drillResults, streak, perKind,
    drillResults.countP DrillResult.passed, if reasons = [] then .met else .notMet, reasons⟩

end Derive

/-! ## Documents -/

structure DocumentFields (etDate : ℤ → ℤ) where
  computedAt : ℤ
  calendarSha256 : String
  owners : List String
  calendarWindow : List (CalendarSession etDate)
  sessions : List SessionRecord
  lifecycles : List LifecycleRecord
  drills : List DrillRecord
  derived : Derived

inductive DocumentError
  | owners
  | windowNotIncreasing
  | windowNotClosed
  | sessionsNotSorted
  | sessionOutsideWindow
  | windowStart
  | windowEmpty
  | repeatedIntent
  | drillOrder
  | notRecomputed
  | calendarMismatch
  | windowMismatch
deriving DecidableEq

section Document

variable {etDate : ℤ → ℤ}

def validate (fields : DocumentFields etDate) : Except DocumentError Unit := do
  let window := fields.calendarWindow.map CalendarSession.session
  let recorded := fields.sessions.map SessionRecord.session
  refuse (fields.owners = [] ∨ ¬ (fields.owners.map String.toList).Pairwise (· < ·)) .owners
  refuse (¬ window.Pairwise (· < ·)) .windowNotIncreasing
  refuse (fields.calendarWindow.getLast?.any fun last => fields.computedAt < last.closesAt)
    .windowNotClosed
  refuse (¬ recorded.Pairwise (· < ·)) .sessionsNotSorted
  refuse (¬ recorded ⊆ window) .sessionOutsideWindow
  refuse (recorded ≠ [] ∧ window ≠ [] ∧ recorded.head? ≠ window.head?) .windowStart
  refuse (¬ (recorded = [] ↔ window = [])) .windowEmpty
  refuse (¬ (fields.lifecycles.map fun life => life.intentId).Nodup) .repeatedIntent
  refuse ((fields.drills.map fun drill => drill.id) ≠ drillIds) .drillOrder
  refuse (fields.derived ≠ derive fields.calendarWindow fields.sessions fields.lifecycles
    fields.drills fields.owners) .notRecomputed

/-- A document that is validated: every derived field is what its records give. -/
structure AcceptanceDocument (etDate : ℤ → ℤ) extends DocumentFields etDate where
  valid : validate toDocumentFields = .ok ⟨⟩

/-- The sessions of the calendar since the first record that are closed. -/
def windowFrom (calendar : SessionCalendar etDate) (first : Option ℤ) (computedAt : ℤ) :
    List (CalendarSession etDate) :=
  first.elim [] fun first =>
    (calendar.sessions.filter fun session => first ≤ session.session).takeWhile fun session =>
      session.closesAt ≤ computedAt

/-- The records that a verdict is computed from. -/
structure Evidence where
  sessions : List SessionRecord
  lifecycles : List LifecycleRecord
  drills : List DrillRecord

def lastDrill (drills : List DrillRecord) (id : DrillId) : Option DrillRecord :=
  drills.reverse.find? fun drill => drill.id = id

def drillRow (drills : List DrillRecord) (id : DrillId) : DrillRecord :=
  (lastDrill drills id).getD (.notRun id)

def Evidence.fields (evidence : Evidence) (owners : List String) (calendarSha256 : String)
    (calendar : SessionCalendar etDate) (computedAt : ℤ) : DocumentFields etDate :=
  let records := sortedBy (fun record => record.session) evidence.sessions
  let drills := drillIds.map (drillRow evidence.drills)
  let lifecycles := sortedBy (fun life => toLex (life.approvedAt, life.intentId.toList))
    evidence.lifecycles
  let owners := sortedBy String.toList owners.dedup
  let window := windowFrom calendar (records.head?.map fun record => record.session) computedAt
  ⟨computedAt, calendarSha256, owners, window, records, lifecycles, drills,
    derive window records lifecycles drills owners⟩

variable (contentSha256 : SessionCalendar etDate → String)

def errorOf : Except DocumentError Unit → DocumentError
  | .error error => error
  | .ok _ => .notRecomputed

/-- The one way to build a document. -/
def computeAcceptance (evidence : Evidence) (owners : List String)
    (calendar : SessionCalendar etDate) (computedAt : ℤ) :
    Except DocumentError (AcceptanceDocument etDate) :=
  let fields := evidence.fields owners (contentSha256 calendar) calendar computedAt
  if valid : validate fields = .ok ⟨⟩ then .ok ⟨fields, valid⟩
  else .error (errorOf (validate fields))

/-- The document was judged against this calendar and a window that is not cut short. -/
def verifyAcceptance (document : AcceptanceDocument etDate) (calendar : SessionCalendar etDate) :
    Except DocumentError Unit := do
  refuse (document.calendarSha256 ≠ contentSha256 calendar) .calendarMismatch
  refuse (document.calendarWindow ≠ windowFrom calendar
    (document.calendarWindow.head?.map fun entry => entry.session) document.computedAt)
    .windowMismatch

end Document

end TreeOptions.Acceptance
