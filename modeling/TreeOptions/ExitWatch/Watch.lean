import Mathlib.Data.Char
import Mathlib.Data.List.Lex
import TreeOptions.ExitWatch.AlertPolicy
import TreeOptions.Foundations.Grouping

/-!
# The exit watchdog

Once a minute the watchdog looks at the books with exposure and says whether their exits can fire.
The worst book decides (`classify`). A price that is missing for too long is an incident, and an
incident is not over because the window closed: it is held (`touchSuspended`) until a price arrives.

The details for the banner and the list of events are left out.
-/

set_option autoImplicit false

namespace TreeOptions.ExitWatch

/-! ## Observations -/

def heartbeatStaleS : ℚ := 120

def healthStaleS : ℚ := 180

def gatewaySettleS : ℚ := 120

def attributionMaxS : ℚ := 900

def tickFailuresBad : ℤ := 3

def tickSilentS : ℚ := 180

def touchBlindS : ℚ := 600

def quoteBlindS : ℚ := 120

inductive Status
  | idle
  | ok
  | waitingForGateway
  | touchBlind
  | quoteBlind
  | monitorFailing
  | monitorDown
  | touchSuspended
deriving DecidableEq

def isBad (status : Status) : Bool :=
  status ∈ [.monitorDown, .monitorFailing, .touchBlind, .quoteBlind]

def isHealthy (status : Status) : Bool :=
  status ∈ [.ok, .idle]

/-- Neither bad nor healthy when it is suspended: held. -/
def isTouchIncident (status : Status) : Bool :=
  status ∈ [.touchBlind, .touchSuspended]

/-- Quiet hours never hold these. -/
def isSafety (status : Status) : Bool :=
  status = .quoteBlind

/-- The states of the gateway that its own watchdog pushes for. -/
def gatewayAlarms : List String :=
  ["needs_login", "needs_2fa", "api_down", "down"]

/-- The order of the verdicts on a book. A suspended incident is no such verdict. -/
def severity : Status → ℕ
  | .idle => 0
  | .ok => 1
  | .waitingForGateway => 2
  | .touchBlind => 3
  | .quoteBlind => 4
  | .monitorFailing => 5
  | .monitorDown => 6
  | .touchSuspended => 0

/-- What the monitor reports of itself. An instant that cannot be read is none. -/
structure Health where
  reportedAt : Option ℚ
  tickFailures : ℤ
  lastTickOkAt : Option ℚ
  quoteBlind : List (String × Option ℚ)
  spotBlind : List (String × Option ℚ)
  touchGuarded : List String
  spotOk : List String

/-- A book with exposure. -/
structure BookObs where
  plan : String
  heartbeat : Option ℚ
  health : Option Health
  unreadable : Bool

structure ExitObs where
  now : ℚ
  books : List BookObs
  gatewayStatus : Option String
  gatewaySince : Option ℚ
  market : Bool
  touchWindow : Option Bool
  quoteWindow : Option Bool

/-! ## The verdict on a book -/

/-- The symbols that have been blind for so long, inside the window. -/
def aged (raw : List (String × Option ℚ)) (window : Bool) (now least : ℚ) : List (String × ℚ) :=
  if window then
    raw.filterMap fun entry =>
      entry.2.bind fun since => if least ≤ now - since then some (entry.1, since) else none
  else []

def longBlind (obs : ExitObs) (health : Option Health) : List (String × ℚ) :=
  aged ((health.map Health.spotBlind).getD []) (obs.touchWindow.getD obs.market) obs.now touchBlindS

def quoteWindowOf (obs : ExitObs) : Bool :=
  obs.quoteWindow.getD obs.market

def longQuoteBlind (obs : ExitObs) (health : Option Health) : List (String × ℚ) :=
  aged ((health.map Health.quoteBlind).getD []) (quoteWindowOf obs) obs.now quoteBlindS

def gatewayUnsettled (obs : ExitObs) : Bool :=
  obs.gatewayStatus.any fun gateway =>
    !(gateway = "ok" && obs.gatewaySince.any fun since => gatewaySettleS ≤ obs.now - since)

def blameGateway (obs : ExitObs) (outageSince : Option ℚ) : Bool :=
  (obs.gatewayStatus.any fun gateway => gatewayAlarms.contains gateway) ||
    gatewayUnsettled obs && outageSince.any fun since => obs.now - since < attributionMaxS

def beating (obs : ExitObs) (book : BookObs) : Bool :=
  book.heartbeat.any fun beat => obs.now - beat ≤ heartbeatStaleS

def least (instants : List ℚ) : Option ℚ :=
  instants.min?

/-- What a monitor that reports its ticks says of its exits. -/
def tickVerdict (obs : ExitObs) (health : Health) : Status × Option ℚ :=
  let failing := tickFailuresBad ≤ health.tickFailures ||
    health.lastTickOkAt.any fun okAt => tickSilentS < obs.now - okAt
  if failing && obs.market then
    if blameGateway obs health.lastTickOkAt then (.waitingForGateway, health.lastTickOkAt)
    else (.monitorFailing, health.lastTickOkAt)
  else
    let quote := longQuoteBlind obs (some health)
    let blind := longBlind obs (some health)
    if quote ≠ [] then (.quoteBlind, least (quote.map Prod.snd))
    else if blind ≠ [] then (.touchBlind, least (blind.map Prod.snd))
    else (.ok, none)

def bookVerdict (obs : ExitObs) (book : BookObs) (missingSince : Option ℚ) : Status × Option ℚ :=
  if book.unreadable then (.monitorDown, none)
  else if !beating obs book then
    if blameGateway obs book.heartbeat then (.waitingForGateway, book.heartbeat)
    else (.monitorDown, book.heartbeat)
  else match book.health.bind fun health => health.reportedAt.map fun reported => (health, reported)
    with
    | none =>
      let since := missingSince.getD obs.now
      if healthStaleS < obs.now - since then (.monitorFailing, some since) else (.ok, none)
    | some (health, reported) =>
      if healthStaleS < obs.now - reported then (.monitorFailing, some reported)
      else tickVerdict obs health

structure BookRow where
  plan : String
  status : Status
  since : Option ℚ
  blind : List String

def sortedSymbols (symbols : List String) : List String :=
  sortedBy String.toList symbols.dedup

/-- The monitors that beat and report no ticks, with the instant at which that was first seen. -/
def missingHealth (obs : ExitObs) (before : List (String × ℚ)) : List (String × ℚ) :=
  obs.books.filterMap fun book =>
    if beating obs book && !book.unreadable && (book.health.bind Health.reportedAt).isNone then
      some (book.plan, (before.lookup book.plan).getD obs.now)
    else none

def assessBook (obs : ExitObs) (missing : List (String × ℚ)) (book : BookObs) : BookRow :=
  let verdict := bookVerdict obs book (missing.lookup book.plan)
  let blind :=
    if verdict.1 = .touchBlind then (longBlind obs book.health).map Prod.fst
    else if verdict.1 = .quoteBlind then (longQuoteBlind obs book.health).map Prod.fst
    else []
  ⟨book.plan, verdict.1, verdict.2, sortedSymbols blind⟩

def assess (obs : ExitObs) (before : List (String × ℚ)) : List BookRow :=
  obs.books.map (assessBook obs (missingHealth obs before))

/-- The worst book decides. -/
def verdictOf (rows : List BookRow) : Status × Option ℚ :=
  match greatestBy (fun row => severity row.status) rows with
  | none => (.idle, none)
  | some worst =>
    (worst.status,
      least ((rows.filter fun row => row.status = worst.status).filterMap BookRow.since))

def classify (obs : ExitObs) (before : List (String × ℚ)) : Status × Option ℚ :=
  verdictOf (assess obs before)

/-! ## Decisions -/

/-- The underlyings whose touch exits are guarded. -/
def touchGuarded (obs : ExitObs) : List String :=
  obs.books.flatMap fun book => (book.health.map Health.touchGuarded).getD []

/-- The underlyings with an accepted spot. -/
def spotOk (obs : ExitObs) : List String :=
  obs.books.flatMap fun book => (book.health.map Health.spotOk).getD []

/-- The symbols that a book still reports without a real-time quote. -/
def quoteSymbolsOf (obs : ExitObs) : List String :=
  obs.books.flatMap fun book => ((book.health.map Health.quoteBlind).getD []).map Prod.fst

/-- What a push says. -/
inductive PushText
  | touchBlind (blind : List String) (since : ℚ)
  | quoteBlind (blind : List String) (since : ℚ)
  | monitorDown (since : ℚ)
  | monitorFailing (since : ℚ)
  | nothingToGuard
  | sessionEnded (still : List String) (outage : Option ℚ)
  | quotesAgain (outage : Option ℚ)
  | positionsClosed (outage : Option ℚ)
  | pricesAgain (outage : Option ℚ)
  | guardingAgain (outage : Option ℚ)

/-- What is persisted between two observations. At first there is nothing. -/
structure WatchState where
  status : Option Status
  since : Option ℚ
  healthMissingSince : List (String × ℚ)
  touchSymbols : List String
  quoteSymbols : List String
  notify : NotifyBook Status

def WatchState.initial : WatchState :=
  ⟨none, none, [], [], [], ⟨none, none, none, false⟩⟩

/-- The symbols of an incident that are guarded and have no accepted spot. -/
def stillBlind (obs : ExitObs) (symbols : List String) : List String :=
  sortedSymbols (symbols.filter fun symbol =>
    symbol ∈ touchGuarded obs ∧ symbol ∉ spotOk obs)

/-- The status, and the symbols of the touch incident. -/
def touchDecision (obs : ExitObs) (prior : WatchState) : Status × List String :=
  let rows := assess obs prior.healthMissingSince
  let verdict := (verdictOf rows).1
  let still := stillBlind obs prior.touchSymbols
  if verdict = .touchBlind then
    (.touchBlind, sortedSymbols ((rows.filter fun row => row.status = .touchBlind).flatMap
      BookRow.blind))
  else if verdict = .ok && prior.status.any isTouchIncident && !still.isEmpty then
    (.touchSuspended, still)
  else (verdict, [])

def alarmText (status : Status) (since : ℚ) (blind : List String) : PushText :=
  if status = .touchBlind then .touchBlind blind since
  else if status = .quoteBlind then .quoteBlind blind since
  else if status = .monitorDown then .monitorDown since
  else .monitorFailing since

def recoveryText (obs : ExitObs) (prior : WatchState) (status : Status) : PushText :=
  let touch := prior.notify.lastNotifiedStatus = some .touchBlind
  let quote := prior.notify.lastNotifiedStatus = some .quoteBlind
  let outage := prior.since.map fun was => obs.now - was
  if status = .idle then .nothingToGuard
  else if quote ∧ quoteWindowOf obs = false then
    let still := sortedSymbols (prior.quoteSymbols ++ quoteSymbolsOf obs)
    .sessionEnded (if still = [] then ["an equity"] else still) outage
  else if quote then .quotesAgain outage
  else if touch ∧ prior.touchSymbols ≠ [] ∧ ¬ prior.touchSymbols.any fun symbol =>
      (spotOk obs).contains symbol then .positionsClosed outage
  else if touch then .pricesAgain outage
  else .guardingAgain outage

def decide' (obs : ExitObs) (prior : WatchState) (urgency : Urgency) :
    WatchState × Option (Push Status PushText) :=
  let rows := assess obs prior.healthMissingSince
  let decision := touchDecision obs prior
  let status := decision.1
  let hint := if status = .touchSuspended then none else (verdictOf rows).2
  let since := if prior.status = some status then prior.since.getD (hint.getD obs.now)
    else hint.getD obs.now
  let quoteSymbols := if status = .quoteBlind then
      sortedSymbols ((rows.filter fun row => row.status = .quoteBlind).flatMap BookRow.blind)
    else []
  let blind := if status = .touchBlind then decision.2 else quoteSymbols
  let pushed := nextPush isBad isHealthy isSafety status obs.now prior.notify urgency
    (alarmText status since blind) (recoveryText obs prior status)
  (⟨some status, some since, missingHealth obs prior.healthMissingSince, decision.2, quoteSymbols,
    pushed.2⟩, pushed.1)

/-- One observation: decide, push, and record the outcome of the push. -/
def watchOnce (obs : ExitObs) (prior : WatchState) (urgency : Urgency) (delivered : Bool) :
    WatchState × Option (Push Status PushText) :=
  let decided := decide' obs prior urgency
  let notify := if decided.2.isSome then
      settlePush decided.1.notify prior.notify delivered obs.now
    else decided.1.notify
  ({ decided.1 with notify }, decided.2)

end TreeOptions.ExitWatch
