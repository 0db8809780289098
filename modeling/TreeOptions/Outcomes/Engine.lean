import Mathlib.Data.Char
import Mathlib.Data.List.Lex
import Mathlib.Data.Prod.Lex
import TreeOptions.Trex.Plan

/-!
# The outcome of a candidate

A bundle has the minute prints of a set of contracts over a window of sessions. At each decision
clock of the window there is a board of candidates, two-leg spreads whose legs have fresh prints.
The outcome of a candidate is its entry at the next prints, its exit at a later clock by one of the
exit modes, and the difference between the two less the cost.

Instants are in milliseconds, and the identity of a candidate is a digest that is given.
-/

set_option autoImplicit false

namespace TreeOptions.Outcomes

open Decimal
open Trex (Right)

/-! ## Days and clocks -/

/-- The zone of the exchange: the instant of a minute of a day, and the day of an instant. Its
clocks are not changed during trading hours. -/
structure MarketZone where
  instantOf : ℤ → ℕ → ℤ
  dateOf : ℤ → ℤ
  dateOf_mono : ∀ {earlier later}, earlier ≤ later → dateOf earlier ≤ dateOf later
  dateOf_instantOf : ∀ day minute, minute < 1440 → dateOf (instantOf day minute) = day
  instantOf_later : ∀ day minute later, 600 ≤ minute → minute ≤ later → later ≤ 960 →
    instantOf day later = instantOf day minute + (later - minute) * 60000

/-- The minutes of the decision clocks of a session. -/
def schedule : List ℕ :=
  [600, 645, 690, 735, 780, 825, 870, 915]

def earlySchedule : List ℕ :=
  [600, 640, 680, 720, 760]

structure Contract where
  ticker : String
  underlying : String
  expiry : ℤ
  right : Right
  strike : ℚ

/-- What a bundle covers: its sessions, its contracts, and the rules for its candidates. -/
structure Window where
  zone : MarketZone
  earlyCloses : List ℤ
  sessions : List ℤ
  nonempty : sessions ≠ []
  increasing : sessions.Pairwise (· < ·)
  contracts : List Contract
  widths : Option (List ℚ)
  listing : Option (String → ℤ × Option ℤ)

/-- A decision clock of a session. -/
structure DecisionClock where
  day : ℤ
  minute : ℕ
  instant : ℤ

namespace Window

variable (window : Window)

def closeMinute (day : ℤ) : ℕ :=
  if day ∈ window.earlyCloses then 780 else 960

def sessionClose (day : ℤ) : ℤ :=
  window.zone.instantOf day (window.closeMinute day)

def scheduleFor (day : ℤ) : List ℕ :=
  if window.closeMinute day ≤ 780 then earlySchedule else schedule

def clocksOf (day : ℤ) : List DecisionClock :=
  (window.scheduleFor day).map fun minute => ⟨day, minute, window.zone.instantOf day minute⟩

/-- Every decision clock of the window, in time order. -/
def timeline : List DecisionClock :=
  window.sessions.flatMap window.clocksOf

def slotOf (day : ℤ) (minute : ℕ) : Option ℕ :=
  window.timeline.findIdx? fun clock => clock.day = day && clock.minute = minute

/-- The slot of the last clock of a session. -/
def lastSlot (day : ℤ) : ℕ :=
  ((window.sessions.filter fun other => other ≤ day).flatMap window.clocksOf).length - 1

def lastSession : ℤ :=
  window.sessions.getLast window.nonempty

/-- The last session on or before a day. Before the first session the index wraps around. -/
def lastBefore (day : ℤ) : ℤ :=
  (window.sessions.filter fun other => other ≤ day).getLast?.getD window.lastSession

/-- Whether a contract may be on a board of a day. -/
def isListed (ticker : String) (day : ℤ) : Bool :=
  window.listing.all fun listing =>
    (listing ticker).1 ≤ day && (listing ticker).2.all fun last => day ≤ last

end Window

/-! ## Prints -/

structure Print where
  stamp : ℤ
  price : ℚ

/-- The prints of each contract, in time order. -/
structure MinuteBars where
  points : String → List Print
  increasing : ∀ ticker, (points ticker).Pairwise fun first second => first.stamp < second.stamp

/-- How old a print may be, and how late. -/
def ageLimit : ℤ := 15 * 60 * 1000

def seen (points : List Print) (now : ℤ) : List Print :=
  points.filter fun print => print.stamp ≤ now

def following (points : List Print) (now : ℤ) : List Print :=
  points.filter fun print => now < print.stamp

/-- A print is fresh at an instant: of the same day and not too old. -/
def fresh (zone : MarketZone) (now : ℤ) (print : Print) : Bool :=
  zone.dateOf print.stamp = zone.dateOf now && now - print.stamp ≤ ageLimit

/-- The last print at an instant, if it is fresh. -/
def latest (zone : MarketZone) (points : List Print) (now : ℤ) : Option ℚ :=
  ((seen points now).getLast?.filter (fresh zone now)).map Print.price

/-- The next print after an instant, if it is not too late. -/
def next (points : List Print) (now : ℤ) : Option Print :=
  (following points now).head?.filter fun print => print.stamp - now ≤ ageLimit

/-- The first two prints of the legs that are within a time of each other. A print that cannot be
used ends the search, and otherwise the leg that is behind moves on. -/
def syncedPair (usable : Print → Bool) (behind : Print → Print → Bool) (sync : ℤ) :
    List Print → List Print → Option (Print × Print)
  | long :: longs, short :: shorts =>
    if !usable long || !usable short then none
    else if |long.stamp - short.stamp| ≤ sync then some (long, short)
    else if behind long short then syncedPair usable behind sync longs (short :: shorts)
    else syncedPair usable behind sync (long :: longs) shorts
  | _, _ => none
termination_by longs shorts => longs.length + shorts.length

/-! ## Boards -/

inductive SpreadKind
  | putCredit
  | putDebit
  | callCredit
  | callDebit

def SpreadKind.isDebit : SpreadKind → Bool
  | .putDebit | .callDebit => true
  | .putCredit | .callCredit => false

structure Candidate where
  id : String
  structure_ : SpreadKind
  underlying : String
  expiry : ℤ
  long : String
  short : String
  width : ℚ

/-- The digest of what identifies a candidate: the instant, the structure and the two legs. -/
abbrev CandidateKey := ℤ → SpreadKind → String → String → String

def maxLossBound : ℚ := 300

def rightRank : Right → ℕ
  | .call => 0
  | .put => 1

/-- The contracts of one underlying, expiry and right are paired with each other. -/
def Contract.group (contract : Contract) : List Char ×ₗ ℤ ×ₗ ℕ :=
  toLex (contract.underlying.toList, toLex (contract.expiry, rightRank contract.right))

/-- The pairs of strikes whose width is one of those that are given. -/
def pairsOfWidth (widths : List ℚ) : List Contract → List (Contract × Contract)
  | [] => []
  | low :: rest =>
    (((rest.takeWhile fun high => sub high.strike low.strike ≤ widths.max?.getD 0).filter
      fun high => sub high.strike low.strike ∈ widths).map fun high => (low, high)) ++
        pairsOfWidth widths rest

/-- Neighbours are paired where no widths are given. -/
def strikePairs (widths : Option (List ℚ)) (chain : List Contract) :
    List (Contract × Contract) :=
  widths.elim (chain.zip chain.tail) fun widths => pairsOfWidth widths chain

/-- A spread of two legs, unless its premium or its risk is out of bounds. -/
def orient (key : CandidateKey) (now : ℤ) (kind : SpreadKind) (long short : Contract)
    (width debit : ℚ) : Option Candidate :=
  let premium := if kind.isDebit then debit else -debit
  let maxLoss := mul (if kind.isDebit then premium else sub width premium) 100
  if premium ≤ 0 ∨ width ≤ premium ∨ maxLoss ≤ 0 ∨ maxLossBound < maxLoss then none
  else some ⟨key now kind long.ticker short.ticker, kind, long.underlying, long.expiry, long.ticker,
    short.ticker, width⟩

def orientations (key : CandidateKey) (now : ℤ) (low high : Contract) (lowPrice highPrice : ℚ) :
    List Candidate :=
  let width := sub high.strike low.strike
  if width ≤ 0 then []
  else
    [orient key now (if low.right = .call then .callDebit else .putCredit) low high width
        (sub lowPrice highPrice),
      orient key now (if low.right = .call then .callCredit else .putDebit) high low width
        (sub highPrice lowPrice)].reduceOption

section Board

variable (window : Window) (key : CandidateKey) (bars : MinuteBars)

/-- The two spreads of a pair whose legs both have a fresh print. -/
def pairCandidates (now : ℤ) (pair : Contract × Contract) : List Candidate :=
  match latest window.zone (bars.points pair.1.ticker) now,
    latest window.zone (bars.points pair.2.ticker) now with
  | some lowPrice, some highPrice => orientations key now pair.1 pair.2 lowPrice highPrice
  | _, _ => []

/-- The board at an instant, from the prints up to it. -/
def candidates (now : ℤ) : List Candidate :=
  let today := window.zone.dateOf now
  let eligible := window.contracts.filter fun contract =>
    7 ≤ contract.expiry - today && contract.expiry - today ≤ 60 &&
      window.isListed contract.ticker today
  (sortedBy Prod.fst (groupBy Contract.group eligible)).flatMap fun group =>
    (strikePairs window.widths (sortedBy Contract.strike group.2)).flatMap
      (pairCandidates window key bars now)

end Board

/-! ## Entries -/

structure Entry where
  debit : ℚ
  maxLoss : ℚ
  maxGain : ℚ
  enteredAt : ℤ

inductive NoFill
  | missingLaterEntryBars
  | legsOutOfSync
  | entryRiskCap

/-- The prints that the legs fill at: the next of each, and where the legs are synced the first two
that are close enough. -/
def entryPrints (sync : Option ℤ) (now : ℤ) (longs shorts : List Print) :
    Except NoFill (Print × Print) :=
  match next longs now, next shorts now with
  | some long, some short =>
    match sync with
    | none => .ok (long, short)
    | some sync =>
      (syncedPair (fun print => print.stamp - now ≤ ageLimit)
        (fun long short => long.stamp < short.stamp) sync (following longs now)
          (following shorts now)).elim (.error .legsOutOfSync) .ok
  | _, _ => .error .missingLaterEntryBars

def enter (bars : MinuteBars) (sync : Option ℤ) (now : ℤ) (candidate : Candidate) :
    Except NoFill Entry := do
  let prints ← entryPrints sync now (bars.points candidate.long) (bars.points candidate.short)
  let debit := sub prints.1.price prints.2.price
  let maxLoss :=
    mul (if candidate.structure_.isDebit then debit else add candidate.width debit) 100
  let maxGain :=
    mul (if candidate.structure_.isDebit then sub candidate.width debit else -debit) 100
  if maxLoss ≤ 0 ∨ maxLossBound < maxLoss ∨ maxGain ≤ 0 then .error .entryRiskCap
  else return ⟨debit, maxLoss, maxGain, max prints.1.stamp prints.2.stamp⟩

/-! ## Marks and exits -/

section Exit

variable (window : Window) (bars : MinuteBars) (sync : Option ℤ) (candidate : Candidate)

/-- The mark of the spread at an instant, from prints that are fresh. -/
def markAt (now : ℤ) : Option ℚ :=
  let longs := bars.points candidate.long
  let shorts := bars.points candidate.short
  match sync with
  | none =>
    (latest window.zone longs now).bind fun long =>
      (latest window.zone shorts now).map fun short => sub long short
  | some sync =>
    (syncedPair (fresh window.zone now) (fun long short => short.stamp < long.stamp) sync
      (seen longs now).reverse (seen shorts now).reverse).map fun prints =>
        sub prints.1.price prints.2.price

def mark (slot : ℕ) : Option ℚ :=
  window.timeline[slot]?.bind fun clock => markAt window bars sync candidate clock.instant

/-- The latest clock after `low` and up to `high` with a mark. -/
def backward (high low : ℕ) : Option (ℕ × ℚ) :=
  (List.range' (low + 1) (high - low)).reverse.findSome? fun slot =>
    (mark window bars sync candidate slot).map fun value => (slot, value)

inductive Status
  | closed
  | markedAtEnd

inductive ExitReason
  | expiryLastMark
  | targetPastDataEnd
  | cappedAtExpiry
  | noMarkAfterTarget
  | noMarkAfterEntry
  | nextClockMark
  | eodLastMark
  | eodNextSessionMark
  | holdMark

structure Exit where
  found : Option (ℕ × ℚ)
  status : Status
  reason : ExitReason

/-- The last mark on or before the expiry, and past the end of the data the last mark. -/
def expiryRule (slot : ℕ) (closedReason endReason : ExitReason) : Exit :=
  if window.lastSession < candidate.expiry then
    match backward window bars sync candidate (window.timeline.length - 1) slot with
    | none => ⟨none, .markedAtEnd, .noMarkAfterEntry⟩
    | some found => ⟨some found, .markedAtEnd, endReason⟩
  else
    match backward window bars sync candidate
      (window.lastSlot (window.lastBefore candidate.expiry)) slot with
    | none => ⟨none, .markedAtEnd, .noMarkAfterEntry⟩
    | some found => ⟨some found, .closed, closedReason⟩

/-- The first clock from `start` on with a mark, up to the expiry. -/
def walk (start : ℕ) : Option (ℕ × ℚ) :=
  ((List.range' start (window.timeline.length - start)).takeWhile fun slot =>
    window.timeline[slot]?.all fun clock => clock.day ≤ candidate.expiry).findSome? fun slot =>
      (mark window bars sync candidate slot).map fun value => (slot, value)

/-- Walk forward from a target, and by the expiry rule where no mark is met. -/
def walkOrExpire (slot start : ℕ) (reason : ExitReason) : Exit :=
  match walk window bars sync candidate start with
  | some found => ⟨some found, .closed, reason⟩
  | none => expiryRule window bars sync candidate slot .cappedAtExpiry .noMarkAfterTarget

/-- The sessions that a position may be held. -/
inductive HoldDays
  | one
  | three
  | five
  | ten

def HoldDays.count : HoldDays → ℕ
  | .one => 1
  | .three => 3
  | .five => 5
  | .ten => 10

inductive ExitMode
  | intraday
  | eod
  | hold (days : HoldDays)
  | expiry

def exit (slot : ℕ) (day : ℤ) : ExitMode → Exit
  | .expiry => expiryRule window bars sync candidate slot .expiryLastMark .targetPastDataEnd
  | .intraday => walkOrExpire window bars sync candidate slot (slot + 1) .nextClockMark
  | .eod =>
    match backward window bars sync candidate (window.lastSlot day) slot with
    | some found => ⟨some found, .closed, .eodLastMark⟩
    | none =>
      walkOrExpire window bars sync candidate slot (window.lastSlot day + 1) .eodNextSessionMark
  | .hold days =>
    match window.sessions[window.sessions.idxOf day + days.count]? with
    | none => expiryRule window bars sync candidate slot .cappedAtExpiry .targetPastDataEnd
    | some target =>
      walkOrExpire window bars sync candidate slot (window.lastSlot target) .holdMark

end Exit

/-! ## Outcomes -/

structure CostModel where
  commissionPerLeg : ℚ
  halfSpreadPerShare : ℚ
  multiplier : ℕ

/-- Every leg fills twice; each fill pays the commission and half the spread. -/
def CostModel.roundTrip (costs : CostModel) (legs : ℕ) : ℚ :=
  add (mul (mul ((2 * legs : ℕ) : ℚ) costs.halfSpreadPerShare) costs.multiplier)
    (mul ((2 * legs : ℕ) : ℚ) costs.commissionPerLeg)

/-- No costs, a flat cost, or one that is measured by the deltas of the legs. -/
inductive Costs
  | free
  | flat (model : CostModel)
  | measured

/-- The net of a gross amount. The measured costs refuse every candidate of a board, since no
candidate carries a delta. -/
def Costs.charge : Costs → Option (ℚ → ℚ)
  | .free => some id
  | .flat model => some fun gross => sub gross (model.roundTrip 2)
  | .measured => none

structure Filled where
  gross : ℚ
  net : ℚ
  entryAt : ℤ
  exitAt : ℤ
  holdMinutes : ℤ
  status : Status
  reason : ExitReason

inductive Outcome
  | noFill (reason : NoFill)
  | noPrice
  | filled (outcome : Filled)

/-- The difference to a mark, within the bounds of the structure. -/
def Entry.gross (entry : Entry) (mark : ℚ) : ℚ :=
  min entry.maxGain (max (-entry.maxLoss) (mul (sub mark entry.debit) 100))

section Evaluate

variable (window : Window) (key : CandidateKey) (bars : MinuteBars) (costs : Costs)
  (sync : Option ℤ)

/-- The mark and the instant of an exit. Without a mark a position is valued at its own entry. -/
def exitValue (entry : Entry) (found : Option (ℕ × ℚ)) : ℚ × ℤ :=
  match found with
  | none => (entry.debit, entry.enteredAt)
  | some (slot, value) =>
    (value, (window.timeline[slot]?.map DecisionClock.instant).getD entry.enteredAt)

def settle (entry : Entry) (charge : ℚ → ℚ) (left : Exit) : Filled :=
  let value := exitValue window entry left.found
  ⟨entry.gross value.1, charge (entry.gross value.1), entry.enteredAt, value.2,
    (value.2 - entry.enteredAt) / 60000, left.status, left.reason⟩

def evaluate (slot : ℕ) (clock : DecisionClock) (candidate : Candidate) (mode : ExitMode) :
    Outcome :=
  match enter bars sync clock.instant candidate with
  | .error reason => .noFill reason
  | .ok entry =>
    match costs.charge with
    | none => .noPrice
    | some charge =>
      .filled (settle window entry charge
        (exit window bars sync candidate slot clock.day mode))

inductive OutcomeError
  | notScheduled (day : ℤ) (minute : ℕ)

/-- The outcome of a candidate on the board of a clock, none where it is not on the board. -/
def candidateOutcome (day : ℤ) (minute : ℕ) (candidateId : String) (mode : ExitMode) :
    Except OutcomeError (Option Outcome) :=
  match window.slotOf day minute with
  | none => .error (.notScheduled day minute)
  | some slot =>
    let clock : DecisionClock := ⟨day, minute, window.zone.instantOf day minute⟩
    .ok (((candidates window key bars clock.instant).find? fun candidate =>
      candidate.id = candidateId).map fun candidate =>
        evaluate window bars costs sync slot clock candidate mode)

end Evaluate

end TreeOptions.Outcomes
