import TreeOptions.Trex.Engine

/-!
# Put spreads

The legacy runners trade long put verticals. A `PutSpread` carries the checks of its schema, and
`decide` maps it, its book and one poll of the market to one action. A result is none where the
source raises: an operation on decimals without a result, and an exit reason the book does not know.
-/

set_option autoImplicit false

namespace TreeOptions.Trex

open Decimal

/-- Buy the higher strike and sell the lower. -/
@[ext] structure PutSpread where
  id : String
  underlying : String
  entryDate : ℤ
  expiry : ℤ
  longStrike : ℚ
  shortStrike : ℚ
  quantity : ℤ
  limitCap : ℚ
  exitDeadline : ℤ
  takeProfitFrac : Option ℚ
  quantity_pos : 0 < quantity
  limitCap_pos : 0 < limitCap
  fraction : ∀ frac ∈ takeProfitFrac, 0 ≤ frac ∧ frac ≤ 1
  strikes : shortStrike < longStrike
  deadline : exitDeadline < expiry
  entered : entryDate < exitDeadline

instance : DecidableEq PutSpread :=
  fun _ _ => decidable_of_iff' _ PutSpread.ext_iff

/-- A listed option. -/
structure OptionContract where
  symbol : String
  expiry : ℤ
  strike : ℚ
  right : Right

namespace PutSpread

variable (spread : PutSpread)

def width : ℚ :=
  sub spread.longStrike spread.shortStrike

/-- The contracts of the two legs, the long put first. -/
def contracts : List OptionContract :=
  [⟨spread.underlying, spread.expiry, spread.longStrike, .put⟩,
    ⟨spread.underlying, spread.expiry, spread.shortStrike, .put⟩]

end PutSpread

/-- The structures of a plan, under different ids. -/
structure TradePlan where
  structures : List PutSpread
  distinct : (structures.map PutSpread.id).Nodup

theorem TradePlan.eq_of_id (plan : TradePlan) {first second : PutSpread}
    (inPlan : first ∈ plan.structures) (also : second ∈ plan.structures)
    (same : first.id = second.id) : first = second :=
  List.inj_on_of_nodup_map plan.distinct inPlan also same

/-! ## Decisions -/

inductive LegacyAction where
  | noAction (reason : String)
  | placeEntry (limit : ℚ)
  | abortEntry (reason : String)
  | exitOrder (reason : ExitReason) (limit : Option ℚ)

variable (cfg : EngineConfig) (spread : PutSpread) (st : StructureState) (snap : Snapshot)

/-- The price to enter at, the ask once the cycles are used up, within the cap. -/
def entryPrice (quote : ComboQuote) : Option LegacyAction := do
  let price ← (quote.ladder (cfg.entryMaxCycles ≤ st.entry.cycles) quote.ask).toOption
  let limit ← quantizeCents roundHalfUp (min price spread.limitCap)
  return .placeEntry limit

/-- The entry on its date. The order events of a working entry are the runner's. -/
def entryInWindow : Option LegacyAction :=
  if cfg.entryWindow.after snap.time then some (.abortEntry "entry window closed")
  else if cfg.entryWindow.before snap.time then some (.noAction "before entry window")
  else if st.status = .enterWorking then some (.noAction "entry working")
  else match snap.quotes spread.id with
    | none => some (.noAction "no quote")
    | some quote => entryPrice cfg spread st quote

def decideEntry : Option LegacyAction :=
  if spread.entryDate < snap.date then some (.abortEntry "entry date passed")
  else if snap.date < spread.entryDate then some (.noAction "before entry date")
  else entryInWindow cfg spread st snap

/-- An exit at the bid where it is forced or its cycles are used up, and at mid otherwise. Without
a quote it is pending. -/
def exitAt (reason : ExitReason) (force : Bool) : Option LegacyAction :=
  match snap.quotes spread.id with
  | none => some (.exitOrder reason none)
  | some quote =>
    if force ∨ cfg.exitMaxMidCycles ≤ st.exit.cycles then do
      let limit ← quantizeCents roundHalfUp quote.bid
      return .exitOrder reason (some limit)
    else do
      let limit ← quote.mid.toOption
      return .exitOrder reason (some limit)

/-- The reason of a working exit. -/
def storedReason (stored : Option String) : Option ExitReason :=
  match stored with
  | none => some .timeStop
  | some text => if text = "" then some .timeStop else ExitReason.ofValue text

/-- The spot is at the long strike or below it. -/
def touched : Option Bool :=
  match snap.spots spread.underlying with
  | none => some false
  | some spot => spot.le? spread.longStrike

def profitTaken : Option Bool :=
  match spread.takeProfitFrac, snap.quotes spread.id with
  | some frac, some quote => do
      let mid ← quote.mid.toOption
      let threshold ← quantizeCents roundHalfUp (mul frac spread.width)
      return decide (threshold ≤ mid)
  | _, _ => some false

def decideOpen : Option LegacyAction := do
  let touch ← touched spread snap
  if touch then exitAt cfg spread st snap .touch false
  else
    let profit ← profitTaken spread snap
    if profit then exitAt cfg spread st snap .takeProfit false
    else if spread.exitDeadline ≤ snap.date ∧ cfg.timeStopTime ≤ snap.time then
      exitAt cfg spread st snap .timeStop false
    else some (.noAction "hold")

def decideExit : Option LegacyAction :=
  if spread.expiry ≤ snap.date then exitAt cfg spread st snap .expirySafety true
  else if st.status = .exitWorking then do
    let reason ← storedReason st.exitReason
    exitAt cfg spread st snap reason
      (spread.exitDeadline ≤ snap.date ∧ cfg.exitForceTime ≤ snap.time)
  else decideOpen cfg spread st snap

/-- One structure, one tick, one decision. -/
def decideSpread : Option LegacyAction :=
  if st.status = .closed then some (.noAction "closed")
  else if st.status ∈ entryLane then decideEntry cfg spread st snap
  else decideExit cfg spread st snap

end TreeOptions.Trex
