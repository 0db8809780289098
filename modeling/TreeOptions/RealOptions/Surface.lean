import TreeOptions.RealOptions.Overlay

/-!
# The point-in-time surface over a real overlay

Every query as of an instant first asks which file is visible: that of the latest session whose
publication instant has come. It then answers from that file, but for `contractsAsOf`, which takes
the expiries from the file and their strikes from the ladders of the whole capture.
-/

set_option autoImplicit false

namespace TreeOptions.RealOptions

open Checked Decimal Ledger
open Options (contractIdOf)

/-- A two-sided quote, as the fill engine is given it. -/
structure QuoteEvent where
  contractId : String
  exchangeTimestamp : ℤ
  receivedTimestamp : ℤ
  bid : ℚ
  ask : ℚ
  bidSize : ℕ
  askSize : ℕ
  quoteCondition : String
  source : String

/-- The schema of a quote: it is received no earlier than it was made. -/
def toQuoteEvent (contractId condition source : String) (received : ℤ)
    (snap : OptionQuoteSnapshot) : Except OverlayError QuoteEvent := do
  refuse (received < snap.exchangeTimestamp) .validation
  return {
    contractId := contractId
    exchangeTimestamp := snap.exchangeTimestamp
    receivedTimestamp := received
    bid := snap.bid
    ask := snap.ask
    bidSize := snap.bidSize
    askSize := snap.askSize
    quoteCondition := condition
    source := source }

/-- The snapshots of a day as quotes, that of the afternoon first. -/
def quotesOf (entry : OptionChainEntry) (source : String) (received : ℤ) :
    Except OverlayError (List QuoteEvent) :=
  (entry.quote1545.toList ++ [entry.quoteEod]).mapM
    (toQuoteEvent entry.contractId entry.quoteCondition source received)

/-- What was not found is answered with nothing, when it was a value that was asked for. -/
def orElse {Value : Type} (other : Value) (answer : Except OverlayError Value) :
    Except OverlayError Value :=
  match answer with
  | .error (.value _) => .ok other
  | answer => answer

variable (wall : ℤ → ℤ) (overlay : RealOptionOverlay)

/-- The latest session whose file is published by an instant. -/
def visibleFileSession (underlyingId : String) (asOf : ℤ) : Option ℤ :=
  (overlay.eligibleSessions underlyingId).reverse.find? fun session =>
    publicationInstant wall session ≤ asOf

def fileAsOf (underlyingId : String) (asOf : ℤ) : Except OverlayError OptionDayFile :=
  match visibleFileSession wall overlay underlyingId asOf with
  | none => .error (.noOptionFile underlyingId asOf)
  | some session => overlay.dayFile underlyingId session

/-- The entry of a contract in the visible file, if it has one. -/
def entryAsOf (underlyingId : String) (asOf : ℤ) (contractId : String) :
    Except OverlayError (Option OptionChainEntry) :=
  match visibleFileSession wall overlay underlyingId asOf with
  | none => .error (.noOptionFile underlyingId asOf)
  | some session => orElse none (some <$> overlay.entryFor underlyingId session contractId)

/-- The ids of the calls and puts of all ladders that are live in a session. -/
def gridIds (underlyingId : String) (session : ℤ) : Except OverlayError (List String) := do
  let cells ← (overlay.liveExpiriesOn underlyingId session).mapM fun expiration => do
    let ladder ← overlay.ladderFor underlyingId expiration
    return ladder.flatMap fun strike =>
      [contractIdOf underlyingId expiration .call strike,
        contractIdOf underlyingId expiration .put strike]
  return cells.flatten

/-- The contracts of the expiries in the visible file, by their ids. -/
def contractsAsOf (underlyingId : String) (asOf : ℤ) : Except OverlayError (List OptionContract) :=
  match visibleFileSession wall overlay underlyingId asOf with
  | none => .ok []
  | some session => do
      let ids ← gridIds overlay underlyingId session
      let contracts ← ids.mapM overlay.contract
      return sortedBy (fun contract => contract.contractId.toList) contracts

def liveExpiriesAsOf (underlyingId : String) (asOf : ℤ) : List ℤ :=
  match visibleFileSession wall overlay underlyingId asOf with
  | none => []
  | some session => overlay.liveExpiriesOn underlyingId session

/-- The quotes of a contract in the visible file, received when the file was. -/
def visibleQuotesAsOf (contractId : String) (asOf : ℤ) : Except OverlayError (List QuoteEvent) :=
  match overlay.contract contractId with
  | .error _ => .ok []
  | .ok contract =>
    match visibleFileSession wall overlay contract.underlyingSecurityId asOf with
    | none => .ok []
    | some session =>
      match overlay.entryFor contract.underlyingSecurityId session contractId with
      | .error _ => .ok []
      | .ok entry =>
        quotesOf { entry with contractId } overlay.spec.quoteSource
          (publicationInstant wall session)

/-- The middle of the underlying in the visible file. -/
def spotMidAsOf (underlyingId : String) (asOf : ℤ) : Except OverlayError ℚ := do
  let file ← fileAsOf wall overlay underlyingId asOf
  return roundContext (add file.underlyingBid file.underlyingAsk / 2)

end TreeOptions.RealOptions
