import TreeOptions.Foundations.IsoDate
import TreeOptions.Options.Records

/-!
# The real option overlay

A capture of one underlying is parsed into a file for each session and a master of all contracts
that any row named. The overlay (`RealOptionOverlay.create`) checks the files and works out, once
and from the whole capture, the expiries of each session, the ladder of strikes of each expiry
and its listing window.

The file of a session is published at nine in the morning, New York time, of the next day that is
no weekend. The instant of nine o'clock on a date is a parameter (`wall`): it depends on
the date alone. Of a contract only what differs between contracts is kept; the multiplier and the
deliverable are the same for all.
-/

set_option autoImplicit false

namespace TreeOptions.RealOptions

open Checked Decimal Ledger
open Options (callPutText contractIdOf)

/-! ## Day files and the master -/

structure OptionQuoteSnapshot where
  exchangeTimestamp : ℤ
  bid : ℚ
  ask : ℚ
  bidSize : ℕ
  askSize : ℕ

/-- A contract in the file of a session. -/
structure OptionChainEntry where
  contractId : String
  quote1545 : Option OptionQuoteSnapshot
  quoteEod : OptionQuoteSnapshot
  openInterest : ℕ
  sameDayVolume : ℕ
  absDelta : ℚ
  quoteCondition : String

structure OptionDayFile where
  underlyingSecurityId : String
  session : ℤ
  receivedAt : ℤ
  underlyingBid : ℚ
  underlyingAsk : ℚ
  entries : List OptionChainEntry

/-- A contract of the master. Its listing window is the first and the last session it was seen
in. -/
structure OptionContract where
  contractId : String
  optionRoot : String
  underlyingSecurityId : String
  expiration : ℤ
  strike : ℚ
  callPut : CallPut
  listingStart : ℤ
  listingEnd : ℤ
deriving DecidableEq

/-- What the parser makes of a capture. Rows of another underlying are not mapped, contracts are
named after what they are, and a row of a file is in the master. -/
structure CboeEodParseResult where
  sourceSha256 : String
  underlyingSecurityId : String
  dayFiles : List (ℤ × OptionDayFile)
  contracts : List OptionContract
  sessions_nodup : (dayFiles.map Prod.fst).Nodup
  contracts_nodup : (contracts.map OptionContract.contractId).Nodup
  ofUnderlying : ∀ file ∈ dayFiles, file.2.underlyingSecurityId = underlyingSecurityId
  named : ∀ contract ∈ contracts, contract.underlyingSecurityId = underlyingSecurityId ∧
    contract.contractId = contractIdOf underlyingSecurityId contract.expiration contract.callPut
      contract.strike
  listed : ∀ file ∈ dayFiles, ∀ entry ∈ file.2.entries,
    ∃ contract ∈ contracts, contract.contractId = entry.contractId

/-- What is raised when an overlay is built or asked. -/
inductive OverlayError
  | multipleUnderlyings
  | receivedAt (session : ℤ)
  | pitInvariant (contractId : String) (session : ℤ)
  | value (message : String)
  | noOptionFile (underlyingId : String) (asOf : ℤ)
  | validation

/-! ## Publication -/

/-- Saturday or Sunday, by the Friday before. -/
def isWeekend (date : ℤ) : Bool :=
  weekday (date - 1) = 4 || weekday (date - 2) = 4

/-- The next day that is no weekend. One of three days is none. -/
def nextTradingSession (session : ℤ) : ℤ :=
  if isWeekend (session + 1) = false then session + 1
  else if isWeekend (session + 2) = false then session + 2
  else session + 3

section Wall

variable (wall : ℤ → ℤ)

def publicationInstant (session : ℤ) : ℤ :=
  wall (nextTradingSession session)

/-- The snapshots of an entry, the close first. -/
def OptionChainEntry.snapshots (entry : OptionChainEntry) : List OptionQuoteSnapshot :=
  entry.quoteEod :: entry.quote1545.toList

/-- No snapshot is later than the receipt of its file. -/
def validatePitInvariants (dayFiles : List (ℤ × OptionDayFile)) : Except OverlayError Unit :=
  (sortedBy Prod.fst dayFiles).forM fun file =>
    file.2.entries.forM fun entry =>
      refuse (∃ snap ∈ entry.snapshots, file.2.receivedAt < snap.exchangeTimestamp)
        (.pitInvariant entry.contractId file.1)

/-! ## The overlay -/

structure RealOverlaySpec where
  worldId : String
  quoteSource : String
  sourceSha256 : String

/-- What is worked out of a capture. A key that a dictionary does not have reads as nothing. -/
structure RealOptionOverlay where
  underlyingSecurityId : String
  sessions : List ℤ
  dayFiles : ℤ → Option OptionDayFile
  entries : ℤ → String → Option OptionChainEntry
  contracts : String → Option OptionContract
  expiries : ℤ → List ℤ
  ladders : ℤ → Option (List ℚ)
  expiryWindows : ℤ → Option (ℤ × ℤ)
  spec : RealOverlaySpec

def realOptionsProvider : String :=
  "cboe-option-eod/1"

/-- The last of some items that meets a condition, as a dictionary keeps the last of a key. -/
def lastWith {Item : Type} (condition : Item → Bool) (items : List Item) : Option Item :=
  items.reverse.find? condition

def fileOf (dayFiles : List (ℤ × OptionDayFile)) (session : ℤ) : Option OptionDayFile :=
  (lastWith (fun file => file.1 = session) dayFiles).map Prod.snd

def entryOf (file : OptionDayFile) (contractId : String) : Option OptionChainEntry :=
  lastWith (fun entry => entry.contractId = contractId) file.entries

def contractOf (contracts : List OptionContract) (contractId : String) : Option OptionContract :=
  lastWith (fun contract => contract.contractId = contractId) contracts

/-- The expiries that the master gives to the contracts of a file, in order. -/
def expiriesOf (contracts : List OptionContract) (file : OptionDayFile) : List ℤ :=
  sortedBy id (file.entries.filterMap fun entry =>
    (contractOf contracts entry.contractId).map OptionContract.expiration).dedup

/-- The values of the master as a dictionary. -/
def masterOf (contracts : List OptionContract) : List OptionContract :=
  contracts.filter fun contract => contractOf contracts contract.contractId = some contract

/-- The strikes that the master lists under an expiry, in order, where there are some. -/
def ladderOf (contracts : List OptionContract) (expiration : ℤ) : Option (List ℚ) :=
  match (masterOf contracts).filter fun contract => contract.expiration = expiration with
  | [] => none
  | first :: rest => some (sortedBy id ((first :: rest).map OptionContract.strike).dedup)

/-- The listing window of an expiry: its earliest start, and the latest end. -/
def windowOf (contracts : List OptionContract) (expiration : ℤ) : Option (ℤ × ℤ) :=
  match (masterOf contracts).filter fun contract => contract.expiration = expiration with
  | [] => none
  | first :: rest =>
    let start := rest.foldl (fun least contract => min least contract.listingStart)
      first.listingStart
    some ((first :: rest).foldl (fun least contract => min least contract.listingEnd) start,
      (first :: rest).foldl (fun most contract => max most contract.listingEnd) start)

/-- The world of an overlay is named after its underlying and its source. -/
def worldIdOf (underlyingId sourceSha256 : String) : String :=
  if underlyingId = "" then "cboe-eod/none"
  else "cboe-eod/" ++ underlyingId ++ "/" ++ String.ofList (sourceSha256.toList.take 12)

def RealOptionOverlay.create (dayFiles : List (ℤ × OptionDayFile)) (sourceSha256 : String)
    (contracts : List OptionContract) : Except OverlayError RealOptionOverlay := do
  let underlyings := (dayFiles.map fun file => file.2.underlyingSecurityId).dedup
  refuse (1 < underlyings.length) .multipleUnderlyings
  (sortedBy Prod.fst dayFiles).forM fun file =>
    refuse (file.2.receivedAt ≠ publicationInstant wall file.1) (.receivedAt file.1)
  validatePitInvariants dayFiles
  return {
    underlyingSecurityId := underlyings.head?.getD ""
    sessions := sortedBy id (dayFiles.map Prod.fst)
    dayFiles := fileOf dayFiles
    entries := fun session contractId =>
      (fileOf dayFiles session).bind fun file => entryOf file contractId
    contracts := contractOf contracts
    expiries := fun session => ((fileOf dayFiles session).map (expiriesOf contracts)).getD []
    ladders := ladderOf contracts
    expiryWindows := windowOf contracts
    spec := ⟨worldIdOf (underlyings.head?.getD "") sourceSha256, realOptionsProvider,
      sourceSha256⟩ }

def buildRealOverlay (result : CboeEodParseResult) : Except OverlayError RealOptionOverlay :=
  RealOptionOverlay.create wall result.dayFiles result.sourceSha256 result.contracts

end Wall

/-! ## Contracts by their ids -/

/-- A text cut at its dashes. -/
def splitDashes : List Char → List (List Char)
  | [] => [[]]
  | char :: rest =>
    if char = '-' then [] :: splitDashes rest
    else
      match splitDashes rest with
      | [] => [[char]]
      | part :: parts => (char :: part) :: parts

def joinDashes : List (List Char) → List Char
  | [] => []
  | [part] => part
  | part :: parts => part ++ '-' :: joinDashes parts

/-- A number of decimal digits. -/
def numberOf (text : List Char) : ℕ :=
  text.foldl (fun number char => 10 * number + (char.toNat - '0'.toNat)) 0

/-- A date as `%y%m%d` reads it: the years from 69 on are of the last century. -/
def shortDateOf (text : List Char) : Option ℤ :=
  let year := numberOf (text.take 2)
  civilOf (if 69 ≤ year then 1900 + year else 2000 + year) (numberOf ((text.drop 2).take 2))
    (numberOf (text.drop 4))

/-- The contract that an id names, where it is well formed. It knows no listing window, and begins
with the epoch. -/
def decomposeContractId (contractId : String) : Option OptionContract :=
  match (splitDashes contractId.toList).reverse with
  | strikeCents :: callPut :: yymmdd :: rest =>
    match rest.reverse with
    | kind :: first :: more =>
      let sid := joinDashes (first :: more)
      if kind = ['O', 'P', 'T'] ∧ strikeCents.length = 8 ∧ strikeCents.all Char.isDigit ∧
          (callPut = ['C'] ∨ callPut = ['P']) ∧ yymmdd.length = 6 ∧ yymmdd.all Char.isDigit ∧
          sid ≠ [] then
        (shortDateOf yymmdd).bind fun expiration =>
          if 0 ≤ expiration ∧ 0 < numberOf strikeCents then
            some {
              contractId := contractId
              optionRoot := String.ofList sid
              underlyingSecurityId := String.ofList sid
              expiration := expiration
              strike := numberOf strikeCents / 100
              callPut := if callPut = ['C'] then .call else .put
              listingStart := 0
              listingEnd := 0 }
          else none
      else none
    | _ => none
  | _ => none

namespace RealOptionOverlay

variable (overlay : RealOptionOverlay)

/-- A contract of the master, or else the well-formed cell of a ladder, which has no entries
anywhere. -/
def contract (contractId : String) : Except OverlayError OptionContract :=
  match overlay.contracts contractId with
  | some contract => .ok contract
  | none =>
    match decomposeContractId contractId with
    | none => .error (.value "unknown contract")
    | some candidate =>
      if candidate.underlyingSecurityId ≠ overlay.underlyingSecurityId then
        .error (.value "unknown contract")
      else
        match overlay.ladders candidate.expiration,
          overlay.expiryWindows candidate.expiration with
        | some ladder, some (start, stop) =>
          if candidate.strike ∈ ladder then
            .ok { candidate with
              optionRoot := overlay.underlyingSecurityId
              listingStart := start
              listingEnd := stop }
          else .error (.value "unknown contract")
        | _, _ => .error (.value "unknown contract")

def eligibleSessions (sid : String) : List ℤ :=
  if sid ≠ overlay.underlyingSecurityId then [] else overlay.sessions

def hasFile (sid : String) (session : ℤ) : Bool :=
  sid = overlay.underlyingSecurityId && (overlay.dayFiles session).isSome

def ladderFor (sid : String) (expiration : ℤ) : Except OverlayError (List ℚ) :=
  if sid ≠ overlay.underlyingSecurityId then .error (.value "no expiry")
  else
    match overlay.ladders expiration with
    | none => .error (.value "no expiry")
    | some ladder => .ok ladder

/-- The expiries of the chain that the file of a session contains. -/
def liveExpiriesOn (sid : String) (session : ℤ) : List ℤ :=
  if overlay.hasFile sid session = true then overlay.expiries session else []

def dayFile (sid : String) (session : ℤ) : Except OverlayError OptionDayFile :=
  if overlay.hasFile sid session = true then
    match overlay.dayFiles session with
    | some file => .ok file
    | none => .error (.value "no file")
  else .error (.value "no file")

def entryFor (sid : String) (session : ℤ) (contractId : String) :
    Except OverlayError OptionChainEntry :=
  if overlay.hasFile sid session = true then
    match overlay.entries session contractId with
    | some entry => .ok entry
    | none => .error (.value "not in the file")
  else .error (.value "no file")

end RealOptionOverlay

end TreeOptions.RealOptions
