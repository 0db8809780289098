import TreeOptions.Foundations.DefaultDict
import TreeOptions.Foundations.Grouping
import TreeOptions.Foundations.IsoDate
import TreeOptions.SealGate.Records
import Mathlib.Data.Char
import Mathlib.Data.List.Lex
import Mathlib.Data.Prod.Lex

/-!
# The six criteria of the sealed gate

Each criterion gives the list of its failures, and passes when there are none. The gate passes when
all of them do. Reading a payload of another shape raises, and then there is no verdict.
-/

set_option autoImplicit false

namespace TreeOptions.SealGate

/-! ## Manifest integrity -/

inductive ManifestFailure
  | eraMalformed (reason : String)
  | lane2NotVerified
  | otherManifest (stamped expected : String)
  | filesNotHeld (listed held : Option ℤ)
  | mastersFiles (found expected : ℤ)
  | custody (verified refused expected : ℤ)
  | lane1NotVerified
deriving DecidableEq

def criterionManifestIntegrity (lane1 lane2 : LaneCensus) (target : EraTarget)
    (contentHash : String) : Option (List ManifestFailure) :=
  match target with
  | .malformed reason => some [.eraMalformed reason]
  | .counts expectedMasters eraContracts => do
      let manifest := lane2.manifest
      let mastersFiles ← manifest.mastersFiles.getOr (-1)
      let verifiedSeries ← manifest.verifiedSeries.getOr (-1)
      let refused := lane2.rejectionClasses.masterRowRefusals
      return (if manifest.verified then [] else [.lane2NotVerified]) ++
        (if manifest.typedManifestContentHash ≠ contentHash then
          [.otherManifest manifest.typedManifestContentHash contentHash] else []) ++
        (if manifest.listedFiles ≠ manifest.heldPayloads then
          [.filesNotHeld manifest.listedFiles manifest.heldPayloads] else []) ++
        (if mastersFiles ≠ expectedMasters then
          [.mastersFiles mastersFiles expectedMasters] else []) ++
        (if verifiedSeries + refused ≠ eraContracts then
          [.custody verifiedSeries refused eraContracts] else []) ++
        (if lane1.manifest.verified then [] else [.lane1NotVerified])

/-! ## Candidate discipline -/

def flowMinSessionVolumeAmendment : ℤ := 100

def laneKey (arm : String) : String :=
  "lane2|" ++ arm

inductive CandidateFailure
  | protocolThreshold (threshold : Option ℤ)
  | provenanceNotAccepted (token : Option String)
  | notAmendment (key : String) (stamped : Option ℤ)
  | notProtocol (key : String) (stamped threshold : Option ℤ)
  | noOpenInterestDisclosure (key : String)
  | noEarningsDisclosure (key : String)
  | openInterestStamped (key : String) (positions : ℕ)
  | deltaShort (key : String) (positions : ℕ) (passed : ℤ)
  | starved (failure : CandidateFailure) (count : ℤ)
deriving DecidableEq

/-- The failures of an arm, each with the count of names that found no strike. -/
def noteStarved (starved : ℤ) (failures : List CandidateFailure) : List CandidateFailure :=
  if 0 < starved then failures.map fun failure => .starved failure starved else failures

def armCandidateFailures (threshold : Option ℤ) (key : String) (payload : TrialPayload) :
    List CandidateFailure :=
  let stamped := payload.flowMinSessionVolume
  let withOpenInterest := payload.positions.countP fun position =>
    position.fields.contains "open_interest"
  let passed := payload.ruleHistogram "delta" "PASS"
  noteStarved payload.noInBandStrike
    ((if stamped ≠ some flowMinSessionVolumeAmendment then [.notAmendment key stamped] else []) ++
      (if stamped ≠ threshold then [.notProtocol key stamped threshold] else []) ++
      (if payload.ruleHistogram "open_interest" "NOT_APPLICABLE" ≤ 0 then
        [.noOpenInterestDisclosure key] else []) ++
      (if payload.ruleHistogram "earnings_span" "NOT_APPLICABLE" ≤ 0 then
        [.noEarningsDisclosure key] else []) ++
      (if withOpenInterest ≠ 0 then [.openInterestStamped key withOpenInterest] else []) ++
      (if passed < payload.positions.length then
        [.deltaShort key payload.positions.length passed] else []))

/-- The payloads in the order of their arms. -/
def sortedPayloads (payloads : Named TrialPayload) : List (String × TrialPayload) :=
  sortedBy (fun row => row.1.toList) payloads.rows

def criterionCandidateDiscipline (threshold : Option ℤ) (lane2 : LaneCensus)
    (payloads : Named TrialPayload) : List CandidateFailure :=
  (if threshold ≠ some flowMinSessionVolumeAmendment then [.protocolThreshold threshold] else []) ++
    (if lane2.derivationProvenance.any fun token =>
        lane2.acceptedDeltaProvenance.contains token then []
      else [.provenanceNotAccepted lane2.derivationProvenance]) ++
    (sortedPayloads payloads).flatMap fun row =>
      armCandidateFailures threshold (laneKey row.1) row.2

/-! ## Fill discipline -/

/-- The arm, the contract and the bar session, as they are stamped. -/
abbrev BookKey : Type :=
  String × String × String

inductive FillFailure
  | notAfterDecision (key : String) (fillId : Entry String) (decision execution : String)
  | barNotReceived (key : String) (fillId : Entry String) (received execution : String)
  | noBarSession (key : String) (fillId : Entry String)
  | notASession (key : String) (fillId : Entry String) (bar execution : String)
  | ordinalGap (key : String) (fillId : Entry String) (gap : ℤ)
  | participation (book : BookKey) (quantity volume : ℤ)
deriving DecidableEq

/-- What a fill takes of a bar. -/
structure BookedFill where
  book : BookKey
  quantity : ℤ
  volume : ℤ

/-- How many sessions the bar lies before the execution. -/
def ordinalGap (calendar : Backtest.TradingCalendar) (execution bar : String) : Option ℤ := do
  let executed ← (dateFromIso execution).bind calendar.position
  let observed ← (dateFromIso bar).bind calendar.position
  return (executed : ℤ) - observed

/-- The failures of one fill, and what it takes of its bar unless it is skipped. -/
def judgeFill (calendar : Backtest.TradingCalendar) (key : String) (fill : Fill) :
    Option (List FillFailure × Option BookedFill) := do
  let decision ← fill.decisionSession.getOr "~"
  let execution ← fill.executionSession.value?
  if decision < execution then
    let received ← fill.quoteReceivedAt.getOr "~"
    let executionAt ← fill.executionAt.value?
    let late := if executionAt < received then
      [FillFailure.barNotReceived key fill.fillId received executionAt] else []
    match fill.barSession.value? with
    | none => return (late ++ [.noBarSession key fill.fillId], none)
    | some bar =>
      match ordinalGap calendar execution bar with
      | none => return (late ++ [.notASession key fill.fillId bar execution], none)
      | some gap =>
        let contract ← fill.contractId.asText
        let quantity ← fill.quantity.value?
        let volume ← fill.barVolume.getOr (-1)
        return (late ++ (if gap ≠ 1 then [.ordinalGap key fill.fillId gap] else []),
          some ⟨(key, contract, bar), quantity, volume⟩)
  else return ([.notAfterDecision key fill.fillId decision execution], none)

/-- The quantities so far, and the volumes that were stamped last. -/
structure Books where
  participation : DefaultDict BookKey (0 : ℤ)
  barVolumes : DefaultDict BookKey (0 : ℤ)

def Books.empty : Books :=
  ⟨.empty, .empty⟩

def Books.add (books : Books) (booked : BookedFill) : Books :=
  ⟨books.participation.set booked.book (books.participation.get booked.book + booked.quantity),
    books.barVolumes.set booked.book booked.volume⟩

/-- The order in which books are reported. -/
def bookOrder (book : BookKey) : List Char ×ₗ List Char ×ₗ List Char :=
  toLex (book.1.toList, toLex (book.2.1.toList, book.2.2.toList))

/-- The books of which more was taken than the volume that was stamped last. -/
def Books.exceeded (books : Books) : List FillFailure :=
  (sortedBy bookOrder (books.participation.keys.filter fun book =>
    books.barVolumes.get book < books.participation.get book)).map fun book =>
      .participation book (books.participation.get book) (books.barVolumes.get book)

/-- The stamped fills, arm by arm. -/
def fillRows (payloads : Named TrialPayload) : List (String × Fill) :=
  (sortedPayloads payloads).flatMap fun row => row.2.fillsLog.map fun fill => (laneKey row.1, fill)

def criterionFillDiscipline (payloads : Named TrialPayload)
    (calendar : Backtest.TradingCalendar) : Option (List FillFailure) := do
  let judged ← (fillRows payloads).mapM fun row => judgeFill calendar row.1 row.2
  let books := (judged.filterMap Prod.snd).foldl Books.add .empty
  return judged.flatMap Prod.fst ++ books.exceeded

/-! ## Rejection paths -/

inductive RejectionFailure
  | lane1Short (counted floor : ℤ)
  | lane2Short (counted floor : ℤ)
deriving DecidableEq

def criterionRejectionPaths (lane1 lane2 : LaneCensus) (payloads : Named TrialPayload)
    (floor lane1Floor : ℤ) : List RejectionFailure :=
  let flowFails := (payloads.rows.map fun row =>
    row.2.ruleHistogram "session_volume_flow" "FAIL").sum
  let counted := lane2.rejectionClasses.zeroVolumeBarRefusals +
    lane2.rejectionClasses.massiveDerivationErrorRefusals +
    lane2.rejectionClasses.masterRowRefusals + flowFails
  (if lane1.rejectionClasses.firingParseRefusals < lane1Floor then
    [.lane1Short lane1.rejectionClasses.firingParseRefusals lane1Floor] else []) ++
    if counted < floor then [.lane2Short counted floor] else []

/-! ## Determinism -/

inductive DeterminismFailure
  | aliased
  | noReplay
  | missing (name : String)
  | extra (name : String)
  | diverged (name : String)
deriving DecidableEq

def criterionDeterminism (stamped : Named String) (replay? : Option (Named String))
    (aliased : Bool) : List DeterminismFailure :=
  if aliased then [.aliased]
  else match replay? with
    | none => [.noReplay]
    | some replay =>
      let names := stamped.rows.map Prod.fst
      let replayed := replay.rows.map Prod.fst
      ((names.filter fun name => name ∉ replayed).map .missing) ++
        ((replayed.filter fun name => name ∉ names).map .extra) ++
        (names.filter fun name => name ∈ replayed ∧
          (stamped.find? name).map Prod.snd ≠ (replay.find? name).map Prod.snd).map .diverged

/-! ## The mutation campaign -/

inductive MutationFailure
  | notSupplied
  | malformed (reason : String)
  | notAllKilled (killed total : ℤ)
  | notRestored
  | notFull (mode : Option String)
  | countNotInteger
  | countNotTotal (count total : ℤ)
  | jobsNotPositive
  | entriesNotTotal (entries : ℕ) (total : ℤ)
  | duplicateIds
  | verdictsNotTotal (killed : ℕ) (total : ℤ)
  | gateNotCovered
  | noRegistry
  | omitted (count : ℕ)
  | foreign (count : ℕ)
  | otherDigest (stamped : Option String)
  | otherHead (stamped : Option String)
deriving DecidableEq

/-- The mutant is one of the gate's own logic. -/
def MutantEntry.covers (entry : MutantEntry) : Bool :=
  "g4".toList <:+: (entry.file ++ entry.invariant.toLower).toList

def selectionFailures (report : MutationReport) (total : ℤ) : List MutationFailure :=
  let mode := report.selection.bind Selection.mode
  if mode ≠ some "full" then [.notFull mode]
  else
    (match report.selection.bind Selection.count with
      | none => [.countNotInteger]
      | some count => if count ≠ total then [.countNotTotal count total] else []) ++
      if report.jobs.any fun jobs => 1 ≤ jobs then [] else [.jobsNotPositive]

def registryFailures (report : MutationReport) (ids? : Option (Finset String))
    (digest? : Option String) : List MutationFailure :=
  match ids?, digest? with
  | some ids, some digest =>
    let reported := (report.mutants.map fun entry => entry.id.getText).toFinset
    (if ids \ reported ≠ ∅ then [.omitted (ids \ reported).card] else []) ++
      (if reported \ ids ≠ ∅ then [.foreign (reported \ ids).card] else []) ++
      if report.registryDigest ≠ some digest then [.otherDigest report.registryDigest] else []
  | _, _ => [.noRegistry]

def headFailures (report : MutationReport) (head? : Option String) : List MutationFailure :=
  if head?.any fun head => report.head ≠ some head then [.otherHead report.head] else []

def reportFailures (report : MutationReport) (ids? : Option (Finset String))
    (digest? head? : Option String) : Option (List MutationFailure) := do
  let total ← report.total.getOr (-1)
  let killed ← report.killed.getOr (-1)
  let ids := report.mutants.map fun entry => entry.id.getText
  let killedEntries := report.mutants.countP fun entry => entry.verdict.getText = "KILLED"
  return (if killed ≠ total then [.notAllKilled killed total] else []) ++
    (if report.restorationSuitePassed then [] else [.notRestored]) ++
    selectionFailures report total ++
    (if total ≠ ids.length then [.entriesNotTotal ids.length total] else []) ++
    (if ids.Nodup then [] else [.duplicateIds]) ++
    (if (killedEntries : ℤ) ≠ total then [.verdictsNotTotal killedEntries total] else []) ++
    (if report.mutants.any MutantEntry.covers then [] else [.gateNotCovered]) ++
    registryFailures report ids? digest? ++ headFailures report head?

def criterionMutationCampaign (supplied : SuppliedReport) (ids? : Option (Finset String))
    (digest? head? : Option String) : Option (List MutationFailure) :=
  match supplied with
  | .missing => some [.notSupplied]
  | .malformed reason => some [.malformed reason]
  | .report report => reportFailures report ids? digest? head?

/-! ## The verdict -/

/-- The failures of each criterion. -/
structure G4GateEvaluation where
  manifestIntegrity : List ManifestFailure
  candidateDiscipline : List CandidateFailure
  fillDiscipline : List FillFailure
  rejectionPaths : List RejectionFailure
  determinism : List DeterminismFailure
  mutationCampaign : List MutationFailure
deriving DecidableEq

inductive GateVerdict
  | pass
  | fail

def G4GateEvaluation.verdict (evaluation : G4GateEvaluation) : GateVerdict :=
  if evaluation = ⟨[], [], [], [], [], []⟩ then .pass else .fail

def evaluateG4Criteria (input : GateInput) : Option G4GateEvaluation := do
  let manifestIntegrity ← criterionManifestIntegrity input.lane1Census input.lane2Census
    input.eraTarget input.lane2ManifestContentHash
  let fillDiscipline ← criterionFillDiscipline input.trialPayloads input.executionCalendar
  let mutationCampaign ← criterionMutationCampaign input.mutationReport input.mutationRegistryIds
    input.mutationRegistryDigest input.head
  return ⟨manifestIntegrity,
    criterionCandidateDiscipline input.protocolThreshold input.lane2Census input.trialPayloads,
    fillDiscipline,
    criterionRejectionPaths input.lane1Census input.lane2Census input.trialPayloads
      input.rejectionFloor input.rejectionLane1Floor,
    criterionDeterminism input.stampedHashes input.replayHashes input.replayAliased,
    mutationCampaign⟩

end TreeOptions.SealGate
