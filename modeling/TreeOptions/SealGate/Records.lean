import TreeOptions.Backtest.Calendar
import TreeOptions.Foundations.Dates
import TreeOptions.Foundations.Table

/-!
# What the sealed gate reads

The payloads that were stamped, the censuses of the lanes, the hashes of a replay and the report of
the mutation campaign. A key of a mapping may be absent or null, and reading it as something else
raises.
-/

set_option autoImplicit false

namespace TreeOptions.SealGate

/-! ## Mappings -/

/-- What a mapping holds at a key. -/
inductive Entry (Value : Type)
  | absent
  | null
  | of (value : Value)
deriving DecidableEq

namespace Entry

variable {Value : Type}

def value? : Entry Value → Option Value
  | absent => none
  | null => none
  | of value => some value

/-- `mapping.get(key, default)`, as something that a null is not. -/
def getOr (default' : Value) : Entry Value → Option Value
  | absent => some default'
  | null => none
  | of value => some value

/-- `str(mapping[key])`. -/
def asText : Entry String → Option String
  | absent => none
  | null => some "None"
  | of text => some text

/-- `str(mapping.get(key))`. -/
def getText : Entry String → String
  | absent => "None"
  | null => "None"
  | of text => text

end Entry

/-! ## Stamped payloads -/

/-- A fill as it is stamped. -/
structure Fill where
  fillId : Entry String
  contractId : Entry String
  quantity : Entry ℤ
  decisionSession : Entry String
  executionSession : Entry String
  executionAt : Entry String
  quoteReceivedAt : Entry String
  barSession : Entry String
  barVolume : Entry ℤ
deriving DecidableEq

/-- A position as it is stamped, with the names of its fields. -/
structure Position where
  fields : List String

/-- The payload of a trial. The histogram of rules is zero where it has no count. -/
structure TrialPayload where
  fillsLog : List Fill
  flowMinSessionVolume : Option ℤ
  ruleHistogram : String → String → ℤ
  noInBandStrike : ℤ
  positions : List Position

/-! ## Censuses -/

structure LaneManifest where
  verified : Bool
  typedManifestContentHash : String
  listedFiles : Option ℤ
  heldPayloads : Option ℤ
  mastersFiles : Entry ℤ
  verifiedSeries : Entry ℤ

structure RejectionClasses where
  firingParseRefusals : ℤ
  zeroVolumeBarRefusals : ℤ
  massiveDerivationErrorRefusals : ℤ
  masterRowRefusals : ℤ

structure LaneCensus where
  manifest : LaneManifest
  rejectionClasses : RejectionClasses
  acceptedDeltaProvenance : List String
  derivationProvenance : Option String

/-- What the era census stamps, unless it can no longer be evaluated. -/
inductive EraTarget
  | malformed (reason : String)
  | counts (expectedMasters distinctContracts : ℤ)

/-! ## The mutation report -/

structure Selection where
  mode : Option String
  count : Option ℤ

/-- One mutant of the report. -/
structure MutantEntry where
  id : Entry String
  verdict : Entry String
  file : String
  invariant : String

structure MutationReport where
  total : Entry ℤ
  killed : Entry ℤ
  restorationSuitePassed : Bool
  selection : Option Selection
  jobs : Option ℤ
  mutants : List MutantEntry
  registryDigest : Option String
  head : Option String

inductive SuppliedReport
  | missing
  | malformed (reason : String)
  | report (report : MutationReport)

/-! ## Everything together -/

/-- Payloads, hashes and the like, by name. -/
abbrev Named (Value : Type) : Type :=
  Table (Prod.fst : String × Value → String)

structure GateInput where
  protocolThreshold : Option ℤ
  lane1Census : LaneCensus
  lane2Census : LaneCensus
  trialPayloads : Named TrialPayload
  executionCalendar : Backtest.TradingCalendar
  stampedHashes : Named String
  replayHashes : Option (Named String)
  replayAliased : Bool
  mutationReport : SuppliedReport
  eraTarget : EraTarget
  mutationRegistryIds : Option (Finset String)
  mutationRegistryDigest : Option String
  head : Option String
  rejectionFloor : ℤ
  rejectionLane1Floor : ℤ
  lane2ManifestContentHash : String

end TreeOptions.SealGate
