import TreeOptions.Foundations.Checked
import TreeOptions.Foundations.Grouping
import TreeOptions.Ingest.Records

/-!
# Ingestion

A payload of rows and a security master become a snapshot (`ingestSnapshot`). Each row is joined to
the one security whose ticker it carries, as far as that was knowable when the row was published,
and rows without one are reported together. The manifest is bound to the rows by their hashes, and
to the master, bars and actions by a hash of their texts, each kind sorted by its key
(`contentSha256`).
-/

set_option autoImplicit false

namespace TreeOptions.Ingest

open Checked

/-! ## Tickers -/

/-- Why a ticker has no security. -/
inductive ResolveError
  | unknown (symbol : String) (on : Date) (asOf : UTCDatetime)
  | ambiguous (symbol : String) (owners : List String) (on : Date) (asOf : UTCDatetime)
deriving DecidableEq

/-- The mappings of a ticker, each with the instant at which its record was knowable. -/
def index (records : List SecurityMasterRecord) (symbol : String) :
    List (UTCDatetime × TickerMappingRecord) :=
  records.flatMap fun record =>
    (record.tickerMappings.filter fun mapping => mapping.ticker = symbol).map fun mapping =>
      (record.availableAt, mapping)

/-- A mapping is in force on a date, and it and its record were knowable. -/
def covers (on : Date) (asOf : UTCDatetime) (entry : UTCDatetime × TickerMappingRecord) : Bool :=
  entry.1.order ≤ asOf.order && entry.2.effectiveFrom.order ≤ on.order &&
    (entry.2.effectiveTo.all fun last => on.order ≤ last.order) &&
      entry.2.availableAt.order ≤ asOf.order

def resolve (records : List SecurityMasterRecord) (symbol : String) (on : Date)
    (asOf : UTCDatetime) : Except ResolveError String :=
  match (index records symbol).filter (covers on asOf) with
  | [] => .error (.unknown symbol on asOf)
  | [entry] => .ok entry.2.securityId
  | entries =>
    .error (.ambiguous symbol
      (sortedBy String.toList (firstSeen (entries.map fun entry => entry.2.securityId))) on asOf)

/-! ## The snapshot -/

structure RawPayload where
  provider : String
  retrievedAt : Option UTCDatetime
  bars : List RawBarRow
  actions : List RawActionRow
  knownExclusions : List String

structure DatasetManifest where
  provider : String
  snapshotId : String
  schemaVersion : String
  normalizationCodeSha : String
  retrievedAt : Option UTCDatetime
  knownExclusions : List String
  sourceRowCount : ℕ
  barCount : ℕ
  actionCount : ℕ
  securityCount : ℕ
  sessionCoverage : Option (Date × Date)
  sourceRowHashes : List String
  contentSha256 : String

structure DatasetSnapshot where
  snapshotId : String
  master : List SecurityMasterRecord
  bars : List BarRecord
  actions : List CorporateActionRecord
  manifest : DatasetManifest

def manifestSchemaVersion : String :=
  "m2/1"

def contentDomain : List UInt8 :=
  Text.encode "tree-options-m1-content-v1".toList

def BarRecord.order (bar : BarRecord) : List Char ×ₗ (ℕ ×ₗ ℕ ×ₗ ℕ) ×ₗ List Char :=
  toLex (bar.securityId.toList, toLex (bar.session.order, bar.sourceRecordId.toList))

def CorporateActionRecord.order (action : CorporateActionRecord) :
    List Char ×ₗ (ℕ ×ₗ ℕ ×ₗ ℕ) ×ₗ List Char :=
  toLex (action.securityId.toList,
    toLex (action.effectiveSession.order, action.sourceRecordId.toList))

def SecurityMasterRecord.order (record : SecurityMasterRecord) : List Char :=
  record.securityId.toList

/-- The kinds whose ratio or amount has to be given. -/
def ActionKind.ratioed (kind : ActionKind) : Bool :=
  kind = .split || kind = .reverseSplit || kind = .stockDividend

/-- What the schema asks of an action of its kind. -/
def CorporateActionRecord.kindConsistent (action : CorporateActionRecord) : Bool :=
  (!action.kind.ratioed || action.ratioNumerator.isSome && action.ratioDenominator.isSome) &&
    (action.kind ≠ .cashDividend || action.cashAmount.isSome) &&
      ((action.kind ≠ .merger && action.kind ≠ .spinoff) || action.successorSecurityId.isSome)

inductive IngestError
  | ingestion (failures : List (String × ResolveError))
  | validation (sourceRecordId : String)

/-- The records so far, and the rows that were not resolved. -/
structure Progress where
  bars : List BarRecord
  actions : List CorporateActionRecord
  failures : List (String × ResolveError)

section Hashed

variable (sha256 : List UInt8 → String)

/-- The hash of the whole normalized content, each kind in its order. -/
def contentSha256 (master : List SecurityMasterRecord) (bars : List BarRecord)
    (actions : List CorporateActionRecord) : String :=
  sha256 (contentDomain ++
    ((sortedBy SecurityMasterRecord.order master).flatMap fun record =>
      canonicalBytes record.members) ++
    ((sortedBy BarRecord.order bars).flatMap fun bar => canonicalBytes bar.members) ++
    ((sortedBy CorporateActionRecord.order actions).flatMap fun action =>
      canonicalBytes action.members))

variable (master : List SecurityMasterRecord) (provider snapshotId : String)

def barOf (row : RawBarRow) (securityId : String) : BarRecord where
  securityId := securityId
  session := row.session
  opening := row.opening
  high := row.high
  low := row.low
  close := row.close
  volume := row.volume
  source := provider
  sourceRecordId := row.sourceRecordId
  sourceRowHash := sha256 (canonicalBytes row.members)
  snapshotId := snapshotId
  availableAt := row.availableAt

def actionOf (row : RawActionRow) (securityId : String) : CorporateActionRecord where
  securityId := securityId
  kind := row.kind
  effectiveSession := row.effectiveSession
  ratioNumerator := row.ratioNumerator
  ratioDenominator := row.ratioDenominator
  cashAmount := row.cashAmount
  successorSecurityId := row.successorSecurityId
  source := provider
  sourceRecordId := row.sourceRecordId
  sourceRowHash := sha256 (canonicalBytes row.members)
  snapshotId := snapshotId
  availableAt := row.availableAt

/-- A row that is not resolved is put down with the others. -/
def takeBar (progress : Progress) (row : RawBarRow) : Progress :=
  match resolve master row.vendorSymbol row.session row.availableAt with
  | .ok securityId =>
    { progress with bars := progress.bars ++ [barOf sha256 provider snapshotId row securityId] }
  | .error error =>
    { progress with failures := progress.failures ++ [(row.sourceRecordId, error)] }

/-- An action that its kind does not allow ends the ingestion. -/
def takeAction (progress : Progress) (row : RawActionRow) : Except IngestError Progress :=
  match resolve master row.vendorSymbol row.effectiveSession row.availableAt with
  | .ok securityId =>
    if (actionOf sha256 provider snapshotId row securityId).kindConsistent then
      .ok { progress with
        actions := progress.actions ++ [actionOf sha256 provider snapshotId row securityId] }
    else .error (.validation row.sourceRecordId)
  | .error error =>
    .ok { progress with failures := progress.failures ++ [(row.sourceRecordId, error)] }

/-- The first and the last session of the bars. -/
def sessionCoverage (bars : List BarRecord) : Option (Date × Date) :=
  let sessions := sortedBy Date.order (bars.map BarRecord.session)
  match sessions.head?, sessions.getLast? with
  | some first, some last => some (first, last)
  | _, _ => none

def rowHashes (payload : RawPayload) : List String :=
  sortedBy String.toList
    (payload.bars.map (fun row => sha256 (canonicalBytes row.members)) ++
      payload.actions.map fun row => sha256 (canonicalBytes row.members))

def manifestOf (payload : RawPayload) (normalizationCodeSha : String) (bars : List BarRecord)
    (actions : List CorporateActionRecord) : DatasetManifest where
  provider := payload.provider
  snapshotId := snapshotId
  schemaVersion := manifestSchemaVersion
  normalizationCodeSha := normalizationCodeSha
  retrievedAt := payload.retrievedAt
  knownExclusions := payload.knownExclusions
  sourceRowCount := payload.bars.length + payload.actions.length
  barCount := bars.length
  actionCount := actions.length
  securityCount := (firstSeen (bars.map BarRecord.securityId)).length
  sessionCoverage := sessionCoverage bars
  sourceRowHashes := rowHashes sha256 payload
  contentSha256 := contentSha256 sha256 master bars actions

end Hashed

def ingestSnapshot (sha256 : List UInt8 → String) (payload : RawPayload)
    (master : List SecurityMasterRecord) (snapshotId normalizationCodeSha : String) :
    Except IngestError DatasetSnapshot := do
  let started := payload.bars.foldl (takeBar sha256 master payload.provider snapshotId) ⟨[], [], []⟩
  let progress ← payload.actions.foldlM (takeAction sha256 master payload.provider snapshotId)
    started
  refuse (progress.failures ≠ []) (.ingestion progress.failures)
  return ⟨snapshotId, master, progress.bars, progress.actions,
    manifestOf sha256 master snapshotId payload normalizationCodeSha progress.bars
      progress.actions⟩

end TreeOptions.Ingest
