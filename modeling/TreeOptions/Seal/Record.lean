import TreeOptions.Foundations.ChainedLog
import TreeOptions.Seal.Identity

/-!
# Seal-ledger records

One record of the authority ledger: its kind, the identity it is about with both
ids of that identity as stored, and the chain. The dump lists the members in the
order of their keys, as the compact writer does.

Hashing and the validation of a decoded line come from outside (`Environment`).
-/

set_option autoImplicit false

namespace TreeOptions.Seal

def ledgerDomain : List UInt8 :=
  Text.encode "tree-options-g4-ledger-v1".toList

def genesisPrev : String :=
  "0000000000000000000000000000000000000000000000000000000000000000"

inductive RecordKind where
  | approval
  | consumption
  | reconciliation
  | reconciliationNote
  deriving DecidableEq

namespace RecordKind

def value : RecordKind → String
  | approval => "APPROVAL"
  | consumption => "CONSUMPTION"
  | reconciliation => "RECONCILIATION"
  | reconciliationNote => "RECONCILIATION_NOTE"

/-- The kind a text names. -/
def ofValue (text : String) : Option RecordKind :=
  [approval, consumption, reconciliation, reconciliationNote].find? fun kind => kind.value = text

theorem ofValue_value (kind : RecordKind) : ofValue kind.value = some kind := by
  cases kind <;> decide

theorem value_injective : Function.Injective value := by
  intro first second same
  have read := ofValue_value first
  rw [same, ofValue_value] at read
  exact (Option.some.inj read).symm

end RecordKind

/-- One ledger line. -/
structure LedgerRecord where
  kind : RecordKind
  identity : SealedIdentity
  sealedRunId : String
  contentIdentity : String
  reason : String
  atEpoch : ℤ
  prevRecordSha256 : String
  recordSha256 : String

namespace LedgerRecord

/-- The members of the dump, in the order of their keys. -/
def modelDump (record : LedgerRecord) : List (String × Json.Value) :=
  [("at_epoch", .int record.atEpoch),
    ("content_identity", .str record.contentIdentity),
    ("identity", .obj record.identity.modelDump),
    ("kind", .str record.kind.value),
    ("prev_record_sha256", .str record.prevRecordSha256),
    ("reason", .str record.reason),
    ("record_sha256", .str record.recordSha256),
    ("sealed_run_id", .str record.sealedRunId)]

/-- The canonical text that is hashed: the dump without the record's own hash. -/
def hashedText (record : LedgerRecord) : List Char :=
  Json.dumps (.obj (record.modelDump.filter fun member => member.1 ≠ "record_sha256"))

/-- The text of the record's line. -/
def encode (record : LedgerRecord) : List Char :=
  Json.dumps (.obj record.modelDump)

theorem plain_modelDump (record : LedgerRecord) : Json.Plain (.obj record.modelDump) := by
  have identity := Seal.plain_modelDump record.identity
  simp_all [modelDump, Json.Plain, Json.PlainMembers]

theorem filter_modelDump (record : LedgerRecord) :
    (record.modelDump.filter fun member => member.1 ≠ "record_sha256") =
      [("at_epoch", .int record.atEpoch),
        ("content_identity", .str record.contentIdentity),
        ("identity", .obj record.identity.modelDump),
        ("kind", .str record.kind.value),
        ("prev_record_sha256", .str record.prevRecordSha256),
        ("reason", .str record.reason),
        ("sealed_run_id", .str record.sealedRunId)] := by
  simp [modelDump]

theorem plain_hashed (record : LedgerRecord) :
    Json.Plain (.obj (record.modelDump.filter fun member => member.1 ≠ "record_sha256")) := by
  have identity := Seal.plain_modelDump record.identity
  rw [filter_modelDump]
  simp_all [Json.Plain, Json.PlainMembers]

theorem eq_of_hashedText_eq {first second : LedgerRecord}
    (same : first.hashedText = second.hashedText)
    (stored : first.recordSha256 = second.recordSha256) : first = second := by
  have members := Json.dumps_injOn (plain_hashed first) (plain_hashed second) same
  rw [filter_modelDump, filter_modelDump] at members
  simp only [Json.Value.obj.injEq, List.cons.injEq, Prod.mk.injEq, Json.Value.str.injEq,
    Json.Value.int.injEq, SealedIdentity.modelDump_injective.eq_iff,
    RecordKind.value_injective.eq_iff, true_and, and_true] at members
  cases first
  cases second
  simp_all

end LedgerRecord

/-! ## Hashing and decoding -/

/-- What the ledger takes from outside: SHA-256 in hexadecimal, and the check of
a decoded line against the record's schema. -/
structure Environment where
  sha256Hex : List UInt8 → String
  modelValidate : Json.Value → Option LedgerRecord

structure Environment.Lawful (env : Environment) : Prop where
  validates : ∀ record, env.modelValidate (.obj record.modelDump) = some record

variable (env : Environment)

def recordHash (record : LedgerRecord) : String :=
  env.sha256Hex (ledgerDomain ++ Text.encode record.hashedText)

/-- The record as it is written: with its hash filled in. -/
def signed (record : LedgerRecord) : LedgerRecord :=
  { record with recordSha256 := recordHash env record }

def decodeRecord (line : List Char) : Option LedgerRecord :=
  (Json.loads line).bind env.modelValidate

/-- The ledger's line format and chain. -/
def ledgerFormat : Format LedgerRecord where
  genesis := genesisPrev
  prev := LedgerRecord.prevRecordSha256
  stored := LedgerRecord.recordSha256
  digest := recordHash env
  decode := decodeRecord env

variable {env}

theorem recordHash_signed (record : LedgerRecord) :
    recordHash env (signed env record) = recordHash env record := by
  have text : (signed env record).hashedText = record.hashedText := by
    simp [LedgerRecord.hashedText, LedgerRecord.modelDump, signed]
  rw [recordHash, recordHash, text]

theorem follows_signed {tail : String} {record : LedgerRecord}
    (prev : record.prevRecordSha256 = tail) :
    (ledgerFormat env).Follows tail (signed env record) :=
  ⟨prev, (recordHash_signed record).symm⟩

/-- **A hash without collisions keeps records apart.** -/
theorem collisionFree_ledgerFormat (injective : Function.Injective env.sha256Hex)
    (fresh : ∀ bytes, env.sha256Hex bytes ≠ genesisPrev) :
    (ledgerFormat env).CollisionFree :=
  Format.collisionFree_of_text injective fresh (fun _ => rfl)
    (fun record => Json.printable_dumps _ record.plain_hashed)
    fun _ _ => LedgerRecord.eq_of_hashedText_eq

theorem writes_encode (lawful : env.Lawful) :
    (ledgerFormat env).Writes LedgerRecord.encode :=
  Format.writes_of_json (fun _ => rfl) LedgerRecord.plain_modelDump lawful.validates

/-! ## An environment that can be computed -/

/-- Read an identity off its dump, the members in the order of their keys. -/
def SealedIdentity.ofDump : Json.Value → Option SealedIdentity
  | .obj [("calendar_decision_artifact_sha256", .str calendarDecisionArtifactSha256),
      ("code_sha", .str codeSha), ("criteria_artifact_sha256", .str criteriaArtifactSha256),
      ("lane1_manifest_sha256", .str lane1ManifestSha256),
      ("lane2_manifest_sha256", .str lane2ManifestSha256),
      ("protocol_hash", .str protocolHash), ("runner_version", .str runnerVersion),
      ("verified_packet_sha256", .str verifiedPacketSha256)] =>
      some { codeSha, protocolHash, lane1ManifestSha256, lane2ManifestSha256,
             calendarDecisionArtifactSha256, runnerVersion, criteriaArtifactSha256,
             verifiedPacketSha256 }
  | _ => none

/-- Read a record off its dump, the members in the order of their keys. -/
def LedgerRecord.ofDump : Json.Value → Option LedgerRecord
  | .obj [("at_epoch", .int atEpoch), ("content_identity", .str contentIdentity),
      ("identity", identity), ("kind", .str kind),
      ("prev_record_sha256", .str prevRecordSha256), ("reason", .str reason),
      ("record_sha256", .str recordSha256), ("sealed_run_id", .str sealedRunId)] => do
      let identity ← SealedIdentity.ofDump identity
      let kind ← RecordKind.ofValue kind
      return { kind, identity, sealedRunId, contentIdentity, reason, atEpoch,
               prevRecordSha256, recordSha256 }
  | _ => none

theorem LedgerRecord.ofDump_modelDump (record : LedgerRecord) :
    ofDump (.obj record.modelDump) = some record := by
  have identity : SealedIdentity.ofDump (.obj record.identity.modelDump) =
      some record.identity := by
    simp [SealedIdentity.ofDump, SealedIdentity.modelDump]
  simp [ofDump, modelDump, identity, RecordKind.ofValue_value]

/-- Every text is its own hash, and a record is read off its dump. -/
def plainEnvironment : Environment where
  sha256Hex := Text.markedBytes
  modelValidate := LedgerRecord.ofDump

theorem lawful_plainEnvironment : plainEnvironment.Lawful :=
  ⟨LedgerRecord.ofDump_modelDump⟩

theorem collisionFree_plainEnvironment : (ledgerFormat plainEnvironment).CollisionFree :=
  collisionFree_ledgerFormat Text.markedBytes_injective fun bytes =>
    Text.markedBytes_ne bytes (by decide)

/-- The identity of a run over made-up inputs. -/
def sampleIdentity : SealedIdentity where
  codeSha := "c0de"
  protocolHash := "9706"
  lane1ManifestSha256 := "1a1"
  lane2ManifestSha256 := "1a2"
  calendarDecisionArtifactSha256 := "ca1"
  runnerVersion := "g4-runner-v1"
  criteriaArtifactSha256 := "c41"
  verifiedPacketSha256 := "9ac"

/-- A record about it that names the given tail. -/
def sampleRecord (kind : RecordKind) (prevRecordSha256 : String) : LedgerRecord where
  kind := kind
  identity := sampleIdentity
  sealedRunId := Seal.sealedRunId plainEnvironment.sha256Hex sampleIdentity
  contentIdentity := Seal.contentIdentity plainEnvironment.sha256Hex sampleIdentity
  reason := "owner"
  atEpoch := 1756000000
  prevRecordSha256 := prevRecordSha256
  recordSha256 := ""

end TreeOptions.Seal
