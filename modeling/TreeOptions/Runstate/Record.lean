import TreeOptions.Foundations.ChainedLog
import TreeOptions.Runstate.States

/-!
# Journal records

One record of the transition journal, its dump, its line and its hash. The dump
lists the members in the order of their keys, as the compact writer does.

Hashing and the validation of a decoded line come from outside (`Environment`);
what the code relies on is that a record's own dump validates to the record
(`Environment.Lawful`). Under it the lines of records can be read back
(`writes_line`), and a hash without collisions keeps records apart
(`collisionFree_journalFormat`).
-/

set_option autoImplicit false

namespace TreeOptions.Runstate

/-! ## Records -/

def runstateJournalDomain : List UInt8 :=
  Text.encode "tree-options-runstate-journal-v1".toList

def genesisPrev : String :=
  "0000000000000000000000000000000000000000000000000000000000000000"

/-- One journal line. -/
structure JournalRecord where
  seq : ℤ
  kind : String
  fromState : Option RunState
  toState : Option RunState
  reason : String
  actorPid : ℤ
  actorBootId : String
  atEpoch : ℤ
  manifestSha256 : Option String
  prevRecordSha256 : String
  recordSha256 : String

namespace JournalRecord

def stateValue : Option RunState → Json.Value
  | none => .null
  | some state => .str state.value

def textValue : Option String → Json.Value
  | none => .null
  | some text => .str text

/-- The members of the dump, in the order of their keys. -/
def modelDump (record : JournalRecord) : List (String × Json.Value) :=
  [("actor_boot_id", .str record.actorBootId),
    ("actor_pid", .int record.actorPid),
    ("at_epoch", .int record.atEpoch),
    ("from_state", stateValue record.fromState),
    ("kind", .str record.kind),
    ("manifest_sha256", textValue record.manifestSha256),
    ("prev_record_sha256", .str record.prevRecordSha256),
    ("reason", .str record.reason),
    ("record_sha256", .str record.recordSha256),
    ("seq", .int record.seq),
    ("to_state", stateValue record.toState)]

/-- The canonical text that is hashed: the dump without the record's own hash. -/
def hashedText (record : JournalRecord) : List Char :=
  Json.dumps (.obj (record.modelDump.filter fun member => member.1 ≠ "record_sha256"))

/-- The text of the record's line. -/
def line (record : JournalRecord) : List Char :=
  Json.dumps (.obj record.modelDump)

theorem plain_stateValue (state : Option RunState) : Json.Plain (stateValue state) := by
  cases state <;> trivial

theorem plain_textValue (text : Option String) : Json.Plain (textValue text) := by
  cases text <;> trivial

theorem plain_modelDump (record : JournalRecord) : Json.Plain (.obj record.modelDump) := by
  simp [modelDump, Json.Plain, Json.PlainMembers, plain_stateValue, plain_textValue]

theorem stateValue_injective : Function.Injective stateValue := by
  intro first second same
  cases first <;> cases second <;> simp_all [stateValue, RunState.value_injective.eq_iff]

theorem textValue_injective : Function.Injective textValue := by
  intro first second same
  cases first <;> cases second <;> simp_all [textValue]

theorem filter_modelDump (record : JournalRecord) :
    (record.modelDump.filter fun member => member.1 ≠ "record_sha256") =
      [("actor_boot_id", .str record.actorBootId),
        ("actor_pid", .int record.actorPid),
        ("at_epoch", .int record.atEpoch),
        ("from_state", stateValue record.fromState),
        ("kind", .str record.kind),
        ("manifest_sha256", textValue record.manifestSha256),
        ("prev_record_sha256", .str record.prevRecordSha256),
        ("reason", .str record.reason),
        ("seq", .int record.seq),
        ("to_state", stateValue record.toState)] := by
  simp [modelDump]

theorem plain_hashed (record : JournalRecord) :
    Json.Plain (.obj (record.modelDump.filter fun member => member.1 ≠ "record_sha256")) := by
  rw [filter_modelDump]
  simp [Json.Plain, Json.PlainMembers, plain_stateValue, plain_textValue]

theorem eq_of_hashedText_eq {first second : JournalRecord}
    (same : first.hashedText = second.hashedText)
    (stored : first.recordSha256 = second.recordSha256) : first = second := by
  have members := Json.dumps_injOn (plain_hashed first) (plain_hashed second) same
  rw [filter_modelDump, filter_modelDump] at members
  simp only [Json.Value.obj.injEq, List.cons.injEq, Prod.mk.injEq, Json.Value.str.injEq,
    Json.Value.int.injEq, stateValue_injective.eq_iff, textValue_injective.eq_iff, true_and,
    and_true] at members
  cases first
  cases second
  simp_all

end JournalRecord

/-! ## Hashing and decoding -/

/-- What the journal takes from outside: SHA-256 in hexadecimal, and the check of
a decoded line against the record's schema. -/
structure Environment where
  sha256Hex : List UInt8 → String
  modelValidate : Json.Value → Option JournalRecord

structure Environment.Lawful (env : Environment) : Prop where
  validates : ∀ record, env.modelValidate (.obj record.modelDump) = some record

variable (env : Environment)

def recordHash (record : JournalRecord) : String :=
  env.sha256Hex (runstateJournalDomain ++ Text.encode record.hashedText)

/-- The record as it is written: with its hash filled in. -/
def signed (record : JournalRecord) : JournalRecord :=
  { record with recordSha256 := recordHash env record }

def decodeRecord (line : List Char) : Option JournalRecord :=
  (Json.loads line).bind env.modelValidate

/-- The journal's line format and chain. -/
def journalFormat : Format JournalRecord where
  genesis := genesisPrev
  prev := JournalRecord.prevRecordSha256
  stored := JournalRecord.recordSha256
  digest := recordHash env
  decode := decodeRecord env

variable {env}

theorem recordHash_signed (record : JournalRecord) :
    recordHash env (signed env record) = recordHash env record := by
  have text : (signed env record).hashedText = record.hashedText := by
    simp [JournalRecord.hashedText, JournalRecord.modelDump, signed]
  rw [recordHash, recordHash, text]

theorem follows_signed {tail : String} {record : JournalRecord}
    (prev : record.prevRecordSha256 = tail) :
    (journalFormat env).Follows tail (signed env record) :=
  ⟨prev, (recordHash_signed record).symm⟩

/-- **A hash without collisions keeps records apart.** -/
theorem collisionFree_journalFormat (injective : Function.Injective env.sha256Hex)
    (fresh : ∀ bytes, env.sha256Hex bytes ≠ genesisPrev) :
    (journalFormat env).CollisionFree :=
  Format.collisionFree_of_text injective fresh (fun _ => rfl)
    (fun record => Json.printable_dumps _ record.plain_hashed)
    fun _ _ => JournalRecord.eq_of_hashedText_eq

theorem writes_line (lawful : env.Lawful) :
    (journalFormat env).Writes JournalRecord.line :=
  Format.writes_of_json (fun _ => rfl) JournalRecord.plain_modelDump lawful.validates

/-! ## An environment that can be computed -/

namespace JournalRecord

def stateOf : Json.Value → Option (Option RunState)
  | .null => some none
  | .str text => (RunState.ofValue text).map some
  | _ => none

def textOf : Json.Value → Option (Option String)
  | .null => some none
  | .str text => some (some text)
  | _ => none

/-- Read a record off its dump, the members in the order of their keys. -/
def ofDump : Json.Value → Option JournalRecord
  | .obj [("actor_boot_id", .str actorBootId), ("actor_pid", .int actorPid),
      ("at_epoch", .int atEpoch), ("from_state", fromState), ("kind", .str kind),
      ("manifest_sha256", manifestSha256), ("prev_record_sha256", .str prevRecordSha256),
      ("reason", .str reason), ("record_sha256", .str recordSha256), ("seq", .int seq),
      ("to_state", toState)] => do
      let fromState ← stateOf fromState
      let manifestSha256 ← textOf manifestSha256
      let toState ← stateOf toState
      return { seq, kind, fromState, toState, reason, actorPid, actorBootId, atEpoch,
               manifestSha256, prevRecordSha256, recordSha256 }
  | _ => none

theorem stateOf_stateValue (state : Option RunState) : stateOf (stateValue state) = some state := by
  cases state <;> simp [stateOf, stateValue, RunState.ofValue_value]

theorem textOf_textValue (text : Option String) : textOf (textValue text) = some text := by
  cases text <;> rfl

theorem ofDump_modelDump (record : JournalRecord) :
    ofDump (.obj record.modelDump) = some record := by
  simp [ofDump, modelDump, stateOf_stateValue, textOf_textValue]

end JournalRecord

/-- Every text is its own hash, and a record is read off its dump. -/
def plainEnvironment : Environment where
  sha256Hex := Text.markedBytes
  modelValidate := JournalRecord.ofDump

theorem lawful_plainEnvironment : plainEnvironment.Lawful :=
  ⟨JournalRecord.ofDump_modelDump⟩

theorem collisionFree_plainEnvironment : (journalFormat plainEnvironment).CollisionFree :=
  collisionFree_journalFormat Text.markedBytes_injective fun bytes =>
    Text.markedBytes_ne bytes (by decide)

end TreeOptions.Runstate
