import TreeOptions.Foundations.Checked
import TreeOptions.Foundations.Grouping
import TreeOptions.Foundations.Json
import TreeOptions.Foundations.Table
import TreeOptions.Foundations.TransitionSystem
import Mathlib.Data.Char
import Mathlib.Data.List.Lex

/-!
# The research lane's store

The store is one database with three tables: the objects, the audit rows and one row with
the committed head. An artifact is put once under its kind and key; a record that changes is
replaced. Both write the object, append an audit row and recompute the head in one
transaction, so they are one step of the database.

`verify` reads all three tables: each payload hashes to the hash its row claims, the objects
and the audit rows name the same keys, and the hash chain over the audit rows gives the
committed head.
-/

set_option autoImplicit false

namespace TreeOptions.Research

/-! ## Rows -/

/-- A row of the table `objects`. -/
structure ObjectRow where
  kind : String
  objectKey : String
  payloadSha256 : String
  payloadJson : List Char
  createdAt : String

def ObjectRow.key (row : ObjectRow) : String × String :=
  (row.kind, row.objectKey)

/-- A row of the table `audit`. The rows are in the order of `audit_seq`. -/
structure AuditRow where
  kind : String
  objectKey : String
  action : String
  prevSha256 : Option String
  nextSha256 : Option String
  occurredAt : String

def AuditRow.key (row : AuditRow) : String × String :=
  (row.kind, row.objectKey)

/-- What is computed from the content: the end of the hash chain and two counts. -/
structure Head where
  headSha256 : String
  events : ℕ
  objects : ℕ
  deriving DecidableEq

/-- The row of the table `audit_head`. -/
structure AuditHead where
  head : Head
  updatedAt : String

structure Database where
  objects : Table ObjectRow.key
  audit : List AuditRow
  auditHead : Option AuditHead

def Database.empty : Database where
  objects := Table.empty
  audit := []
  auditHead := none

/-- SHA-256 of a text, as hexadecimal text. -/
structure StoreEnvironment where
  sha256Hex : List Char → String

inductive StoreError where
  | unknownKind (kind : String)
  | contentConflict (kind key : String)
  | noSuchObject (kind key : String)
  | payloadTampering (kind key actual claimed : String)
  | orphanObjects (keys : List (String × String))
  | danglingAudit (keys : List (String × String))
  | missingAuditHead
  | auditHeadMismatch (committed : AuditHead) (computed : Head)

def kinds : List String :=
  ["run", "spec", "result", "evidence_snapshot", "comparison_row", "scenario_parent", "child",
    "quant_version", "quant_snapshot", "quant_experiment", "quant_provenance",
    "quant_backtest_period"]

/-! ## Canonical payloads -/

mutual
/-- The value with the members of every object sorted by name. -/
def sortKeys : Json.Value → Json.Value
  | .arr items => .arr (sortItems items)
  | .obj members => .obj (sortedBy (fun member => member.1.toList) (sortMembers members))
  | .null => .null
  | .bool truth => .bool truth
  | .int n => .int n
  | .float literal => .float literal
  | .str text => .str text

def sortItems : List Json.Value → List Json.Value
  | [] => []
  | item :: rest => sortKeys item :: sortItems rest

def sortMembers : List (String × Json.Value) → List (String × Json.Value)
  | [] => []
  | (name, value) :: rest => (name, sortKeys value) :: sortMembers rest
end

/-- The text that is stored and hashed. -/
def canonicalBody (payload : Json.Value) : List Char :=
  Json.dumps (sortKeys payload)

/-! ## The committed head -/

section Store

variable (env : StoreEnvironment)

/-- The text of an audit row in the hash chain. -/
def AuditRow.text (row : AuditRow) : List Char :=
  List.intercalate ['|'] ([row.kind, row.objectKey, row.action, row.prevSha256.getD "",
    row.nextSha256.getD "", row.occurredAt].map String.toList)

/-- The genesis value of the hash chain. -/
def zeros : String :=
  String.ofList (List.replicate 64 '0')

/-- The end of the hash chain over the audit rows. -/
def chain (rows : List AuditRow) : String :=
  rows.foldl (fun prev row => env.sha256Hex (prev.toList ++ '|' :: row.text)) zeros

def computeHead (db : Database) : Head where
  headSha256 := chain env db.audit
  events := db.audit.length
  objects := db.objects.rows.length

def refreshHead (now : String) (db : Database) : Database :=
  { db with auditHead := some ⟨computeHead env db, now⟩ }

/-! ## Writing -/

/-- The audit row of a write. -/
def ObjectRow.audited (row : ObjectRow) (action : String) (prev : Option String) : AuditRow where
  kind := row.kind
  objectKey := row.objectKey
  action := action
  prevSha256 := prev
  nextSha256 := some row.payloadSha256
  occurredAt := row.createdAt

@[simp] theorem ObjectRow.key_audited (row : ObjectRow) (action : String)
    (prev : Option String) : (row.audited action prev).key = row.key := rfl

/-- Write the object, append the audit row, and commit the head of the result. -/
def record (now : String) (db : Database) (row : ObjectRow) (action : String)
    (prev : Option String) : Database :=
  refreshHead env now
    { db with
      objects := db.objects.put row
      audit := db.audit ++ [row.audited action prev] }

def canonicalEntry (kind key : String) (payload : Json.Value) (atIso : String) : ObjectRow where
  kind := kind
  objectKey := key
  payloadSha256 := env.sha256Hex (canonicalBody payload)
  payloadJson := canonicalBody payload
  createdAt := atIso

/-- Record one immutable artifact: the same content again changes nothing, other content under
its key is refused. The time is read where the caller gives none. -/
def put (kind : String) (payload : Json.Value) (key atIso now : String) (db : Database) :
    Except StoreError (Database × String) :=
  if kind ∉ kinds then .error (.unknownKind kind)
  else
    let entry := canonicalEntry env kind key payload atIso
    match db.objects.find? (kind, key) with
    | some cur =>
      if cur.payloadSha256 = entry.payloadSha256 then .ok (db, entry.payloadSha256)
      else .error (.contentConflict kind key)
    | none => .ok (record env now db entry "put" none, entry.payloadSha256)

/-- Publish a new snapshot of a record that changes. -/
def replace (kind : String) (payload : Json.Value) (key atIso now : String) (db : Database) :
    Except StoreError (Database × String) :=
  if kind ∉ kinds then .error (.unknownKind kind)
  else
    let entry := canonicalEntry env kind key payload atIso
    match db.objects.find? (kind, key) with
    | none => .error (.noSuchObject kind key)
    | some cur =>
      .ok (record env now db entry "replace" (some cur.payloadSha256), entry.payloadSha256)

/-! ## Verification -/

def Database.objectKeys (db : Database) : List (String × String) :=
  db.objects.rows.map ObjectRow.key

def Database.auditedKeys (db : Database) : List (String × String) :=
  db.audit.map AuditRow.key

/-- Every stored payload hashes to the hash its row claims. -/
def checkPayloads (db : Database) : Except StoreError Unit :=
  match db.objects.rows.find? fun row => env.sha256Hex row.payloadJson ≠ row.payloadSha256 with
  | some row =>
    .error (.payloadTampering row.kind row.objectKey (env.sha256Hex row.payloadJson)
      row.payloadSha256)
  | none => .ok ⟨⟩

/-- The objects and the audit rows name the same keys. -/
def checkKeys (db : Database) : Except StoreError Unit := do
  let missingAudit := db.objectKeys.filter (· ∉ db.auditedKeys)
  Checked.refuse (missingAudit ≠ []) (.orphanObjects missingAudit)
  let danglingAudit := db.auditedKeys.dedup.filter (· ∉ db.objectKeys)
  Checked.refuse (danglingAudit ≠ []) (.danglingAudit danglingAudit)

/-- The committed head is the computed one. Without one the store has no content. -/
def checkHead (db : Database) : Except StoreError Unit :=
  let head := computeHead env db
  match db.auditHead with
  | none => Checked.refuse (head.events ≠ 0 ∨ head.objects ≠ 0) .missingAuditHead
  | some cur => Checked.refuse (cur.head ≠ head) (.auditHeadMismatch cur head)

def verify (db : Database) : Except StoreError Head := do
  checkPayloads env db
  checkKeys db
  checkHead env db
  return computeHead env db

/-! ## Runs -/

/-- The database, and beside each audit row the payload that was written with it. -/
structure StoreState where
  database : Database
  recorded : List (AuditRow × List Char)

inductive StoreAction where
  | put (kind : String) (payload : Json.Value) (key atIso now : String)
  | replace (kind : String) (payload : Json.Value) (key atIso now : String)
  /-- The table `objects` is edited outside the store. Its primary key is kept. -/
  | edit (objects : Table ObjectRow.key)

/-- A call that succeeds commits, and one that is refused is rolled back. -/
def StoreState.commit (state : StoreState) (payload : Json.Value)
    (result : Except StoreError (Database × String)) : StoreState :=
  match result with
  | .ok (next, _) =>
    { database := next
      recorded := state.recorded ++ (next.audit.drop state.database.audit.length).map
        fun row => (row, canonicalBody payload) }
  | .error _ => state

def storeSystem : System StoreState StoreAction where
  Initial state := state = ⟨Database.empty, []⟩
  step state
    | .put kind payload key atIso now =>
      some (state.commit payload (put env kind payload key atIso now state.database))
    | .replace kind payload key atIso now =>
      some (state.commit payload (replace env kind payload key atIso now state.database))
    | .edit objects =>
      some { state with database := { state.database with objects } }

end Store

end TreeOptions.Research
