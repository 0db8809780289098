import TreeOptions.Foundations.Json
import TreeOptions.Foundations.Table
import TreeOptions.Foundations.Text

/-!
# The trial registry's database

Four tables: the trials, their outcomes, the events in the order of their numbers,
and the cap each scope is committed to. The functions here are what the calls do to
the tables, each with its refusals: a registration (`register`), an outcome
(`complete`, `fail`), and the four statements of a start (`confirmProvenance`,
`checkRegistered`, `updateRunning`, `insertRunning`).

A registration and an outcome are one transaction: a refusal leaves the tables as
they were. What they do when they succeed is `register_ok` and `recordOutcome_ok`.
-/

set_option autoImplicit false

namespace TreeOptions.Registry

/-! ## Rows -/

inductive TrialStatus where
  | registered
  | running
  | completed
  | failed
  deriving DecidableEq

def TrialStatus.value : TrialStatus → String
  | registered => "REGISTERED"
  | running => "RUNNING"
  | completed => "COMPLETED"
  | failed => "FAILED"

inductive OutcomeKind where
  | completed
  | failed
  deriving DecidableEq

def OutcomeKind.status : OutcomeKind → TrialStatus
  | completed => .completed
  | failed => .failed

structure Trial where
  trialId : String
  scopeKey : String
  scopeJson : String
  hypothesis : String
  hyperparametersJson : String
  gitSha : String
  configHash : String
  datasetManifestHash : String
  registeredAt : String
  status : TrialStatus
  outcomeAt : Option String
  metricsUri : Option String
  failureReason : Option String

structure Outcome where
  trialId : String
  kind : OutcomeKind
  detailJson : String
  ts : String

structure Event where
  trialId : String
  kind : TrialStatus
  payloadJson : String
  ts : String

structure ScopeCommitment where
  scopeKey : String
  cap : ℤ
  committedAt : String

structure Database where
  trials : Table Trial.trialId
  outcomes : Table Outcome.trialId
  events : List Event
  scopeCommitments : Table ScopeCommitment.scopeKey

/-- The tables as they are created. -/
def Database.empty : Database :=
  ⟨.empty, .empty, [], .empty⟩

inductive RegistryError where
  | duplicateTrial (trialId : String)
  | unregisteredOutcome (trialId : String)
  | scopeBudgetExceeded (scopeKey : String) (cap : ℤ)
  | budgetTampered (cap : ℤ)
  | budgetCommitmentChanged (scopeKey : String) (committed live : ℤ)
  | nonCanonicalScope (scopeKey detail : String)
  | invalidTransition (trialId detail : String)
  | integrity

/-- What the registry takes from outside: SHA-256 in hexadecimal, and the database's
own JSON check. -/
structure Environment where
  sha256Hex : List UInt8 → String
  jsonValid : String → Bool

def dumpsMember (key text : String) : String :=
  String.ofList ('{' :: Json.dumps (.str key) ++ [':', ' '] ++ Json.dumps (.str text) ++ ['}'])

/-- The database accepts the objects that the registry writes. -/
structure Environment.Lawful (env : Environment) : Prop where
  accepts : ∀ key text, env.jsonValid (dumpsMember key text) = true

/-! ## Scopes and budgets -/

structure TrialScope where
  protocolId : String
  protocolHash : String
  outerFoldId : String
  targetHorizon : String
  featureSetId : String
  modelFamily : String

def TrialScope.canonicalJson (scope : TrialScope) : String :=
  String.ofList (Json.dumps (.obj [("feature_set_id", .str scope.featureSetId),
    ("model_family", .str scope.modelFamily), ("outer_fold_id", .str scope.outerFoldId),
    ("protocol_hash", .str scope.protocolHash), ("protocol_id", .str scope.protocolId),
    ("target_horizon", .str scope.targetHorizon)]))

def TrialScope.scopeKey (env : Environment) (scope : TrialScope) : String :=
  "scope-v1:" ++ env.sha256Hex (Text.encode scope.canonicalJson.toList)

/-- The number of registered trials of a scope. -/
def Database.countScope (db : Database) (scopeKey : String) : ℕ :=
  db.trials.count fun trial => trial.scopeKey = scopeKey

def maxScopeCap : ℤ :=
  32

/-- A budget as it is stored: nothing is trusted about its cap. -/
structure TrialBudget where
  cap : ℤ

/-- A budget as it is constructed. -/
def TrialBudget.ofCap (cap : ℤ) : Option TrialBudget :=
  if cap < 1 ∨ maxScopeCap < cap then none else some ⟨cap⟩

def TrialBudget.validatedCap (budget : TrialBudget) : Except RegistryError ℤ :=
  if 1 ≤ budget.cap ∧ budget.cap ≤ maxScopeCap then .ok budget.cap
  else .error (.budgetTampered budget.cap)

/-- Validate the cap and compare it with the count, in one read. -/
def TrialBudget.check (budget : TrialBudget) (db : Database) (scopeKey : String) :
    Except RegistryError ℤ :=
  match budget.validatedCap with
  | .error refusal => .error refusal
  | .ok stored =>
    if stored ≤ db.countScope scopeKey then .error (.scopeBudgetExceeded scopeKey stored)
    else .ok stored

/-- Commit every scope with trials that has no commitment yet. -/
def migrateCommitments (db : Database) (cap : ℤ) : Database :=
  { db with
    scopeCommitments := (db.trials.rows.map Trial.scopeKey).foldl
      (fun commitments scopeKey =>
        commitments.insertOrIgnore ⟨scopeKey, cap, "migrated-at-open"⟩) db.scopeCommitments }

/-! ## Registration -/

/-- The columns of a trial that a registration reads. -/
structure TrialRecord where
  trialId : String
  createdAt : String
  hypothesis : String
  gitSha : String
  configHash : String
  datasetManifestHash : String
  hyperparametersJson : String
  scopeKey : String

/-- The length of a text as the database counts it: up to the first NUL. -/
def sqlLength (text : String) : ℕ :=
  (text.toList.takeWhile fun c => c ≠ Char.ofNat 0).length

def TrialRecord.row (record : TrialRecord) (scopeJson : String) : Trial where
  trialId := record.trialId
  scopeKey := record.scopeKey
  scopeJson := scopeJson
  hypothesis := record.hypothesis
  hyperparametersJson := record.hyperparametersJson
  gitSha := record.gitSha
  configHash := record.configHash
  datasetManifestHash := record.datasetManifestHash
  registeredAt := record.createdAt
  status := .registered
  outcomeAt := none
  metricsUri := none
  failureReason := none

variable (env : Environment)

def insertTrial (db : Database) (trial : Trial) : Except RegistryError (Table Trial.trialId) :=
  if sqlLength trial.hypothesis < 8 ∨ env.jsonValid trial.hyperparametersJson = false then
    .error .integrity
  else match db.trials.insert trial with
    | none => .error (.duplicateTrial trial.trialId)
    | some trials => .ok trials

def insertEvent (db : Database) (event : Event) : Except RegistryError Database :=
  if env.jsonValid event.payloadJson = false then .error .integrity
  else .ok { db with events := db.events ++ [event] }

/-- The transaction of a registration. -/
def registerBlock (budget : TrialBudget) (db : Database) (record : TrialRecord)
    (scopeJson : String) : Except RegistryError Database :=
  match budget.check db record.scopeKey with
  | .error refusal => .error refusal
  | .ok cap =>
    match (db.scopeCommitments.find? record.scopeKey).filter fun committed =>
      committed.cap ≠ cap with
    | some committed => .error (.budgetCommitmentChanged record.scopeKey committed.cap cap)
    | none =>
      match insertTrial env db (record.row scopeJson) with
      | .error refusal => .error refusal
      | .ok trials =>
        insertEvent env
          { db with
            trials := trials
            scopeCommitments :=
              db.scopeCommitments.insertOrIgnore ⟨record.scopeKey, cap, record.createdAt⟩ }
          ⟨record.trialId, .registered, dumpsMember "scope" record.scopeKey,
            record.createdAt⟩

/-- Register a trial under the scope whose hash it carries. -/
def register (budget : TrialBudget) (db : Database) (record : TrialRecord)
    (scope : Option TrialScope) : Except RegistryError Database :=
  match scope with
  | none => .error (.nonCanonicalScope record.scopeKey
      "the TrialScope must be presented at registration")
  | some scope =>
    if scope.scopeKey env ≠ record.scopeKey then
      .error (.nonCanonicalScope record.scopeKey
        "scope_key does not derive from the presented TrialScope")
    else registerBlock env budget db record scope.canonicalJson

/-! ## Transitions -/

/-- The statuses a transition may start from. -/
def transitions : TrialStatus → List TrialStatus
  | .registered => []
  | .running => [.registered]
  | .completed => [.running]
  | .failed => [.running]

/-- The rows that a guarded update of the status changes. -/
def mayMove (trialId : String) (target : TrialStatus) (trial : Trial) : Bool :=
  trial.trialId = trialId && trial.status ∈ transitions target

/-- The guarded update of the status. -/
def updateStatus (trials : Table Trial.trialId) (trialId : String) (target : TrialStatus) :
    Table Trial.trialId :=
  trials.modify (mayMove trialId target) (fun trial => { trial with status := target })
    fun _ => rfl

/-- The columns an outcome fills in. -/
structure OutcomeColumns where
  outcomeAt : String
  metricsUri : Option String
  failureReason : Option String

def OutcomeColumns.set (columns : OutcomeColumns) (trial : Trial) : Trial :=
  { trial with
    outcomeAt := some columns.outcomeAt
    metricsUri := columns.metricsUri.or trial.metricsUri
    failureReason := columns.failureReason.or trial.failureReason }

/-- The update of the outcome's columns. -/
def setOutcome (trials : Table Trial.trialId) (trialId : String) (columns : OutcomeColumns) :
    Table Trial.trialId :=
  trials.modify (fun trial => trial.trialId = trialId) columns.set fun _ => rfl

def illegalTransition (current target : TrialStatus) : String :=
  current.value ++ " -> " ++ target.value ++ " is not a legal transition"

/-- The transaction of an outcome. -/
def recordOutcome (db : Database) (trialId : String) (kind : OutcomeKind)
    (detailJson ts : String) (columns : OutcomeColumns) : Except RegistryError Database :=
  if env.jsonValid detailJson = false then
    .error (.invalidTransition trialId "outcome already claimed")
  else match db.outcomes.insert ⟨trialId, kind, detailJson, ts⟩ with
    | none => .error (.invalidTransition trialId "outcome already claimed")
    | some outcomes =>
      if db.trials.count (mayMove trialId kind.status) ≠ 1 then
        match db.trials.find? trialId with
        | none => .error (.unregisteredOutcome trialId)
        | some trial =>
          .error (.invalidTransition trialId (illegalTransition trial.status kind.status))
      else
        -- the payload is the detail that was found valid above
        insertEvent env
          { db with
            outcomes := outcomes
            trials := setOutcome (updateStatus db.trials trialId kind.status) trialId columns }
          ⟨trialId, kind.status, detailJson, ts⟩

def complete (db : Database) (trialId metricsUri outcomeAt : String) :
    Except RegistryError Database :=
  recordOutcome env db trialId .completed (dumpsMember "metrics_uri" metricsUri) outcomeAt
    ⟨outcomeAt, some metricsUri, none⟩

def fail (db : Database) (trialId reason ts : String) : Except RegistryError Database :=
  recordOutcome env db trialId .failed (dumpsMember "reason" reason) ts ⟨ts, none, some reason⟩

/-! ## The statements of a start -/

/-- The first: the trial exists, under the same hashes. -/
def confirmProvenance (db : Database) (trialId gitSha configHash datasetManifestHash : String) :
    Except RegistryError Unit :=
  match db.trials.find? trialId with
  | none => .error (.unregisteredOutcome trialId)
  | some trial =>
    if (gitSha, configHash, datasetManifestHash) ≠
        (trial.gitSha, trial.configHash, trial.datasetManifestHash) then
      .error (.invalidTransition trialId "provenance hashes do not match the registration")
    else .ok ()

/-- The second: it is registered. -/
def checkRegistered (db : Database) (trialId : String) : Except RegistryError Unit :=
  match db.trials.find? trialId with
  | none => .error (.unregisteredOutcome trialId)
  | some trial =>
    if trial.status ∉ transitions .running then
      .error (.invalidTransition trialId (illegalTransition trial.status .running))
    else .ok ()

/-- The third, which does not look at the number of rows it changed. -/
def updateRunning (db : Database) (trialId : String) : Database :=
  { db with trials := updateStatus db.trials trialId .running }

/-- The fourth. -/
def insertRunning (db : Database) (trialId ts : String) : Except RegistryError Database :=
  insertEvent env db ⟨trialId, .running, dumpsMember "detail" "provenance confirmed", ts⟩

/-! ## What succeeds -/

variable {env} {db next : Database} {trialId : String}

theorem insertEvent_ok {event : Event} (inserted : insertEvent env db event = .ok next) :
    next = { db with events := db.events ++ [event] } := by
  rw [insertEvent] at inserted
  split at inserted
  · cases inserted
  · exact (Except.ok.inj inserted).symm

theorem insertTrial_ok {trial : Trial} {trials : Table Trial.trialId}
    (inserted : insertTrial env db trial = .ok trials) : db.trials.insert trial = some trials := by
  rw [insertTrial] at inserted
  split at inserted
  · cases inserted
  · split at inserted
    case h_1 => cases inserted
    case h_2 found => rwa [← Except.ok.inj inserted]

theorem check_ok {budget : TrialBudget} {scopeKey : String} {cap : ℤ}
    (checked : budget.check db scopeKey = .ok cap) :
    cap = budget.cap ∧ (db.countScope scopeKey : ℤ) < cap := by
  revert checked
  fun_cases TrialBudget.check budget db scopeKey with
  | case3 stored valid room =>
    intro checked
    cases checked
    rw [TrialBudget.validatedCap] at valid
    split at valid <;> cases valid
    exact ⟨rfl, by omega⟩
  | _ => exact nofun

/-- What a registration found and left. -/
structure Registration (db : Database) (trial : Trial) (cap : ℤ) (next : Database) : Prop where
  new : trial.status = .registered ∧ trial.metricsUri = none ∧ trial.failureReason = none
  room : (db.countScope trial.scopeKey : ℤ) < cap
  agrees : ∀ committed, db.scopeCommitments.find? trial.scopeKey = some committed →
    committed.cap = cap
  trials : db.trials.insert trial = some next.trials
  outcomes : next.outcomes = db.outcomes
  commitments : ∃ committedAt, next.scopeCommitments =
    db.scopeCommitments.insertOrIgnore ⟨trial.scopeKey, cap, committedAt⟩
  events : ∃ payload ts, next.events = db.events ++ [⟨trial.trialId, .registered, payload, ts⟩]

/-- **A registration had room under the cap of its budget**, which is the cap the
scope is committed to. -/
theorem register_ok {budget : TrialBudget} {record : TrialRecord} {scope : Option TrialScope}
    (registered : register env budget db record scope = .ok next) :
    ∃ scopeJson, Registration db (record.row scopeJson) budget.cap next := by
  revert registered
  fun_cases register env budget db record scope with
  | case3 scope =>
    fun_cases registerBlock env budget db record scope.canonicalJson with
    | case4 cap checked agrees trials inserted =>
      intro registered
      obtain ⟨rfl, room⟩ := check_ok checked
      obtain rfl := insertEvent_ok registered
      refine ⟨scope.canonicalJson, ⟨rfl, rfl, rfl⟩, room, ?_, insertTrial_ok inserted, rfl,
        ⟨_, rfl⟩, ⟨_, _, rfl⟩⟩
      intro committed found
      by_contra other
      rw [show db.scopeCommitments.find? record.scopeKey = some committed from found] at agrees
      simp [other] at agrees
    | _ => exact nofun
  | _ => exact nofun

theorem find?_updateStatus (trials : Table Trial.trialId) (target : TrialStatus) (id : String) :
    (updateStatus trials trialId target).find? id = (trials.find? id).map fun trial =>
      if mayMove trialId target trial then { trial with status := target } else trial :=
  Table.find?_modify _ _ _ _ _

theorem find?_setOutcome (trials : Table Trial.trialId) (columns : OutcomeColumns)
    (id : String) :
    (setOutcome trials trialId columns).find? id = (trials.find? id).map fun trial =>
      if decide (trial.trialId = trialId) = true then columns.set trial else trial :=
  Table.find?_modify _ _ _ _ _

theorem countScope_setOutcome (trials : Table Trial.trialId) (columns : OutcomeColumns)
    (scopeKey : String) :
    (setOutcome trials trialId columns).count (fun trial => trial.scopeKey = scopeKey) =
      trials.count fun trial => trial.scopeKey = scopeKey :=
  Table.count_modify _ _ _ _ fun _ => rfl

theorem countScope_updateStatus (target : TrialStatus) (scopeKey : String) :
    (updateStatus db.trials trialId target).count (fun trial => trial.scopeKey = scopeKey) =
      db.countScope scopeKey :=
  Table.count_modify _ _ _ _ fun _ => rfl

/-- A guarded update that changes one row found the trial where it may move. -/
theorem find?_of_count_mayMove {trials : Table Trial.trialId} {target : TrialStatus}
    (one : trials.count (mayMove trialId target) = 1) :
    ∃ trial, trials.find? trialId = some trial ∧ trial.status ∈ transitions target := by
  have counted : trials.count (mayMove trialId target) = _ :=
    Table.count_key trials trialId fun trial => trial.status ∈ transitions target
  rw [one] at counted
  cases found : trials.find? trialId with
  | none => simp [found] at counted
  | some trial =>
    refine ⟨trial, rfl, ?_⟩
    by_contra other
    simp [found, other] at counted

/-- What an outcome found and left. -/
structure Recorded (db : Database) (trialId : String) (kind : OutcomeKind)
    (columns : OutcomeColumns) (next : Database) : Prop where
  trials : ∃ trial, db.trials.find? trialId = some trial ∧ trial.status = .running ∧
    ∀ id, next.trials.find? id =
      if id = trialId then some (columns.set { trial with status := kind.status })
      else db.trials.find? id
  scopes : ∀ scopeKey, next.countScope scopeKey = db.countScope scopeKey
  outcomes : ∃ detail ts, db.outcomes.insert ⟨trialId, kind, detail, ts⟩ = some next.outcomes
  commitments : next.scopeCommitments = db.scopeCommitments
  events : ∃ payload ts, next.events = db.events ++ [⟨trialId, kind.status, payload, ts⟩]

/-- **An outcome claimed a running trial that had none.** -/
theorem recordOutcome_ok {kind : OutcomeKind} {detailJson ts : String}
    {columns : OutcomeColumns}
    (recorded : recordOutcome env db trialId kind detailJson ts columns = .ok next) :
    Recorded db trialId kind columns next := by
  revert recorded
  fun_cases recordOutcome env db trialId kind detailJson ts columns with
  | case5 _ outcomes claimed one =>
    intro recorded
    obtain rfl := insertEvent_ok recorded
    obtain ⟨trial, found, runs⟩ := find?_of_count_mayMove (not_not.mp one)
    have runs' : trial.status = .running := by
      cases kind <;> simpa [OutcomeKind.status, transitions] using runs
    refine ⟨⟨trial, found, runs', ?_⟩, ?_, ⟨_, _, claimed⟩, rfl, ⟨_, _, rfl⟩⟩
    · intro id
      dsimp only
      rw [find?_setOutcome, find?_updateStatus]
      by_cases same : id = trialId
      · subst same
        have moves : mayMove id kind.status trial = true := by
          simp [mayMove, Table.key_of_find? found, runs]
        simp [found, moves, Table.key_of_find? found]
      · cases other : db.trials.find? id with
        | none => simp [same]
        | some trial' =>
          have key := Table.key_of_find? other
          simp [same, mayMove, key]
    · intro scopeKey
      exact (countScope_setOutcome _ columns scopeKey).trans
        (countScope_updateStatus kind.status scopeKey)
  | _ =>
    intro recorded
    cases recorded

/-! ## An environment that can be computed -/

/-- Every scope has the same hash, and every text is valid. -/
def plainEnvironment : Environment :=
  ⟨fun _ => "", fun _ => true⟩

theorem lawful_plainEnvironment : plainEnvironment.Lawful :=
  ⟨fun _ _ => rfl⟩

def sampleScope : TrialScope where
  protocolId := "protocol-v1"
  protocolHash := "9706"
  outerFoldId := "fold-1"
  targetHorizon := "5d"
  featureSetId := "core"
  modelFamily := "ridge"

/-- A trial of that scope. -/
def sampleRecord : TrialRecord where
  trialId := "t1"
  createdAt := "2026-08-24T00:00:00+00:00"
  hypothesis := "momentum"
  gitSha := "c0de"
  configHash := "c0f"
  datasetManifestHash := "da7a"
  hyperparametersJson := "\x7b\x7d"
  scopeKey := "scope-v1:"

end TreeOptions.Registry
