import TreeOptions.Foundations.TransitionSystem
import TreeOptions.Registry.Database

/-!
# Connections on one registry

Any number of connections are open on one database, each with its own budget and
at most one call in progress. A registration and an outcome are one step. A start
is four: it reads the provenance, reads the status, updates the status and inserts
its event, and any other connection may do a step in between.

What a step does to the tables is one of six changes (`Change`), and where the
connections stand after it is said next to each (`step_cases`).
-/

set_option autoImplicit false

namespace TreeOptions.Registry

/-- How far a start has come: it confirmed the provenance, found the trial
registered, or updated its status. -/
inductive Call where
  | idle
  | confirmed (trialId ts : String)
  | checked (trialId ts : String)
  | updated (trialId ts : String)

/-- An open connection. -/
structure TrialRegistry where
  budget : TrialBudget
  call : Call

/-- The database and the open connections. -/
structure Shared where
  database : Database
  connections : ℕ → Option TrialRegistry

inductive RegistryAction where
  | open (connection : ℕ) (cap : ℤ)
  | register (connection : ℕ) (record : TrialRecord) (scope : Option TrialScope)
  | complete (connection : ℕ) (trialId metricsUri outcomeAt : String)
  | fail (connection : ℕ) (trialId reason ts : String)
  | markRunning (connection : ℕ) (trialId gitSha configHash datasetManifestHash ts : String)
  | readStatus (connection : ℕ)
  | updateStatus (connection : ℕ)
  | insertEvent (connection : ℕ)

namespace Shared

/-- A new database, and a connection where it now stands. -/
def put (state : Shared) (database : Database) (connection : ℕ) (budget : TrialBudget)
    (call : Call) : Shared :=
  ⟨database, Function.update state.connections connection (some ⟨budget, call⟩)⟩

/-- The tables after a transaction, which are as before when it was refused. -/
def committed (state : Shared) (outcome : Except RegistryError Database) : Database :=
  match outcome with
  | .error _ => state.database
  | .ok next => next

variable (env : Environment)

def step (state : Shared) : RegistryAction → Option Shared
  | .open connection cap =>
    match state.connections connection, TrialBudget.ofCap cap with
    | none, some budget =>
      match budget.validatedCap with
      | .error _ => none
      | .ok cap =>
        some (state.put (migrateCommitments state.database cap) connection budget .idle)
    | _, _ => none
  | .register connection record scope =>
    match state.connections connection with
    | some ⟨budget, .idle⟩ =>
      some (state.put (state.committed (register env budget state.database record scope))
        connection budget .idle)
    | _ => none
  | .complete connection trialId metricsUri outcomeAt =>
    match state.connections connection with
    | some ⟨budget, .idle⟩ =>
      some (state.put
        (state.committed (complete env state.database trialId metricsUri outcomeAt))
        connection budget .idle)
    | _ => none
  | .fail connection trialId reason ts =>
    match state.connections connection with
    | some ⟨budget, .idle⟩ =>
      some (state.put (state.committed (fail env state.database trialId reason ts))
        connection budget .idle)
    | _ => none
  | .markRunning connection trialId gitSha configHash datasetManifestHash ts =>
    match state.connections connection with
    | some ⟨budget, .idle⟩ =>
      match confirmProvenance state.database trialId gitSha configHash
        datasetManifestHash with
      | .error _ => some (state.put state.database connection budget .idle)
      | .ok () => some (state.put state.database connection budget (.confirmed trialId ts))
    | _ => none
  | .readStatus connection =>
    match state.connections connection with
    | some ⟨budget, .confirmed trialId ts⟩ =>
      match checkRegistered state.database trialId with
      | .error _ => some (state.put state.database connection budget .idle)
      | .ok () => some (state.put state.database connection budget (.checked trialId ts))
    | _ => none
  | .updateStatus connection =>
    match state.connections connection with
    | some ⟨budget, .checked trialId ts⟩ =>
      some (state.put (updateRunning state.database trialId) connection budget
        (.updated trialId ts))
    | _ => none
  | .insertEvent connection =>
    match state.connections connection with
    | some ⟨budget, .updated trialId ts⟩ =>
      some (state.put (state.committed (insertRunning env state.database trialId ts))
        connection budget .idle)
    | _ => none

end Shared

/-- The database as it is created, and no connection. -/
def initialShared : Shared :=
  ⟨.empty, fun _ => none⟩

/-- The connections on one database, from its creation. -/
def registrySystem (env : Environment) : System Shared RegistryAction where
  Initial state := state = initialShared
  step := Shared.step env

/-- What a step of one connection does: what it found, the tables it left and where
the connection stands. -/
inductive Change (env : Environment) (state : Shared) (connection : ℕ) :
    RegistryAction → Database → TrialBudget → Call → Prop where
  | opened {requested cap : ℤ} {budget : TrialBudget}
      (free : state.connections connection = none) :
      Change env state connection (.open connection requested)
        (migrateCommitments state.database cap) budget .idle
  | registered {budget : TrialBudget} {record : TrialRecord} {scope : Option TrialScope}
      {trial : Trial} {next : Database}
      (was : state.connections connection = some ⟨budget, .idle⟩)
      (registration : Registration state.database trial budget.cap next) :
      Change env state connection (.register connection record scope) next budget .idle
  | completed {budget : TrialBudget} {trialId metricsUri outcomeAt : String} {next : Database}
      (was : state.connections connection = some ⟨budget, .idle⟩)
      (recorded : Recorded state.database trialId .completed ⟨outcomeAt, some metricsUri, none⟩
        next) :
      Change env state connection (.complete connection trialId metricsUri outcomeAt) next budget
        .idle
  | failed {budget : TrialBudget} {trialId reason ts : String} {next : Database}
      (was : state.connections connection = some ⟨budget, .idle⟩)
      (recorded : Recorded state.database trialId .failed ⟨ts, none, some reason⟩ next) :
      Change env state connection (.fail connection trialId reason ts) next budget .idle
  | started {budget : TrialBudget} {trialId ts : String}
      (was : state.connections connection = some ⟨budget, .checked trialId ts⟩) :
      Change env state connection (.updateStatus connection)
        (updateRunning state.database trialId) budget (.updated trialId ts)
  | logged {budget : TrialBudget} {trialId ts : String} {outcome : Except RegistryError Database}
      (was : state.connections connection = some ⟨budget, .updated trialId ts⟩)
      (inserted : insertRunning env state.database trialId ts = outcome) :
      Change env state connection (.insertEvent connection) (state.committed outcome) budget .idle
  | kept {action : RegistryAction} {budget : TrialBudget} {call call' : Call}
      (was : state.connections connection = some ⟨budget, call⟩)
      (before : ∀ trialId ts, call ≠ .updated trialId ts)
      (after : ∀ trialId ts, call' ≠ .updated trialId ts) :
      Change env state connection action state.database budget call'

variable {env : Environment} {state next : Shared}

/-- A refused transaction leaves the tables. -/
theorem change_committed {connection : ℕ} {action : RegistryAction} {budget : TrialBudget}
    {outcome : Except RegistryError Database}
    (was : state.connections connection = some ⟨budget, .idle⟩)
    (done : ∀ database, outcome = .ok database →
      Change env state connection action database budget .idle) :
    Change env state connection action (state.committed outcome) budget .idle := by
  cases outcome with
  | error refusal => exact .kept was nofun nofun
  | ok database => exact done database rfl

/-- **What a step does.** -/
theorem step_cases {action : RegistryAction} (taken : state.step env action = some next) :
    ∃ connection database budget call, Change env state connection action database budget call ∧
      next = state.put database connection budget call := by
  revert taken
  fun_cases Shared.step env state action with
  | case2 connection cap budget _ free =>
    rintro ⟨⟩
    exact ⟨connection, _, _, _, .opened free, rfl⟩
  | case4 connection record scope budget was =>
    rintro ⟨⟩
    refine ⟨connection, _, _, _, change_committed was ?_, rfl⟩
    intro database done
    obtain ⟨scopeJson, registration⟩ := register_ok done
    exact .registered was registration
  | case6 connection trialId metricsUri outcomeAt budget was =>
    rintro ⟨⟩
    exact ⟨connection, _, _, _, change_committed was fun database done =>
      .completed was (recordOutcome_ok done), rfl⟩
  | case8 connection trialId reason ts budget was =>
    rintro ⟨⟩
    exact ⟨connection, _, _, _, change_committed was fun database done =>
      .failed was (recordOutcome_ok done), rfl⟩
  | case10 connection _ _ _ _ _ budget was | case11 connection _ _ _ _ _ budget was
  | case13 connection budget _ _ was | case14 connection budget _ _ was =>
    rintro ⟨⟩
    exact ⟨connection, _, _, _, .kept was (by simp) (by simp), rfl⟩
  | case16 connection budget trialId ts was =>
    rintro ⟨⟩
    exact ⟨connection, _, _, _, .started was, rfl⟩
  | case18 connection budget trialId ts was =>
    rintro ⟨⟩
    exact ⟨connection, _, _, _, .logged was rfl, rfl⟩
  | _ => nofun

end TreeOptions.Registry
