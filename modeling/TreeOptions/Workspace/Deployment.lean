import TreeOptions.Foundations.TransitionSystem
import TreeOptions.Workspace.Allocation

/-!
# Deployments of a paper workspace

A deployment is proposed, approved by the operator (`stageCanary`), and executed once. The
execution takes the lock of the workspace, claims the deployment in its file, and only then starts
the runtime and hands it the one order; it keeps the lock until it has written how the
order went, or dies. A halt writes its own file first and without the lock, so that it is never kept
waiting, and marks the deployment afterwards if the lock is free.

Calls of any number of processes are steps of one system. A step is a section under the lock, or a
write outside of it; a process may die after any of its writes. Instants are in microseconds.
-/

set_option autoImplicit false

namespace TreeOptions.Workspace

open Checked Decimal

/-! ## Sections of the deployment calls -/

inductive Provider
  | snaptrade
  | ibkr
deriving DecidableEq

/-- An account of the private catalog. -/
structure CatalogEntry where
  provider : Provider
  accountAlias : String
  bindingFile : String
  stateRoot : String

structure PaperAccountBinding where
  accountAlias : String
  accountId : String
  brokerageSlug : String
  paperConfirmedBy : String
  credentialSha256 : String
deriving DecidableEq

/-- What an execution is given: the runtime of an account. -/
structure Runtime where
  binding : PaperAccountBinding
  stateRoot : String
  hasQuoteSource : Bool

/-- What a call finds outside of the workspace. -/
structure Outside where
  entry : String → Except WorkspaceRefused CatalogEntry
  loadBinding : String → Except WorkspaceRefused PaperAccountBinding

/-- Capital letters, with one dot inside at most, ten characters in all. -/
def isSymbol (text : String) : Bool :=
  text.length ≤ 10 &&
    match text.toList.dropWhile Char.isUpper with
    | [] => text ≠ ""
    | dot :: rest =>
      dot = '.' && (text.toList.takeWhile Char.isUpper ≠ []) && rest ≠ [] &&
        rest.all Char.isUpper

/-- A price is positive, with eight places and eighteen digits at most. -/
def isExactPrice (price : ℚ) : Prop :=
  0 < price ∧ (price * 10 ^ 8).den = 1 ∧ price < 10 ^ 10

instance (price : ℚ) : Decidable (isExactPrice price) :=
  inferInstanceAs (Decidable (_ ∧ _ ∧ _))

/-- An instant some seconds later. -/
def shiftInstant (instant : ℤ) (seconds : ℤ) : ℤ :=
  instant + 1000000 * seconds

section Sections

variable (hashes : Hashes) (files : Files)

def Files.put (record : Deployment) : Files :=
  { files with deployments := files.deployments.write record.deploymentId record }

def propose (request : DeploymentRequest) (now : ℤ) : Except WorkspaceRefused Files := do
  let deploymentId := hashes.key request.idempotencyKey
  refuse (isDeploymentId deploymentId = false) .deploymentNotFound
  match files.deployments.get deploymentId with
  | some _ => do
      let record ← files.read hashes deploymentId
      refuse (record.requestSha256 ≠ hashes.request request) .idempotencyCollision
      return files
  | none => do
      checkSleeve hashes files request
      return files.put {
        deploymentId := deploymentId
        request := request
        requestSha256 := hashes.request request
        status := .reviewRequired
        createdAt := now
        approval := none
        executionStatus := .notAuthorized
        reservationReleased := false }

/-- The first file of a halt, without the lock. -/
def haltFile (deploymentId : String) (now : ℤ) : Except WorkspaceRefused Files := do
  let _ ← files.read hashes deploymentId
  return { files with halts := files.halts.write deploymentId now }

/-- The record of a halt, under the lock. What has not been claimed is released. -/
def haltRecord (deploymentId : String) : Except WorkspaceRefused Files := do
  let record ← files.read hashes deploymentId
  let released := (record.status = .reviewRequired ∨ record.status = .staged) ∧
    record.executionStatus = .notAuthorized
  return files.put { record with
    reservationReleased := if released then true else record.reservationReleased
    status := .halted
    executionStatus := .haltedReconciliationRequired }

/-- The account is no other provider's. It need not be configured yet. -/
def checkProvider (outside : Outside) (accountAlias : String) : Except WorkspaceRefused Unit :=
  match outside.entry accountAlias with
  | .error error => refuse (error ≠ .accountNotConfigured) error
  | .ok entry => refuse (entry.provider ≠ .snaptrade) .ibkrEquityExecutionUnimplemented

/-- The approval of one order of a deployment, once. A limit that is no finite number is nothing. -/
def stageCanary (outside : Outside) (deploymentId symbol : String) (limit : Option ℚ)
    (operatorApproved : Bool) (approvedAt now : ℤ) : Except WorkspaceRefused Files := do
  refuse (operatorApproved = false) .operatorApprovalRequired
  let record ← files.read hashes deploymentId
  checkProvider outside record.request.accountAlias
  refuse (record.status = .halted ∨ (files.halts.get deploymentId).isSome) .deploymentHalted
  refuse (record.request.strategyVersion ≠ operationalCanary) .strategyDeploymentUnqualified
  refuse (record.request.maxOrders ≠ 1 ∨ 100 < record.request.maxGrossNotional) .canaryBounds
  match limit with
  | none => .error .canaryBounds
  | some limit => do
      refuse (¬ (0 < limit ∧ limit ≤ record.request.maxGrossNotional)) .canaryBounds
      refuse (isSymbol symbol = false ∨ ¬ isExactPrice limit) .validation
      match record.approval with
      | some approval => do
          refuse (record.status ≠ .staged) .deploymentNotReviewableReconcileBeforeRetry
          refuse (approval.requestSha256 ≠ record.requestSha256 ∨ approval.symbol ≠ symbol ∨
            approval.quantity ≠ 1 ∨ approval.side ≠ "BUY" ∨ approval.limit ≠ limit)
            .approvalIdentityCollision
          return files
      | none => do
          refuse (record.status ≠ .reviewRequired) .deploymentNotReviewable
          return files.put { record with
            approval := some {
              requestSha256 := record.requestSha256
              symbol := symbol
              quantity := 1
              side := "BUY"
              limit := limit
              approvedAt := approvedAt
              expiresAt := shiftInstant now record.request.ttlSeconds }
            status := .staged }

/-- An execution that has claimed a deployment: the record it read, and the record it wrote. -/
structure Execution where
  deploymentId : String
  staged : Deployment
  approval : Approval
  claimed : Deployment
  claimedAt : ℤ
  called : Bool

/-- The first part of an execution, under the lock, which ends with the claim. -/
def claim (outside : Outside) (deploymentId : String) (runtime : Runtime) (now : ℤ) :
    Except WorkspaceRefused (Files × Execution) := do
  let record ← files.read hashes deploymentId
  refuse (record.status ≠ .staged ∨ (files.halts.get deploymentId).isSome)
    .deploymentNotStagedReconcileBeforeRetry
  let entry ← outside.entry record.request.accountAlias
  refuse (entry.provider ≠ .snaptrade) .ibkrEquityExecutionUnimplemented
  match record.approval with
  | none => .error .deploymentNotFoundOrCorrupt
  | some approval => do
      refuse (approval.requestSha256 ≠ record.requestSha256 ∨
        runtime.binding.accountAlias ≠ record.request.accountAlias) .approvalAccountBindingMismatch
      refuse (runtime.stateRoot ≠ entry.stateRoot) .runtimeStateBindingMismatch
      let binding ← outside.loadBinding entry.bindingFile
      refuse (runtime.binding ≠ binding) .runtimeProviderBindingMismatch
      refuse (¬ (approval.approvedAt ≤ now ∧ now < approval.expiresAt)) .approvalExpired
      refuse (runtime.hasQuoteSource = false) .timestampedQuoteSourceUnavailable
      let claimed := { record with
        status := .recoveryRequired
        executionStatus := .claimedReconciliationRequired }
      return (files.put claimed, ⟨deploymentId, record, approval, claimed, now, false⟩)

end Sections

/-- The order that a runtime is handed. -/
structure CanaryCall where
  execution : Execution
  symbol : String
  quantity : ℕ
  limit : ℚ
  at_ : ℤ

/-- The call of the runtime, when it has started ready and the mandate is granted. A minute of
the approval has to be left. -/
def callCanary (execution : Execution) (ready granted : Bool) (now : ℤ) :
    Except WorkspaceRefused CanaryCall := do
  refuse (ready = false) .restartReconciliationRequired
  refuse (Int.tdiv (execution.approval.expiresAt - now) 1000000 < 60) .approvalTtlInsufficient
  refuse (granted = false) .restartReconciliationRequired
  refuse (isSymbol execution.approval.symbol = false ∨ ¬ isExactPrice execution.approval.limit)
    .validation
  return ⟨execution, execution.approval.symbol, execution.approval.quantity,
    execution.approval.limit, now⟩

/-- How the runtime answered, as the execution writes it. -/
def finished (execution : Execution) (outcome : String) : Deployment :=
  { execution.claimed with
    executionStatus := .reconciliationRequired outcome
    status := if outcome = "acknowledged" then .observed else .recoveryRequired }

/-! ## The system -/

/-- The files, the latest instant, the execution that holds the lock, and the halts that have
written their first file. The claims and the calls of the runtime are kept as they are made. -/
structure State where
  files : Files
  clock : ℤ
  running : Option Execution
  halting : List String
  claims : List String
  calls : List CanaryCall

inductive Call
  | createAllocation (idempotencyKey : String) (accountAlias : Option String)
  | bindSleeve (planId sleeveId accountAlias : String)
  | propose (request : DeploymentRequest)
  | haltFile (deploymentId : String)
  | haltRecord (deploymentId : String)
  | haltEnds (deploymentId : String)
  | stageCanary (outside : Outside) (deploymentId symbol : String) (limit : Option ℚ)
      (operatorApproved : Bool) (approvedAt : ℤ)
  | claim (outside : Outside) (deploymentId : String) (runtime : Runtime)
  | canary (ready granted : Bool)
  | finish (outcome : String)
  | executionEnds

/-- A call, and the instant at which it looks at the clock. -/
structure Action where
  call : Call
  now : ℤ

section Steps

variable (hashes : Hashes)

namespace State

variable (state : State)

/-- A section of a call that found the lock free. -/
def locked (body : Except WorkspaceRefused Files) : Option State :=
  match state.running with
  | some _ => none
  | none => body.toOption.map fun files => { state with files }

/-- The calls whose sections end with their writes, by their steps. An execution has three: its
claim, the call of the runtime, and what it writes at the end. It ends without the last when it
is refused, raises or dies, and the lock is free then. -/
def take (call : Call) (now : ℤ) : Option State :=
  match call with
  | .createAllocation idempotencyKey accountAlias =>
    state.locked (Workspace.createAllocation hashes state.files idempotencyKey accountAlias)
  | .bindSleeve planId sleeveId accountAlias =>
    state.locked (Workspace.bindSleeve hashes state.files planId sleeveId accountAlias)
  | .propose request => state.locked (Workspace.propose hashes state.files request now)
  | .haltFile deploymentId =>
    (Workspace.haltFile hashes state.files deploymentId now).toOption.map fun files =>
      { state with files, halting := deploymentId :: state.halting }
  | .haltRecord deploymentId =>
    if deploymentId ∈ state.halting then
      (state.locked (Workspace.haltRecord hashes state.files deploymentId)).map fun next =>
        { next with halting := next.halting.erase deploymentId }
    else none
  | .haltEnds deploymentId => some { state with halting := state.halting.erase deploymentId }
  | .stageCanary outside deploymentId symbol limit operatorApproved approvedAt =>
    if state.clock ≤ approvedAt ∧ approvedAt ≤ now then
      state.locked (Workspace.stageCanary hashes state.files outside deploymentId symbol limit
        operatorApproved approvedAt now)
    else none
  | .claim outside deploymentId runtime =>
    match state.running with
    | some _ => none
    | none =>
      (Workspace.claim hashes state.files outside deploymentId runtime now).toOption.map
        fun claimed => { state with
          files := claimed.1
          running := some claimed.2
          claims := deploymentId :: state.claims }
  | .canary ready granted =>
    match state.running with
    | none => none
    | some execution =>
      if execution.called = true then none
      else (callCanary execution ready granted now).toOption.map fun call => { state with
        running := some { execution with called := true }
        calls := call :: state.calls }
  | .finish outcome =>
    match state.running with
    | none => none
    | some execution =>
      if execution.called = true then
        some { state with
          files := state.files.put (finished execution outcome)
          running := none }
      else none
  | .executionEnds => some { state with running := none }

end State

/-- The clock does not go back. -/
def system : System State Action where
  Initial state := state = ⟨Files.empty, state.clock, none, [], [], []⟩
  step state action :=
    if state.clock ≤ action.now then
      (state.take hashes action.call action.now).map fun next => { next with clock := action.now }
    else none

end Steps

end TreeOptions.Workspace
