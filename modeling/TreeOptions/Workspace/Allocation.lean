import Mathlib.Data.Char
import Mathlib.Data.List.Lex
import TreeOptions.Foundations.Checked
import TreeOptions.Foundations.DecimalContext
import TreeOptions.Foundations.Dates
import TreeOptions.Foundations.Directory
import TreeOptions.Foundations.Grouping

/-!
# Allocations and reservations of a paper workspace

An allocation plan gives virtual capital to twenty-nine sleeves. A deployment is proposed for a
sleeve and reserves its largest notional there until it is released; what a sleeve has reserved is
not stored but summed over the files of all deployments. All reservations of a sleeve name one
account: that of the plan, that the sleeve was bound to, or that of the first reservation.

The files are a directory of deployments by their ids, one plan and a directory of halts. The ids
and the hashes of requests are taken through functions (`Hashes`).
-/

set_option autoImplicit false

namespace TreeOptions.Workspace

open Checked Decimal

inductive WorkspaceRefused
  | allocationRequestInvalid
  | allocationPlanAlreadyExists
  | allocationPlanNotFound
  | allocationConservationInvalid
  | accountAliasInvalid
  | accountNotConfigured
  | privateCatalogUnavailable
  | sleeveNotFound
  | sleeveAccountMismatch
  | sleeveCapitalExhausted
  | sleeveHasActiveOrUncertainReservations
  | intendedCapitalExceedsSleeve
  | researchJobRequired
  | sleeveAssignmentRequired
  | deploymentNotFound
  | deploymentNotFoundOrCorrupt
  | idempotencyCollision
  | operatorApprovalRequired
  | ibkrEquityExecutionUnimplemented
  | deploymentHalted
  | strategyDeploymentUnqualified
  | canaryBounds
  | validation
  | deploymentNotReviewable
  | deploymentNotReviewableReconcileBeforeRetry
  | approvalIdentityCollision
  | deploymentNotStagedReconcileBeforeRetry
  | approvalAccountBindingMismatch
  | runtimeStateBindingMismatch
  | runtimeProviderBindingMismatch
  | providerUnavailable
  | approvalExpired
  | timestampedQuoteSourceUnavailable
  | restartReconciliationRequired
  | approvalTtlInsufficient
deriving DecidableEq

/-! ## Requests -/

def operationalCanary : String :=
  "operational-canary/1"

/-- A letter or a digit and up to seventy-nine more of them, dots, dashes and underscores. -/
def isAlias (text : String) : Bool :=
  match text.toList with
  | [] => false
  | first :: rest =>
    first.isAlphanum && rest.length ≤ 79 &&
      rest.all fun char => char.isAlphanum || char = '_' || char = '.' || char = '-'

/-- What a deployment is proposed with, as the schema admits it. -/
structure DeploymentRequest where
  idempotencyKey : String
  accountAlias : String
  strategyVersion : String
  researchJobId : Option String
  sleeveId : Option String
  intendedCapital : ℚ
  maxGrossNotional : ℚ
  maxOrders : ℕ
  ttlSeconds : ℕ
  key_bounds : 1 ≤ idempotencyKey.length ∧ idempotencyKey.length ≤ 128
  alias_valid : isAlias accountAlias = true
  version_bounds : 1 ≤ strategyVersion.length ∧ strategyVersion.length ≤ 128
  notional_pos : 0 < maxGrossNotional
  notional_cents : maxGrossNotional ∈ cents
  intended_cents : intendedCapital ∈ cents
  intended_digits : intendedCapital < 10 ^ 16
  order_bounds : 1 ≤ maxOrders ∧ maxOrders ≤ 1000
  ttl_bounds : 60 ≤ ttlSeconds ∧ ttlSeconds ≤ 900
  capital_bounds : maxGrossNotional ≤ intendedCapital

structure AllocationRequest where
  idempotencyKey : String
  accountAlias : Option String
deriving DecidableEq

/-! ## Files -/

inductive Status
  | reviewRequired
  | staged
  | recoveryRequired
  | observed
  | halted
deriving DecidableEq

/-- How far an execution came. An outcome is the text that the runtime gave. -/
inductive ExecutionStatus
  | notAuthorized
  | claimedReconciliationRequired
  | reconciliationRequired (outcome : String)
  | haltedReconciliationRequired
deriving DecidableEq

structure Approval where
  requestSha256 : String
  symbol : String
  quantity : ℕ
  side : String
  limit : ℚ
  approvedAt : ℤ
  expiresAt : ℤ

/-- The file of a deployment. -/
structure Deployment where
  deploymentId : String
  request : DeploymentRequest
  requestSha256 : String
  status : Status
  createdAt : ℤ
  approval : Option Approval
  executionStatus : ExecutionStatus
  reservationReleased : Bool

structure Sleeve where
  sleeveId : String
  label : String
  capitalUsd : ℚ
  accountAlias : Option String
deriving DecidableEq

structure AllocationPlan where
  planId : String
  request : AllocationRequest
  sleeves : List Sleeve
  bindings : Directory String String

/-- What a workspace has on disk. -/
structure Files where
  plan : Option AllocationPlan
  deployments : Directory String Deployment
  halts : Directory String ℤ

def Files.empty : Files :=
  ⟨none, DefaultDict.empty, DefaultDict.empty⟩

structure Hashes where
  key : String → String
  allocation : AllocationRequest → String
  request : DeploymentRequest → String

/-- Sixty-four hexadecimal digits in lower case. -/
def isDeploymentId (text : String) : Bool :=
  text.length = 64 &&
    text.toList.all fun char => char.isDigit || ('a' ≤ char && char ≤ 'f')

section Reading

variable (hashes : Hashes) (files : Files)

/-- The record of a deployment, if it is there and belongs to its id. -/
def Files.read (deploymentId : String) : Except WorkspaceRefused Deployment := do
  refuse (isDeploymentId deploymentId = false) .deploymentNotFoundOrCorrupt
  match files.deployments.get deploymentId with
  | none => .error .deploymentNotFoundOrCorrupt
  | some record => do
      refuse (hashes.key record.request.idempotencyKey ≠ deploymentId ∨
        record.requestSha256 ≠ hashes.request record.request) .deploymentNotFoundOrCorrupt
      return record

/-- The ids of the files of deployments, in order. -/
def Files.stems : List String :=
  sortedBy String.toList files.deployments.names

/-! ## The plan -/

/-- The sleeves of a new plan, nineteen of fifty thousand and ten of five thousand. -/
def sleeveAt (accountAlias : Option String) (index : ℕ) : Sleeve where
  sleeveId := "sleeve-" ++ digits 2 (index + 1)
  label := "Experiment " ++ digits 2 (index + 1)
  capitalUsd := if index < 19 then 50000 else 5000
  accountAlias := accountAlias

def planSleeves (accountAlias : Option String) : List Sleeve :=
  (List.range 29).map (sleeveAt accountAlias)

/-- A sleeve with the account and the notional that its reservations name. -/
structure SleeveView where
  sleeve : Sleeve
  accountAlias : Option String
  reservedUsd : ℚ

structure AllocationView where
  planId : String
  sleeves : List SleeveView

def Deployment.reserves (record : Deployment) (sleeveId : String) : Bool :=
  record.request.sleeveId = some sleeveId && !record.reservationReleased

/-- The account of a sleeve by the plan: what it was bound to, or else the account of the plan. -/
def AllocationPlan.aliasOf (plan : AllocationPlan) (sleeve : Sleeve) : Option String :=
  (plan.bindings.get sleeve.sleeveId).or sleeve.accountAlias

def sleeveView (plan : AllocationPlan) (records : List Deployment) (sleeve : Sleeve) :
    Except WorkspaceRefused SleeveView := do
  let applicable := records.filter fun record => record.reserves sleeve.sleeveId
  let aliases := (applicable.map (fun record => record.request.accountAlias) ++
    (plan.aliasOf sleeve).toList).dedup
  refuse (1 < aliases.length) .sleeveAccountMismatch
  let reserved := applicable.foldl (fun total record =>
    add total record.request.maxGrossNotional) 0
  refuse (sleeve.capitalUsd < reserved) .sleeveCapitalExhausted
  return ⟨sleeve, aliases.head?, reserved⟩

def allocationView (plan : AllocationPlan) : Except WorkspaceRefused AllocationView := do
  refuse (plan.planId ≠ hashes.allocation plan.request ∨ plan.sleeves.length ≠ 29)
    .allocationConservationInvalid
  refuse (plan.sleeves ≠ planSleeves plan.request.accountAlias) .allocationConservationInvalid
  let records ← files.stems.mapM (files.read hashes)
  let sleeves ← plan.sleeves.mapM (sleeveView plan records)
  refuse (plan.sleeves.foldl (fun total sleeve => add total sleeve.capitalUsd) 0 ≠ 1000000)
    .allocationConservationInvalid
  return ⟨plan.planId, sleeves⟩

/-- The views of the plans there are, which is one at most. -/
def allocations : Except WorkspaceRefused (List AllocationView) :=
  match files.plan with
  | none => .ok []
  | some plan => do
      let view ← allocationView hashes files plan
      return [view]

/-! ## Sections under the lock

A section is what it leaves on disk, or its refusal to write. What a call shows its caller
afterwards is read from these files. -/

def createAllocation (idempotencyKey : String) (accountAlias : Option String) :
    Except WorkspaceRefused Files := do
  refuse (idempotencyKey = "" ∨ 128 < idempotencyKey.length) .allocationRequestInvalid
  refuse (∃ text ∈ accountAlias, isAlias text = false) .allocationRequestInvalid
  match files.plan with
  | some plan => do
      refuse (plan.request ≠ ⟨idempotencyKey, accountAlias⟩) .allocationPlanAlreadyExists
      return files
  | none =>
    return { files with plan := some {
      planId := hashes.allocation ⟨idempotencyKey, accountAlias⟩
      request := ⟨idempotencyKey, accountAlias⟩
      sleeves := planSleeves accountAlias
      bindings := DefaultDict.empty } }

/-- Bind a sleeve without reservations to an account. -/
def bindSleeve (planId sleeveId accountAlias : String) : Except WorkspaceRefused Files := do
  refuse (isAlias accountAlias = false) .accountAliasInvalid
  match files.plan with
  | none => .error .allocationPlanNotFound
  | some plan => do
      let view ← allocationView hashes files plan
      refuse (view.planId ≠ planId) .allocationPlanNotFound
      match view.sleeves.filter fun shown => shown.sleeve.sleeveId = sleeveId with
      | [selected] =>
        if selected.accountAlias = some accountAlias then return files
        else do
          refuse (selected.reservedUsd ≠ 0) .sleeveHasActiveOrUncertainReservations
          return { files with plan := some { plan with
            bindings := plan.bindings.write sleeveId accountAlias } }
      | _ => .error .sleeveNotFound

/-- A request fits into its sleeve. -/
def checkSleeve (request : DeploymentRequest) : Except WorkspaceRefused Unit := do
  refuse (request.strategyVersion ≠ operationalCanary ∧ request.researchJobId = none)
    .researchJobRequired
  match request.sleeveId with
  | none => refuse (request.strategyVersion ≠ operationalCanary) .sleeveAssignmentRequired
  | some sleeveId => do
      let plans ← allocations hashes files
      match (plans.flatMap AllocationView.sleeves).filter fun shown =>
          shown.sleeve.sleeveId = sleeveId with
      | [shown] => do
          refuse (∃ text ∈ shown.accountAlias, text ≠ request.accountAlias) .sleeveAccountMismatch
          refuse (shown.sleeve.capitalUsd < request.intendedCapital) .intendedCapitalExceedsSleeve
          refuse (shown.sleeve.capitalUsd < add request.maxGrossNotional shown.reservedUsd)
            .sleeveCapitalExhausted
      | _ => .error .sleeveNotFound

end Reading

end TreeOptions.Workspace
