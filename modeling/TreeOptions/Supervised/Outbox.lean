import TreeOptions.Foundations.Text
import TreeOptions.Supervised.Authority

/-!
# The outbox

An intent is recorded as pending, unless its package is in flight. A permit is minted for
it from a mandate, and `send` spends the permit: the intent is claimed, the permit is
consumed, and only then is the broker asked. Whatever happens after the claim leaves a
sending file or a receipt. A sending file without a receipt is an orphan, which `recover`
turns into an uncertain receipt, and an uncertain receipt is cleared by `reconcileIntent`
alone.
-/

set_option autoImplicit false

namespace TreeOptions.Supervised

open Desk (SupervisedMandateV2 Reached)
open Durable
open Execution (ExecutionLifecycle ExecutionRecord LifecycleError Observation OrderIntent
  RecordHead Serialization StoredExecutionRecord SubmitAttempt)

/-! ## Recording an intent -/

/-- The outbox lists the files that are directly in it. An id with a separator names a file
in a directory below. -/
def listed (intentId : String) : Bool :=
  !intentId.toList.any fun ch => ch = '/'

/-- How a listed intent holds its package. -/
inductive OutboxState
  | pending
  | sending
  | receipt
  | rejected
  | uncertain
deriving DecidableEq

def OutboxState.value : OutboxState → String
  | .pending => "pending"
  | .sending => "sending"
  | .receipt => "receipt"
  | .rejected => "rejected"
  | .uncertain => "uncertain"

def ReceiptOutcome.state : ReceiptOutcome → OutboxState
  | .acknowledged _ => .receipt
  | .rejected _ => .rejected
  | .uncertain _ _ => .uncertain

/-- Every intent the outbox has a file of. -/
def outboxIds (files : SupervisedFiles) : List String :=
  sortedBy String.toList
    ((files.pending.names ++ files.sending.names ++ files.terminal.names ++
      files.reconciled.names).filter listed).dedup

def verdictFor (files : SupervisedFiles) (package intentId : String) : Option Verdict :=
  match files.reconciled.get intentId with
  | none => none
  | some record =>
    if record.packageIntentSha256 = some package then some record.verdict else none

/-- The state of an intent by its receipt, if that names the package. -/
def terminalState (files : SupervisedFiles) (package intentId : String) : Option OutboxState :=
  match files.terminal.get intentId with
  | none => none
  | some receipt =>
    if receipt.packageIntentSha256 = some package then some receipt.outcome.state else none

def sendingState (files : SupervisedFiles) (package intentId : String) : Option OutboxState :=
  match files.sending.get intentId with
  | none => none
  | some claim => if claim.intent.packageIntentSha256 = package then some .sending else none

/-- A pending intent past its deadline is not in flight. -/
def pendingState (files : SupervisedFiles) (package : String) (now : ℤ) (intentId : String) :
    Option OutboxState :=
  match files.pending.get intentId with
  | none => none
  | some intent =>
    if intent.packageIntentSha256 = package ∧ ¬ Reached now intent.sendDeadline then
      some .pending
    else none

/-- The last of the files of an intent that name the package. -/
def entryState (files : SupervisedFiles) (package : String) (now : ℤ) (intentId : String) :
    Option OutboxState :=
  ((terminalState files package intentId).or (sendingState files package intentId)).or
    (pendingState files package now intentId)

/-- A verdict that does not clear the package. -/
def verdictBlocks (files : SupervisedFiles) (package intentId : String) : Option String :=
  match verdictFor files package intentId with
  | none => none
  | some verdict =>
    if verdict = .confirmedNotSubmitted then none
    else some (intentId ++ ":reconciled:" ++ verdict.value)

/-- An entry that holds the package, and has no verdict. -/
def entryBlocks (files : SupervisedFiles) (package : String) (now : ℤ) (intentId : String) :
    Option String :=
  if (verdictFor files package intentId).isSome then none
  else
    match entryState files package now intentId with
    | none => none
    | some state => if state = .rejected then none else some (intentId ++ ":" ++ state.value)

/-- Why a new intent is refused while its package is not cleared. -/
def inFlightReason (files : SupervisedFiles) (package : String) (now : ℤ) : Option String :=
  ((outboxIds files).findSome? (verdictBlocks files package)).or
    ((outboxIds files).findSome? (entryBlocks files package now))

/-- The intent was claimed before. -/
def intentUsed (files : SupervisedFiles) (intentId : String) : Bool :=
  (files.sending.get intentId).isSome || (files.terminal.get intentId).isSome ||
    (files.reconciled.get intentId).isSome

/-- Record an intent that is not pending. -/
def recordFresh (intent : SupervisedIntent) : SupervisedProgram Unit := do
  let before ← files
  refuseIf (intentUsed before intent.intentId) (.refused "intent_id_reused" intent.intentId)
  operate (.read .outbox) .fileOperation id
  refuseIf (inFlightReason before intent.packageIntentSha256 intent.createdAt).isSome
    (.refused "package_already_in_flight"
      ((inFlightReason before intent.packageIntentSha256 intent.createdAt).getD ""))
  durably (.replace (.pending intent.intentId)) (change fun files =>
    { files with pending := files.pending.write intent.intentId intent })

/-- Persist a pending intent. The same intent again changes nothing. -/
def recordIntent (intent : SupervisedIntent) : SupervisedProgram Unit := do
  let before ← files
  let existing ← readFile (.pending intent.intentId) (before.pending.get intent.intentId)
  match existing with
  | none => recordFresh intent
  | some existing =>
    refuseIf (existing ≠ intent) (.refused "intent_id_collision" intent.intentId)

/-! ## Permits -/

def maxPermitTtlS : ℤ :=
  15 * 60

/-- What the effect contract says of the bytes of an effect. -/
inductive EffectKind
  | otherBytes
  | equity
  | invalid
deriving DecidableEq

/-- The hash, how effects are told apart, and how records and errors are written. -/
structure Environment where
  sha256 : List UInt8 → String
  effectKind : List UInt8 → EffectKind
  json : Serialization
  errorText : SupervisedError → String

variable (env : Environment)

def permitIdOf (intentId effectSha256 : String) : String :=
  "permit-" ++ String.ofList ((env.sha256 (Text.encode (Json.dumpsWith Json.escapeControl
    (.obj [("effect_sha256", .str effectSha256), ("intent_id", .str intentId)])))).toList.take 16)

structure PermitRequest where
  accountId : String
  ownerEpoch : String
  intent : SupervisedIntent
  canaryBlockers : List String
  effectPayload : List UInt8
  screeningSha256 : String
  ttlSeconds : ℤ
  profileDigest : Option String

def permitOf (request : PermitRequest) (now : ℤ) (mandateId strategyVersion : String)
    (expiresAt : ℤ) : Except SupervisedError EffectPermit :=
  if window : now < expiresAt then
    .ok {
      permitId := permitIdOf env request.intent.intentId (env.sha256 request.effectPayload)
      mandateId := mandateId
      intentId := request.intent.intentId
      packageIntentSha256 := request.intent.packageIntentSha256
      effectSha256 := env.sha256 request.effectPayload
      accountId := request.accountId
      ownerEpoch := request.ownerEpoch
      strategyVersion := strategyVersion
      screeningSha256 := request.screeningSha256
      issuedAt := now
      expiresAt := expiresAt
      issued_lt := window }
  else .error (.invalid "expires_at must be after issued_at")

/-- The end of the life of a permit. -/
def permitExpiry (request : PermitRequest) (now : ℤ) : Except SupervisedError ℤ :=
  match shiftInstant now request.ttlSeconds with
  | none => .error (.invalid "date value out of range")
  | some expiresAt => .ok (min expiresAt request.intent.sendDeadline)

/-- The files with a minted permit. -/
def minted (permit : EffectPermit) (source : MintedFrom) (world : SupervisedWorld) :
    SupervisedWorld :=
  { world with
    files := { world.files with permit := world.files.permit.write permit.permitId permit }
    mints := world.mints ++ [⟨permit, source⟩] }

/-- A permit from `mandate.json`. The budget is spent first, so a crash wastes an order and
never mints one. -/
def spendOrder (mandate : SupervisedMandate) (permit : EffectPermit) :
    SupervisedProgram EffectPermit :=
  if spare : mandate.ordersUsed < mandate.maxOrders then do
    durably (.replace .mandate) (change fun files =>
      { files with
        mandate := some { mandate with ordersUsed := mandate.ordersUsed + 1, used_le := spare } })
    let world ← observe
    durably (.replace (.permit permit.permitId))
      (minted permit (.grant world.grants { mandate with
        ordersUsed := mandate.ordersUsed + 1
        used_le := spare }))
    pure permit
  else raise (.refused "mandate_budget_exhausted" "")

/-- Mint from `mandate.json`. -/
def issueMandatePermit (now : ℤ) (request : PermitRequest) : SupervisedProgram EffectPermit := do
  let mandate ← activeMandate now request.accountId request.ownerEpoch
    request.intent.intent.source
  refuseIf (mandate.maxOrders ≤ mandate.ordersUsed) (.refused "mandate_budget_exhausted" "")
  refuseIssued request.intent.intentId
  let expiresAt ← check (permitExpiry request now)
  let permit ← check (permitOf env request now mandate.mandateId mandate.strategyVersion expiresAt)
  spendOrder mandate permit

/-- The consumption is the rename, and it comes first: a crash wastes the approval and never
mints a second order. -/
def consumeMandate (mandate : SupervisedMandateV2) (permit : EffectPermit) :
    SupervisedProgram EffectPermit := do
  durably (.rename (.entryMandateConsumed permit.intentId)) (change fun files =>
    { files with
      entryMandate := files.entryMandate.remove permit.intentId
      entryMandateConsumed := files.entryMandateConsumed.write permit.intentId mandate })
  durably (.replace (.permit permit.permitId)) (minted permit (.approval mandate))
  pure permit

/-- Mint the one permit that a mandate of one order allows. -/
def mintEntryPermit (now : ℤ) (request : PermitRequest) (mandate : SupervisedMandateV2) :
    SupervisedProgram EffectPermit := do
  refuseIf (mandate.intentId ≠ request.intent.intentId)
    (.refused "mandate_binding_mismatch" request.intent.intentId)
  refuseIf (Desk.mandateBlockers mandate now (env.sha256 request.effectPayload)
      request.ownerEpoch (request.profileDigest.getD "") ≠ [])
    (.approvalRefused (Desk.mandateBlockers mandate now (env.sha256 request.effectPayload)
      request.ownerEpoch (request.profileDigest.getD "")) request.intent.intentId)
  refuseIf (mandate.accountId ≠ request.accountId) (.refused "mandate_account_mismatch" "")
  refuseIf (mandate.strategyVersion ≠ request.intent.intent.source)
    (.refused "mandate_scope_mismatch" "")
  refuseIssued request.intent.intentId
  let expiresAt ← check (permitExpiry request now)
  let permit ← check (permitOf env request now (entryMandateId mandate) mandate.strategyVersion
    (min expiresAt mandate.expiresAt))
  consumeMandate mandate permit

def issueEntryPermit (now : ℤ) (request : PermitRequest) : SupervisedProgram EffectPermit := do
  let before ← files
  refuseIf before.halted (.refused "effects_halted" "")
  refuseIf (before.entryMandateConsumed.get request.intent.intentId).isSome
    (.approvalRefused [.mandateAlreadyConsumed] request.intent.intentId)
  let found ← readFile (.entryMandate request.intent.intentId)
    (before.entryMandate.get request.intent.intentId)
  match found with
  | none => raise .fileOperation
  | some mandate => mintEntryPermit env now request mandate

/-- The intent has a mandate of one order. -/
def hasEntryMandate (files : SupervisedFiles) (intentId : String) : Bool :=
  entryIntentOk intentId &&
    ((files.entryMandate.get intentId).isSome || (files.entryMandateConsumed.get intentId).isSome)

/-- Mint by the mandate of the intent, or by `mandate.json` if it has none and the effect is
no equity. -/
def issueByMandate (now : ℤ) (request : PermitRequest) : SupervisedProgram EffectPermit := do
  let before ← files
  if hasEntryMandate before request.intent.intentId then issueEntryPermit env now request
  else do
    refuseIf (env.effectKind request.effectPayload = .equity)
      (.refused "mandate_absent"
        (request.intent.intentId ++ ": an equity entry needs a per-trade approval"))
    issueMandatePermit env now request

/-- Spend one order of a mandate on a permit that is bound to the effect. -/
def issuePermit (now : ℤ) (request : PermitRequest) : SupervisedProgram EffectPermit := do
  refuseIf (request.canaryBlockers ≠ [])
    (.refused "canary_blockers" (",".intercalate request.canaryBlockers))
  refuseIf (Reached now request.intent.sendDeadline) (.refused "intent_deadline_passed" "")
  refuseIf (request.ttlSeconds < 1 ∨ maxPermitTtlS < request.ttlSeconds)
    (.refused "permit_ttl_out_of_bounds" "")
  refuseIf (env.effectKind request.effectPayload = .invalid) (.refused "effect_invalid" "")
  issueByMandate env now request

/-! ## What a minted permit says -/

variable {env} {request : PermitRequest} {now : ℤ}

structure PermitFor (env : Environment) (request : PermitRequest) (now : ℤ)
    (mandateId : String) (expiresAt : ℤ) (permit : EffectPermit) : Prop where
  permitId : permit.permitId =
    permitIdOf env request.intent.intentId (env.sha256 request.effectPayload)
  mandateId : permit.mandateId = mandateId
  intentId : permit.intentId = request.intent.intentId
  issuedAt : permit.issuedAt = now
  expiresAt : permit.expiresAt = expiresAt

theorem permitFor_of_permitOf {mandateId strategyVersion : String} {expiresAt : ℤ}
    {permit : EffectPermit}
    (ok : permitOf env request now mandateId strategyVersion expiresAt = .ok permit) :
    PermitFor env request now mandateId expiresAt permit := by
  rw [permitOf] at ok
  split at ok
  · cases ok
    exact ⟨rfl, rfl, rfl, rfl, rfl⟩
  · cases ok

theorem not_permitForIntent {files : SupervisedFiles} {intentId : String}
    (none : permitForIntent files intentId = false) :
    (∀ permitId permit, files.permit.get permitId = some permit → permit.intentId ≠ intentId) ∧
      ∀ permitId permit, files.permitConsumed.get permitId = some permit →
        permit.intentId ≠ intentId := by
  rw [permitForIntent, Bool.or_eq_false_iff] at none
  constructor
  · intro permitId permit isPermit same
    rw [Directory.any_iff.mpr ⟨permitId, permit, isPermit, decide_eq_true same⟩] at none
    cases none.1
  · intro permitId permit isPermit same
    rw [Directory.any_iff.mpr ⟨permitId, permit, isPermit, decide_eq_true same⟩] at none
    cases none.2

end TreeOptions.Supervised
