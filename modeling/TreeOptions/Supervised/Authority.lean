import TreeOptions.Supervised.Records

/-!
# Mandates

There are two kinds of authority. `mandate.json` is granted for an account, an owner epoch
and a strategy, for a number of orders; at most one is active, and it ends by expiry or by
revocation. A mandate of one order is granted for one intent by an approval (`mandates/`),
and is consumed when its permit is minted, or retired when it can no longer mint one.
-/

set_option autoImplicit false

namespace TreeOptions.Supervised

open Desk (Blocker EntryProposal ApproveEntryCommand SupervisedMandateV2 Reached)
open Durable

/-! ## The single mandate -/

def minMandateTtlS : ℤ :=
  60

def maxMandateTtlS : ℤ :=
  7 * 24 * 60 * 60

def longGrantS : ℤ :=
  8 * 60 * 60

/-- What the operator asks for. -/
structure GrantRequest where
  accountId : String
  ownerEpoch : String
  strategyVersion : String
  profileDigest : String
  maxOrders : ℕ
  ttlSeconds : ℤ
  grantedBy : String
  mandateId : Option String
  environment : String
  maxGrossNotionalUsd : Option NotionalCap

/-- The cap of an operational canary: finite, above zero and at most 100 USD. -/
def canaryCap : Option NotionalCap → Bool
  | some (.finite value) => 0 < value && value ≤ 100
  | some .notFinite => false
  | none => false

/-- What is wrong with the environment a mandate is for. -/
def environmentError (request : GrantRequest) : Option String :=
  if request.environment = "broker_paper" then
    if request.maxOrders ≠ 1 ∨ request.strategyVersion ≠ "operational-canary/1" then
      some "broker paper is bounded to one operational canary"
    else if ¬ canaryCap request.maxGrossNotionalUsd then
      some "broker paper requires an explicit notional cap at most 100 USD"
    else if 900 < request.ttlSeconds then
      some "broker paper mandate TTL exceeds 900 seconds"
    else none
  else if request.environment = "ibkr-paper" then none
  else some "this build supervises the paper environment only"

/-- Lower-case hexadecimal digits. -/
def hexDigits (number : ℕ) : String :=
  String.ofList (Nat.toDigits 16 number)

def defaultMandateId (now : ℤ) : String :=
  "mandate-" ++ (if now < 0 then "-" else "") ++ hexDigits (now.tdiv microseconds).natAbs

/-- The mandate a request is granted, unless it is not valid. -/
def mandateOf (request : GrantRequest) (now : ℤ) : Except SupervisedError SupervisedMandate :=
  match shiftInstant now request.ttlSeconds with
  | none => .error (.invalid "date value out of range")
  | some expiresAt =>
    if window : now < expiresAt ∧ 1 ≤ request.maxOrders then
      match environmentError request with
      | some text => .error (.invalid text)
      | none =>
        .ok {
          mandateId := request.mandateId.getD (defaultMandateId now)
          environment := request.environment
          accountId := request.accountId
          ownerEpoch := request.ownerEpoch
          strategyVersion := request.strategyVersion
          profileDigest := request.profileDigest
          maxOrders := request.maxOrders
          maxGrossNotionalUsd := request.maxGrossNotionalUsd
          ordersUsed := 0
          grantedAt := now
          expiresAt := expiresAt
          grantedBy := request.grantedBy
          longRunning := longGrantS < request.ttlSeconds
          granted_lt := window.1
          used_le := Nat.zero_le _ }
    else .error (.invalid "expires_at must be after granted_at")

/-- An expired mandate makes way, an active one does not. -/
def retireExpired (now : ℤ) (existing : Option SupervisedMandate) : SupervisedProgram Unit :=
  match existing with
  | none => pure ⟨⟩
  | some existing => do
      refuseIf (¬ existing.ExpiredAt now) (.refused "mandate_already_active" existing.mandateId)
      durably (.rename .mandateExpired) (change fun files => { files with mandate := none })

/-- The files with a granted mandate, which is the next one. -/
def granted (mandate : SupervisedMandate) (world : SupervisedWorld) : SupervisedWorld :=
  { world with
    files := { world.files with mandate := some mandate }
    grants := world.grants + 1 }

/-- Grant a mandate. One that has not expired must be revoked or expire first. -/
def grantMandate (now : ℤ) (request : GrantRequest) : SupervisedProgram SupervisedMandate := do
  refuseIf (request.ttlSeconds < minMandateTtlS ∨ maxMandateTtlS < request.ttlSeconds)
    (.refused "mandate_ttl_out_of_bounds" "")
  let before ← files
  refuseIf before.halted (.refused "effects_halted" "")
  refuseIf before.mandateRevoked.isSome
    (.refused "mandate_revoked_permanent" "remove the tombstone by hand to re-arm")
  let existing ← readFile .mandate before.mandate
  retireExpired now existing
  let mandate ← check (mandateOf request now)
  durably (.replace .mandate) (granted mandate)
  pure mandate

/-- Persist the kill file. -/
def haltEffects : SupervisedProgram Unit :=
  durably (.replace .halt) (change fun files => { files with halted := true })

/-- Replace the mandate with a permanent tombstone. -/
def revokeMandate : SupervisedProgram Unit := do
  let before ← files
  let existing ← readFile .mandate before.mandate
  match existing with
  | none => raise (.refused "mandate_absent" "")
  | some mandate => do
      durably (.replace .mandateRevoked)
        (change fun files => { files with mandateRevoked := some mandate })
      durably (.unlink .mandate) (change fun files => { files with mandate := none })

def boundMandate (now : ℤ) (accountId ownerEpoch strategyVersion : String)
    (mandate : SupervisedMandate) : Except SupervisedError SupervisedMandate :=
  if mandate.ExpiredAt now then .error (.refused "mandate_expired" mandate.mandateId)
  else if mandate.accountId ≠ accountId then .error (.refused "mandate_account_mismatch" "")
  else if mandate.ownerEpoch ≠ ownerEpoch then .error (.refused "mandate_owner_mismatch" "")
  else if mandate.strategyVersion ≠ strategyVersion then
    .error (.refused "mandate_scope_mismatch" "")
  else .ok mandate

/-- Load the one mandate, or refuse with the reason. -/
def activeMandate (now : ℤ) (accountId ownerEpoch strategyVersion : String) :
    SupervisedProgram SupervisedMandate := do
  let before ← files
  refuseIf before.halted (.refused "effects_halted" "")
  refuseIf before.mandateRevoked.isSome (.refused "mandate_revoked" "")
  let found ← readFile .mandate before.mandate
  match found with
  | none => raise (.refused "mandate_absent" "")
  | some mandate => check (boundMandate now accountId ownerEpoch strategyVersion mandate)

/-! ## Mandates of one order -/

def entryMandateIdPrefix : String :=
  "mandate2-"

/-- The mandate id that a permit minted from this mandate carries. -/
def entryMandateId (mandate : SupervisedMandateV2) : String :=
  entryMandateIdPrefix ++ mandate.approvalId

def isAsciiAlphanumeric (ch : Char) : Bool :=
  'A' ≤ ch && ch ≤ 'Z' || 'a' ≤ ch && ch ≤ 'z' || '0' ≤ ch && ch ≤ '9'

/-- An id that can be the name of a file: no separators, no leading dot, 96 characters at
most. -/
def pathSafeId : List Char → Bool
  | [] => false
  | first :: rest =>
    isAsciiAlphanumeric first && decide (rest.length ≤ 95) &&
      rest.all fun ch => isAsciiAlphanumeric ch || ch = '.' || ch = '_' || ch = '-'

def consumedSuffix : String :=
  ".consumed"

/-- The intent can name the file of a mandate, and no other one. -/
def entryIntentOk (intentId : String) : Bool :=
  pathSafeId intentId.toList && !consumedSuffix.toList.isSuffixOf intentId.toList

/-- Some permit, issued or consumed, is for the intent. -/
def permitForIntent (files : SupervisedFiles) (intentId : String) : Bool :=
  files.permit.any (fun _ permit => permit.intentId = intentId) ||
    files.permitConsumed.any fun _ permit => permit.intentId = intentId

/-- Read the permits, and refuse an intent that has one. -/
def refuseIssued (intentId : String) : SupervisedProgram Unit := do
  operate (.read .permits) .fileOperation id
  let before ← files
  refuseIf (permitForIntent before intentId) (.refused "permit_already_issued" "")

/-- Move a mandate that can no longer mint out of the way. -/
def retire (mandate : SupervisedMandateV2) : SupervisedProgram Unit := do
  durably (.rename (.entryMandateRetired mandate.intentId)) (change fun files =>
    { files with entryMandate := files.entryMandate.remove mandate.intentId })
  durably (.append (.entryMandateRetirements mandate.intentId) 0) id

/-- Why a stored mandate can never mint a permit. -/
def deadReason (mandate : SupervisedMandateV2) (now : ℤ) (ownerEpoch profileDigest : String) :
    Option String :=
  if mandate.ExpiredAt now then some "expired"
  else if mandate.ownerEpoch ≠ ownerEpoch then some "owner_epoch_changed"
  else if mandate.profileDigest ≠ profileDigest then some "profile_changed"
  else none

/-- Write the mandate of an approval. -/
def storeEntryMandate (proposal : EntryProposal) (command : ApproveEntryCommand) (now : ℤ) :
    SupervisedProgram SupervisedMandateV2 :=
  match Desk.mandateForApproval proposal command now with
  | none => raise (.invalid "expires_at must be after granted_at")
  | some mandate => do
      durably (.replace (.entryMandate proposal.effect.intentId)) (change fun files =>
        { files with
          entryMandate := files.entryMandate.write proposal.effect.intentId mandate })
      pure mandate

/-- The same approval again keeps its mandate. Another one replaces a mandate that can no
longer mint. -/
def replaceEntryMandate (proposal : EntryProposal) (command : ApproveEntryCommand) (now : ℤ)
    (ownerEpoch profileDigest : String) (current : Option SupervisedMandateV2) :
    SupervisedProgram SupervisedMandateV2 :=
  match current with
  | none => storeEntryMandate proposal command now
  | some existing =>
    if existing.approvalId = command.idempotencyKey then do
      refuseIf (existing.proposalId ≠ proposal.proposalId)
        (.approvalRefused [.commandBodyMismatch] proposal.effect.intentId)
      pure existing
    else do
      refuseIf (deadReason existing now ownerEpoch profileDigest = none)
        (.refused "entry_mandate_already_granted" existing.approvalId)
      retire existing
      storeEntryMandate proposal command now

/-- Grant the mandate that one validated approval buys. -/
def grantEntryMandate (sha256 : List UInt8 → String) (now : ℤ) (proposal : EntryProposal)
    (command : ApproveEntryCommand) (ownerEpoch profileDigest : String) :
    SupervisedProgram SupervisedMandateV2 := do
  refuseIf (Desk.approvalBlockers sha256 proposal command now ownerEpoch profileDigest ≠ [])
    (.approvalRefused
      (Desk.approvalBlockers sha256 proposal command now ownerEpoch profileDigest) "")
  refuseIf (¬ entryIntentOk proposal.effect.intentId)
    (.refused "intent_id_not_path_safe" proposal.effect.intentId)
  let before ← files
  refuseIf before.halted (.refused "effects_halted" "")
  refuseIf (before.entryMandateConsumed.get proposal.effect.intentId).isSome
    (.approvalRefused [.mandateAlreadyConsumed] proposal.effect.intentId)
  refuseIssued proposal.effect.intentId
  let current ← readFile (.entryMandate proposal.effect.intentId)
    (before.entryMandate.get proposal.effect.intentId)
  replaceEntryMandate proposal command now ownerEpoch profileDigest current

/-- Retire the mandate of another owner epoch, where it reads. -/
def invalidateOne (ownerEpoch : String) (intentId : String)
    (mandate : Option SupervisedMandateV2) : SupervisedProgram (List String) :=
  match mandate with
  | none => pure []
  | some mandate =>
    if mandate.ownerEpoch ≠ ownerEpoch then do
      retire mandate
      pure [intentId]
    else pure []

/-- Go through the mandates. One that does not read is left in place. -/
def invalidateFrom (ownerEpoch : String) : List String → SupervisedProgram (List String)
  | [] => pure []
  | intentId :: rest => do
      let before ← files
      let mandate ← attempt
        (readFile (.entryMandate intentId) (before.entryMandate.get intentId))
        fun _ => pure none
      let first ← invalidateOne ownerEpoch intentId mandate
      let others ← invalidateFrom ownerEpoch rest
      pure (first ++ others)

/-- Retire every unconsumed mandate of another owner epoch. -/
def invalidateEntryMandates (ownerEpoch : String) : SupervisedProgram (List String) := do
  let before ← files
  invalidateFrom ownerEpoch (sortedBy String.toList before.entryMandate.names)

def retireFound (intentId : String) (proposalId : Option String)
    (mandate : Option SupervisedMandateV2) : SupervisedProgram (Option SupervisedMandateV2) :=
  match mandate with
  | none => pure none
  | some mandate =>
    if mandate.intentId ≠ intentId ∨ proposalId.any (fun proposal =>
        mandate.proposalId ≠ proposal) then pure none
    else do
      retire mandate
      pure (some mandate)

/-- Retire the unconsumed mandate of an intent, so that it can never mint a permit. -/
def retireEntryMandate (intentId : String) (proposalId : Option String) :
    SupervisedProgram (Option SupervisedMandateV2) := do
  refuseIf (¬ entryIntentOk intentId) (.refused "intent_id_not_path_safe" intentId)
  let before ← files
  let mandate ← attempt
    (readFile (.entryMandate intentId) (before.entryMandate.get intentId))
    fun _ => pure none
  retireFound intentId proposalId mandate

/-! ## The mandate behind a permit -/

/-- The consumed mandate of the intent of a permit, where its id can name one. -/
def consumedFor (files : SupervisedFiles) (intentId : String) : Option SupervisedMandateV2 :=
  if entryIntentOk intentId then files.entryMandateConsumed.get intentId else none

/-- The permit says that it is for one order, or its intent has a consumed mandate. -/
def perTrade (files : SupervisedFiles) (permit : EffectPermit) : Bool :=
  entryMandateIdPrefix.toList.isPrefixOf permit.mandateId.toList ||
    (consumedFor files permit.intentId).isSome

/-- The mandate and the permit agree. -/
def bindingMatches (mandate : SupervisedMandateV2) (permit : EffectPermit) : Bool :=
  entryMandateId mandate = permit.mandateId && mandate.intentId = permit.intentId &&
    mandate.effectSha256 = permit.effectSha256 && mandate.accountId = permit.accountId &&
    mandate.ownerEpoch = permit.ownerEpoch && mandate.strategyVersion = permit.strategyVersion

/-- The consumed mandate behind a permit, and none for a permit of `mandate.json`. -/
def entryMandateForPermit (permit : EffectPermit) :
    SupervisedProgram (Option SupervisedMandateV2) := do
  let before ← files
  if ¬ perTrade before permit then pure none
  else do
    refuseIf before.halted (.refused "effects_halted" "")
    let found ← readFile (.entryMandateConsumed permit.intentId)
      (consumedFor before permit.intentId)
    match found with
    | none => raise (.refused "mandate_absent" permit.intentId)
    | some mandate => do
        refuseIf (¬ bindingMatches mandate permit)
          (.refused "mandate_binding_mismatch" permit.permitId)
        pure (some mandate)

/-! ## What the checks leave as it was -/

section

variable {View : Type} {view : SupervisedWorld → View}

theorem leaves_activeMandate (now : ℤ) (accountId ownerEpoch strategyVersion : String) :
    Leaves view (activeMandate now accountId ownerEpoch strategyVersion) := by
  refine leaves_bind leaves_files fun before => leaves_bind (leaves_refuseIf _ _) fun _ =>
    leaves_bind (leaves_refuseIf _ _) fun _ => leaves_bind (leaves_readFile _ _) fun found => ?_
  cases found with
  | none => exact leaves_raise _
  | some mandate => exact leaves_check _

theorem leaves_entryMandateForPermit (permit : EffectPermit) :
    Leaves view (entryMandateForPermit permit) := by
  refine leaves_bind leaves_files fun before => ?_
  split
  · exact leaves_pure _
  · refine leaves_bind (leaves_refuseIf _ _) fun _ => leaves_bind (leaves_readFile _ _) fun found => ?_
    cases found with
    | none => exact leaves_raise _
    | some mandate => exact leaves_bind (leaves_refuseIf _ _) fun _ => leaves_pure _

theorem leaves_refuseIssued (intentId : String) : Leaves view (refuseIssued intentId) :=
  leaves_bind (leaves_operate fun _ => rfl) fun _ => leaves_bind leaves_files fun _ =>
    leaves_refuseIf _ _

theorem ends_refuseIssued {intentId : String} {world : SupervisedWorld}
    {fates : SupervisedOp → Fate} {after : Ending SupervisedError Unit → SupervisedWorld → Prop}
    (raised : ∀ error, after (.raised error) world) (died : after .died world)
    (unissued : permitForIntent world.files intentId = false → after (.returned ⟨⟩) world) :
    Ends (refuseIssued intentId) world fates after := by
  refine ends_bind (ends_operate ?_ (fun _ => raised _) fun _ => died)
  intro _
  refine Ends.next (ends_look (ends_refuseIf (fun _ => raised _) ?_))
  intro none
  exact unissued (Bool.eq_false_iff.mpr none)

end

end TreeOptions.Supervised
