import TreeOptions.Foundations.TransitionSystem
import TreeOptions.Supervised.Outbox

/-!
# Sending and recovery

The claim and the consumption of the permit are durable before the broker is asked, so a
crash at any point leaves an effect that only reconciliation can clear. `recover` reads the
claim of an orphan to learn its package. If it cannot, it writes a receipt that names no
package.
-/

set_option autoImplicit false

namespace TreeOptions.Supervised

open Desk (SupervisedMandateV2 Reached)
open Durable
open Execution (BrokerFact ExecutionLifecycle ExecutionRecord LifecycleError Observation
  OrderIntent RecordHead StoredExecutionRecord SubmitAttempt)

variable (env : Environment)

/-! ## Journals -/

def journalAppend (intentId : String) (number : ℕ) (record : StoredExecutionRecord) :
    SupervisedProgram Unit :=
  durably (.append (.journal intentId) number) (change fun files =>
    { files with
      journal := files.journal.write intentId
        ((files.journal.get intentId).getD [] ++ [record]) })

/-- Append the records, numbered from a number on. -/
def journalAll (intentId : String) : ℕ → List ExecutionRecord → SupervisedProgram Unit
  | _, [] => pure ⟨⟩
  | number, record :: rest => do
      journalAppend intentId number (.execution record)
      journalAll intentId (number + 1) rest

def fold (life : ExecutionLifecycle) (records : List ExecutionRecord) :
    Except SupervisedError ExecutionLifecycle :=
  (life.applyAll env.json records).mapError .lifecycle

/-- Fold the journal of an intent. -/
def projectIntent (files : SupervisedFiles) (intentId : String) :
    Except SupervisedError ExecutionLifecycle :=
  match (files.journal.get intentId).getD [] with
  | .orderIntent intent :: rest =>
    fold env (.start intent) (rest.filterMap fun record =>
      match record with
      | .orderIntent _ => none
      | .execution record => some record)
  | _ => .error (.refused "journal_empty" intentId)

/-! ## Sending -/

/-- The environment of the authority behind a permit. -/
def authorize (now : ℤ) (permit : EffectPermit) : SupervisedProgram String := do
  let perTrade ← entryMandateForPermit permit
  match perTrade with
  | some mandate => pure mandate.environment
  | none => do
      let mandate ← activeMandate now permit.accountId permit.ownerEpoch permit.strategyVersion
      pure mandate.environment

/-- Why a permit cannot be sent whose intent is not pending. -/
def notPending (files : SupervisedFiles) (intentId : String) : SupervisedError :=
  if (files.terminal.get intentId).isSome || (files.reconciled.get intentId).isSome then
    .refused "intent_terminal" intentId
  else if (files.sending.get intentId).isSome then .refused "intent_in_flight" intentId
  else .refused "intent_absent" intentId

/-- The attempt that a permit makes. -/
def attemptOf (now : ℤ) (permit : EffectPermit) : SubmitAttempt where
  recordId := "sup-send-" ++ permit.permitId
  intentId := permit.intentId
  source := "supervised"
  sourceSequenceId := permit.permitId
  sendAttemptAt := now

/-- The claim is the rename, and the consumption of the permit is one, too. -/
def claimAndConsume (now : ℤ) (permit : EffectPermit) (intent : SupervisedIntent) :
    SupervisedProgram Unit := do
  durably (.rename (.sending permit.intentId)) (change fun files =>
    { files with
      pending := files.pending.remove permit.intentId
      sending := files.sending.write permit.intentId ⟨intent, none⟩ })
  durably (.replace (.sending permit.intentId)) (change fun files =>
    { files with
      sending := files.sending.write permit.intentId
        ⟨intent, some ⟨now, permit.permitId, permit.effectSha256⟩⟩ })
  durably (.rename (.permitConsumed permit.permitId)) (change fun files =>
    { files with
      permit := files.permit.remove permit.permitId
      permitConsumed := files.permitConsumed.write permit.permitId permit })
  durably (.replace (.permitConsumed permit.permitId)) (change fun files =>
    { files with
      permitConsumed := files.permitConsumed.write permit.permitId
        { permit with consumedAt := some now } })

/-- The world in which the broker was asked. -/
def submitted (now : ℤ) (permit : EffectPermit) (intent : SupervisedIntent)
    (checked : SupervisedFiles) (world : SupervisedWorld) : SupervisedWorld :=
  { world with submits := world.submits ++ [⟨permit, intent, now, checked, world.files⟩] }

/-- Ask the broker. An error of the port leaves the effect uncertain. -/
def submit (now : ℤ) (permit : EffectPermit) (intent : SupervisedIntent)
    (checked : SupervisedFiles) (broker : Broker) : SupervisedProgram SubmissionOutcome :=
  attempt
    (do
      contact .submit .broker (submitted now permit intent checked)
      pure broker.outcome)
    fun _ => pure (.uncertain "broker_transport_error" broker.transportError .timeout)

/-- The records an outcome brings. -/
def SubmissionOutcome.records : SubmissionOutcome → List ExecutionRecord
  | .acknowledged acknowledgement facts =>
    .brokerFact (.acknowledgement acknowledgement) :: facts
  | .refused reject => [.brokerFact (.reject reject)]
  | .uncertain _ _ _ => []

/-- An outcome whose facts the lifecycle refuses is uncertain. -/
def accepted (base : ExecutionLifecycle) (outcome : SubmissionOutcome) : SubmissionOutcome :=
  match fold env base outcome.records with
  | .ok _ => outcome
  | .error error => .uncertain "broker_facts_rejected" (env.errorText error) .timeout

/-- What an uncertain outcome leaves in the journal. -/
def uncertaintyRecord (now : ℤ) (permit : EffectPermit) (reason : String) :
    Observed → ExecutionRecord
  | .timeout => .observation (.timeout {
      recordId := "sup-timeout-" ++ permit.permitId
      intentId := permit.intentId
      source := "supervised"
      sourceSequenceId := "timeout-" ++ permit.permitId
      attemptId := (attemptOf now permit).recordId
      locallyReceivedAt := now })
  | .disconnect => .observation (.disconnect {
      recordId := "sup-disconnect-" ++ permit.permitId
      intentId := permit.intentId
      source := "supervised"
      sourceSequenceId := "disconnect-" ++ permit.permitId
      locallyReceivedAt := now })
  | .uncertainty => .observation (.uncertainty {
      recordId := "sup-uncertain-" ++ permit.permitId
      intentId := permit.intentId
      source := "supervised"
      sourceSequenceId := "uncertain-" ++ permit.permitId
      locallyReceivedAt := now
      reasonCode := reason })

/-- What goes into the journal after the broker was asked. -/
def outcomeRecords (now : ℤ) (permit : EffectPermit) : SubmissionOutcome → List ExecutionRecord
  | .uncertain reason _ observation => [uncertaintyRecord now permit reason observation]
  | .acknowledged acknowledgement facts =>
    (SubmissionOutcome.acknowledged acknowledgement facts).records
  | .refused reject => (SubmissionOutcome.refused reject).records

def SubmissionOutcome.receiptOutcome : SubmissionOutcome → ReceiptOutcome
  | .acknowledged acknowledgement _ => .acknowledged acknowledgement.brokerOrderId
  | .refused reject => .rejected reject.reasonCode
  | .uncertain reason detail _ => .uncertain reason detail

def receiptOf (now : ℤ) (permit : EffectPermit) (outcome : SubmissionOutcome) : SendReceipt where
  intentId := permit.intentId
  outcome := outcome.receiptOutcome
  packageIntentSha256 := some permit.packageIntentSha256
  permitId := some permit.permitId
  writtenAt := now

/-- Write the receipt, and remove the claim. -/
def conclude (receipt : SendReceipt) : SupervisedProgram SendReceipt := do
  durably (.replace (.terminal receipt.intentId)) (change fun files =>
    { files with terminal := files.terminal.write receipt.intentId receipt })
  durably (.unlink (.sending receipt.intentId)) (change fun files =>
    { files with sending := files.sending.remove receipt.intentId })
  pure receipt

/-- Claim, consume, ask the broker, and write down what it answers. -/
def transmit (now : ℤ) (permit : EffectPermit) (intent : SupervisedIntent)
    (checked : SupervisedFiles) (broker : Broker) : SupervisedProgram SendReceipt := do
  claimAndConsume now permit intent
  journalAppend permit.intentId 0 (.orderIntent intent.intent)
  journalAppend permit.intentId 1 (.execution (.submitAttempt (attemptOf now permit)))
  let base ← check (fold env (.start intent.intent) [.submitAttempt (attemptOf now permit)])
  let answered ← submit now permit intent checked broker
  journalAll permit.intentId 2 (outcomeRecords now permit (accepted env base answered))
  conclude (receiptOf now permit (accepted env base answered))

/-- The broker port checks the effect itself, if it can. -/
def preflight (broker : Broker) : SupervisedProgram Unit :=
  if broker.validatesEffects then operate .preflight .broker id else pure ⟨⟩

def sendIntent (now : ℤ) (permit : EffectPermit) (environment : String)
    (checked : SupervisedFiles) (broker : Broker) (pending : Option SupervisedIntent) :
    SupervisedProgram SendReceipt :=
  match pending with
  | none => raise (notPending checked permit.intentId)
  | some intent => do
      refuseIf (intent.packageIntentSha256 ≠ permit.packageIntentSha256)
        (.refused "intent_permit_binding_mismatch" permit.intentId)
      refuseIf (Reached now intent.sendDeadline)
        (.refused "intent_deadline_passed" permit.intentId)
      refuseIf (environment = "broker_paper" ∧ ¬ broker.validatesEffects)
        (.refused "broker_paper_preflight_absent" "")
      preflight broker
      transmit env now permit intent checked broker

def sendPermit (now : ℤ) (permit : EffectPermit) (effectPayload : List UInt8)
    (checked : SupervisedFiles) (broker : Broker) : SupervisedProgram SendReceipt := do
  refuseIf (Reached now permit.expiresAt) (.refused "permit_expired" permit.permitId)
  refuseIf (env.sha256 effectPayload ≠ permit.effectSha256)
    (.refused "effect_hash_mismatch" permit.permitId)
  let environment ← authorize now permit
  refuseIf (environment ≠ broker.executionEnvironment)
    (.refused "broker_environment_mismatch" "")
  let pending ← readFile (.pending permit.intentId) (checked.pending.get permit.intentId)
  sendIntent env now permit environment checked broker pending

/-- The send boundary. -/
def send (now : ℤ) (permitId : String) (effectPayload : List UInt8) (broker : Broker) :
    SupervisedProgram SendReceipt := do
  let checked ← files
  let issued ← readFile (.permit permitId) (checked.permit.get permitId)
  match issued with
  | none =>
    if (checked.permitConsumed.get permitId).isSome then
      raise (.refused "permit_consumed" permitId)
    else raise (.refused "permit_absent" permitId)
  | some permit => sendPermit env now permit effectPayload checked broker

/-! ## Recovery -/

/-- The records of a claim whose journal was not begun. -/
def recoveredRecords (now : ℤ) (intentId : String) (mark : ClaimMark) : List ExecutionRecord :=
  [.submitAttempt {
      recordId := "sup-send-" ++ mark.permitId
      intentId := intentId
      source := "supervised-recovered-claim"
      sourceSequenceId := mark.permitId
      sendAttemptAt := mark.claimedAt },
    .observation (.uncertainty {
      recordId := "sup-recovery-" ++ mark.permitId
      intentId := intentId
      source := "supervised-recovered-claim"
      sourceSequenceId := "recovery-" ++ mark.permitId
      locallyReceivedAt := now
      reasonCode := "process_restart_after_durable_claim" })]

/-- Begin the journal of a claim that has none. -/
def recoverJournal (now : ℤ) (intentId : String) (claim : SendingClaim) :
    SupervisedProgram Unit := do
  let before ← files
  match before.journal.get intentId, claim.mark with
  | none, some mark => do
      journalAppend intentId 0 (.orderIntent claim.intent.intent)
      journalAll intentId 1 (recoveredRecords now intentId mark)
  | _, _ => pure ⟨⟩

/-- The package of a claim, and its journal. -/
def recoverClaim (now : ℤ) (intentId : String) (claim : SendingClaim) :
    SupervisedProgram (Option String) := do
  operate (.read (.sending intentId)) .fileOperation id
  recoverJournal now intentId claim
  pure (some claim.intent.packageIntentSha256)

def orphanReceipt (now : ℤ) (intentId : String) (package : Option String) : SendReceipt where
  intentId := intentId
  outcome := .uncertain "sending_orphan_recovered" "process died between claim and terminal write"
  packageIntentSha256 := package
  permitId := none
  writtenAt := now

def unlinkSending (intentId : String) : SupervisedProgram Unit :=
  operate (.unlink (.sending intentId)) .fileOperation (change fun files =>
    { files with sending := files.sending.remove intentId })

/-- A claim without a receipt gets an uncertain one, without a package if an operation on
the way to it fails. -/
def recoverOrphan (now : ℤ) (intentId : String) (claim : SendingClaim) :
    SupervisedProgram (List String) := do
  let package ← attempt (recoverClaim now intentId claim) fun _ => pure none
  durably (.replace (.terminal intentId)) (change fun files =>
    { files with
      terminal := files.terminal.write intentId (orphanReceipt now intentId package) })
  unlinkSending intentId
  pure [intentId]

def recoverOne (now : ℤ) (intentId : String) : SupervisedProgram (List String) := do
  let before ← files
  match before.sending.get intentId, before.terminal.get intentId with
  | none, _ => pure []
  | some _, some _ => do
      unlinkSending intentId
      pure []
  | some claim, none => recoverOrphan now intentId claim

def recoverFrom (now : ℤ) : List String → SupervisedProgram (List String)
  | [] => pure []
  | intentId :: rest => do
      let first ← recoverOne now intentId
      let others ← recoverFrom now rest
      pure (first ++ others)

/-- Turn the claims a dead process left into uncertain effects. -/
def recover (now : ℤ) : SupervisedProgram (List String) := do
  let before ← files
  recoverFrom now (sortedBy String.toList (before.sending.names.filter listed))

/-! ## Reconciliation -/

def reconcileSettleS : ℤ :=
  120

/-- Broker evidence as a verdict, what it says, and the facts it brings. -/
def weigh (files : SupervisedFiles) (intentId : String) :
    LookupVerdict → Verdict × String × List ExecutionRecord
  | .notSubmitted => (.confirmedNotSubmitted, "", [])
  | .unknown reason => (.stillUncertain, reason, [])
  | .submitted _ facts =>
    match projectIntent env files intentId >>= fun life => fold env life facts with
    | .ok _ => (.confirmedSubmitted, "", facts)
    | .error error => (.stillUncertain, "facts_rejected: " ++ env.errorText error, [])

def LookupVerdict.brokerOrderId : LookupVerdict → Option String
  | .submitted brokerOrderId _ => some brokerOrderId
  | .notSubmitted => none
  | .unknown _ => none

def auditReconcile (intentId : String) : SupervisedProgram Unit :=
  durably (.append (.reconcileAudit intentId) 0) id

/-- Keep a verdict. A confirmed one never changes. -/
def keepVerdict (record : Reconciliation) (facts : List ExecutionRecord)
    (prior : Option Reconciliation) : SupervisedProgram Reconciliation :=
  if record.verdict = .stillUncertain then do
    auditReconcile record.intentId
    pure record
  else
    match prior with
    | some prior => do
        refuseIf (prior.verdict ≠ record.verdict)
          (.refused "reconcile_verdict_conflict"
            (prior.verdict.value ++ " -> " ++ record.verdict.value))
        pure prior
    | none => do
        journalAll record.intentId 3 facts
        auditReconcile record.intentId
        durably (.replace (.reconciled record.intentId)) (change fun files =>
          { files with reconciled := files.reconciled.write record.intentId record })
        pure record

def reconcileUncertain (now : ℤ) (intentId : String) (terminal : SendReceipt)
    (broker : Broker) : SupervisedProgram Reconciliation := do
  refuseIf (terminal.outcome.state ≠ .uncertain) (.refused "intent_not_uncertain" intentId)
  let settleAt ← check (match shiftInstant terminal.writtenAt reconcileSettleS with
    | none => .error (.invalid "date value out of range")
    | some settleAt => .ok settleAt)
  refuseIf (¬ Reached now settleAt) (.refused "reconcile_too_early" intentId)
  let before ← files
  let prior ← readFile (.reconciled intentId) (before.reconciled.get intentId)
  operate .lookup .broker id
  keepVerdict
    { intentId := intentId
      verdict := (weigh env before intentId broker.verdict).1
      detail := (weigh env before intentId broker.verdict).2.1
      writtenAt := now
      packageIntentSha256 := terminal.packageIntentSha256
      brokerOrderId := broker.verdict.brokerOrderId }
    (weigh env before intentId broker.verdict).2.2 prior

/-- Clear an uncertain effect with broker evidence, or keep it held. -/
def reconcileIntent (now : ℤ) (intentId : String) (broker : Broker) :
    SupervisedProgram Reconciliation := do
  let _ ← recover now
  let before ← files
  let terminal ← readFile (.terminal intentId) (before.terminal.get intentId)
  match terminal with
  | none => raise (.refused "intent_not_terminal" intentId)
  | some terminal => reconcileUncertain env now intentId terminal broker

/-! ## Calls -/

/-- The calls that change the state directory. -/
inductive SupervisedCall
  | recordIntent (intent : SupervisedIntent)
  | issuePermit (request : PermitRequest)
  | send (permitId : String) (effectPayload : List UInt8) (broker : Broker)
  | recover
  | reconcileIntent (intentId : String) (broker : Broker)
  | grantMandate (request : GrantRequest)
  | revokeMandate
  | haltEffects
  | grantEntryMandate (proposal : Desk.EntryProposal) (command : Desk.ApproveEntryCommand)
      (ownerEpoch profileDigest : String)
  | invalidateEntryMandates (ownerEpoch : String)
  | retireEntryMandate (intentId : String) (proposalId : Option String)

/-- A program whose value is not needed. -/
def discard {Value : Type} (program : SupervisedProgram Value) : SupervisedProgram Unit := do
  let _ ← program
  pure ⟨⟩

def perform (now : ℤ) : SupervisedCall → SupervisedProgram Unit
  | .recordIntent intent => recordIntent intent
  | .issuePermit request => discard (issuePermit env now request)
  | .send permitId effectPayload broker => discard (send env now permitId effectPayload broker)
  | .recover => discard (recover now)
  | .reconcileIntent intentId broker => discard (reconcileIntent env now intentId broker)
  | .grantMandate request => discard (grantMandate now request)
  | .revokeMandate => revokeMandate
  | .haltEffects => haltEffects
  | .grantEntryMandate proposal command ownerEpoch profileDigest =>
    discard (grantEntryMandate env.sha256 now proposal command ownerEpoch profileDigest)
  | .invalidateEntryMandates ownerEpoch => discard (invalidateEntryMandates ownerEpoch)
  | .retireEntryMandate intentId proposalId => discard (retireEntryMandate intentId proposalId)

/-- One call, when it is made, and what becomes of its operations. -/
structure SupervisedStep where
  now : ℤ
  call : SupervisedCall
  fates : SupervisedOp → Fate

structure SupervisedState where
  world : SupervisedWorld
  clock : ℤ

/-- Time does not go back, and an intent is recorded when it is created. -/
def timely (clock : ℤ) (step : SupervisedStep) : Bool :=
  clock ≤ step.now &&
    match step.call with
    | .recordIntent intent => intent.createdAt = step.now
    | _ => true

/-- Calls on one state directory, which is empty at first. -/
def supervisedSystem : System SupervisedState SupervisedStep where
  Initial state := state.world = emptyWorld
  step state step :=
    if timely state.clock step then
      some ⟨(perform env step.now step.call state.world step.fates).2, step.now⟩
    else none

end TreeOptions.Supervised
