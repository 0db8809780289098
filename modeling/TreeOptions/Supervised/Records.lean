import TreeOptions.Desk.Contracts
import TreeOptions.Execution.Lifecycle
import TreeOptions.Foundations.Directory
import TreeOptions.Foundations.Durable

/-!
# The supervised state directory

Authority, outbox and journal are files under one root: `mandate.json`, the mandates of
single orders, the permits, and for every intent its pending, sending, terminal and
reconciled file and its journal. All calls that change them hold one lock, so they come one
after another; each is a program of single file operations, and may fail or end with the
process at any of them.

The world of these programs also remembers what no file does: each submit the broker was
asked for, with the files as they were when it was checked and when it was made, and each
permit that was minted, with the mandate it was minted from.
-/

set_option autoImplicit false

namespace TreeOptions.Supervised

open Desk (Blocker EntryProposal ApproveEntryCommand SupervisedMandateV2 Reached)
open Execution (BrokerAcknowledgement ExecutionRecord LifecycleError OrderIntent OrderReject
  StoredExecutionRecord)

/-! ## Authority -/

/-- A notional cap as it is written. -/
inductive NotionalCap
  | finite (value : ℚ)
  | notFinite

/-- Trading authority that is bound to an account and a strategy, and expires. -/
structure SupervisedMandate where
  mandateId : String
  environment : String
  accountId : String
  ownerEpoch : String
  strategyVersion : String
  profileDigest : String
  maxOrders : ℕ
  maxGrossNotionalUsd : Option NotionalCap
  ordersUsed : ℕ
  grantedAt : ℤ
  expiresAt : ℤ
  grantedBy : String
  longRunning : Bool
  granted_lt : grantedAt < expiresAt
  used_le : ordersUsed ≤ maxOrders

def SupervisedMandate.ExpiredAt (mandate : SupervisedMandate) (now : ℤ) : Prop :=
  Reached now mandate.expiresAt

instance (mandate : SupervisedMandate) (now : ℤ) : Decidable (mandate.ExpiredAt now) :=
  inferInstanceAs (Decidable (Reached now mandate.expiresAt))

/-- Authority to submit the exact bytes of one effect once. -/
structure EffectPermit where
  permitId : String
  mandateId : String
  intentId : String
  packageIntentSha256 : String
  effectSha256 : String
  accountId : String
  ownerEpoch : String
  strategyVersion : String
  screeningSha256 : String
  issuedAt : ℤ
  expiresAt : ℤ
  consumedAt : Option ℤ := none
  issued_lt : issuedAt < expiresAt

/-! ## The outbox -/

structure SupervisedIntent where
  intent : OrderIntent
  packageIntentSha256 : String
  createdAt : ℤ
  sendDeadline : ℤ
  created_lt : createdAt < sendDeadline

def SupervisedIntent.intentId (intent : SupervisedIntent) : String :=
  intent.intent.intentId

def SupervisedIntent.fields (intent : SupervisedIntent) :=
  (intent.intent, intent.packageIntentSha256, intent.createdAt, intent.sendDeadline)

theorem SupervisedIntent.fields_injective : Function.Injective SupervisedIntent.fields := by
  rintro ⟨⟩ ⟨⟩ same
  cases same
  rfl

instance : DecidableEq SupervisedIntent := fun first second =>
  decidable_of_iff (first.fields = second.fields) SupervisedIntent.fields_injective.eq_iff

/-- What the claim adds to the intent. -/
structure ClaimMark where
  claimedAt : ℤ
  permitId : String
  effectSha256 : String

/-- A sending file: the intent as it was renamed, and the claim once it is written. -/
structure SendingClaim where
  intent : SupervisedIntent
  mark : Option ClaimMark

/-- What a receipt says of a submit. -/
inductive ReceiptOutcome
  | acknowledged (brokerOrderId : String)
  | rejected (reasonCode : String)
  | uncertain (reason detail : String)

structure SendReceipt where
  intentId : String
  outcome : ReceiptOutcome
  packageIntentSha256 : Option String
  permitId : Option String
  writtenAt : ℤ

inductive Verdict
  | confirmedNotSubmitted
  | confirmedSubmitted
  | stillUncertain
deriving DecidableEq

def Verdict.value : Verdict → String
  | .confirmedNotSubmitted => "confirmed_not_submitted"
  | .confirmedSubmitted => "confirmed_submitted"
  | .stillUncertain => "still_uncertain"

structure Reconciliation where
  intentId : String
  verdict : Verdict
  detail : String
  writtenAt : ℤ
  packageIntentSha256 : Option String
  brokerOrderId : Option String

/-! ## The broker -/

/-- How a submit that is not answered is observed. -/
inductive Observed
  | timeout
  | disconnect
  | uncertainty

inductive SubmissionOutcome
  | acknowledged (acknowledgement : BrokerAcknowledgement) (facts : List ExecutionRecord)
  | refused (reject : OrderReject)
  | uncertain (reason detail : String) (observation : Observed)

inductive LookupVerdict
  | notSubmitted
  | submitted (brokerOrderId : String) (facts : List ExecutionRecord)
  | unknown (reason : String)

/-- What the broker port answers to one call, how its errors are written, and whether it
checks effects itself. -/
structure Broker where
  executionEnvironment : String
  validatesEffects : Bool
  outcome : SubmissionOutcome
  transportError : String
  verdict : LookupVerdict

/-! ## The files -/

structure SupervisedFiles where
  halted : Bool
  mandate : Option SupervisedMandate
  mandateRevoked : Option SupervisedMandate
  permit : Directory String EffectPermit
  permitConsumed : Directory String EffectPermit
  entryMandate : Directory String SupervisedMandateV2
  entryMandateConsumed : Directory String SupervisedMandateV2
  pending : Directory String SupervisedIntent
  sending : Directory String SendingClaim
  terminal : Directory String SendReceipt
  reconciled : Directory String Reconciliation
  journal : Directory String (List StoredExecutionRecord)

def emptyFiles : SupervisedFiles where
  halted := false
  mandate := none
  mandateRevoked := none
  permit := .empty
  permitConsumed := .empty
  entryMandate := .empty
  entryMandateConsumed := .empty
  pending := .empty
  sending := .empty
  terminal := .empty
  reconciled := .empty
  journal := .empty

/-- One submit the broker was asked for. -/
structure Submission where
  permit : EffectPermit
  intent : SupervisedIntent
  submittedAt : ℤ
  checked : SupervisedFiles
  called : SupervisedFiles

inductive MintedFrom
  | grant (number : ℕ) (mandate : SupervisedMandate)
  | approval (mandate : SupervisedMandateV2)

structure Mint where
  permit : EffectPermit
  source : MintedFrom

structure SupervisedWorld where
  files : SupervisedFiles
  submits : List Submission
  mints : List Mint
  grants : ℕ

def emptyWorld : SupervisedWorld :=
  ⟨emptyFiles, [], [], 0⟩

/-! ## Operations -/

inductive SupervisedPath
  | halt
  | mandate
  | mandateRevoked
  | mandateExpired
  | permits
  | permit (permitId : String)
  | permitConsumed (permitId : String)
  | entryMandate (intentId : String)
  | entryMandateConsumed (intentId : String)
  | entryMandateRetired (intentId : String)
  | entryMandateRetirements (intentId : String)
  | outbox
  | pending (intentId : String)
  | sending (intentId : String)
  | terminal (intentId : String)
  | reconciled (intentId : String)
  | journal (intentId : String)
  | reconcileAudit (intentId : String)

/-- The operations of one call. The numbers tell the appends to one file apart. -/
inductive SupervisedOp
  | read (path : SupervisedPath)
  | replace (path : SupervisedPath)
  | rename (target : SupervisedPath)
  | unlink (path : SupervisedPath)
  | append (path : SupervisedPath) (number : ℕ)
  | synced (op : SupervisedOp)
  | preflight
  | submit
  | lookup

inductive SupervisedError
  | refused (reason detail : String)
  | approvalRefused (blockers : List Blocker) (detail : String)
  | invalid (text : String)
  | lifecycle (error : LifecycleError)
  | fileOperation
  | broker

open Durable

/-- A program of operations on the state directory. -/
abbrev SupervisedProgram (Value : Type) : Type :=
  Durable SupervisedOp SupervisedWorld SupervisedError Value

/-- An operation on the files. -/
def change (effect : SupervisedFiles → SupervisedFiles) (world : SupervisedWorld) :
    SupervisedWorld :=
  { world with files := effect world.files }

@[simp] theorem change_files (effect : SupervisedFiles → SupervisedFiles)
    (world : SupervisedWorld) : (change effect world).files = effect world.files :=
  rfl

/-- An operation, and the fsync after it. -/
def durably (op : SupervisedOp) (effect : SupervisedWorld → SupervisedWorld) :
    SupervisedProgram Unit := do
  operate op .fileOperation effect
  operate (.synced op) .fileOperation id

def readFile {Doc : Type} (path : SupervisedPath) (doc : Option Doc) :
    SupervisedProgram (Option Doc) :=
  match doc with
  | none => pure none
  | some found => do
      operate (.read path) .fileOperation id
      pure (some found)

def files : SupervisedProgram SupervisedFiles := do
  let world ← observe
  pure world.files

/-! ## How the operations end -/

variable {world : SupervisedWorld} {fates : SupervisedOp → Fate}

/-- The files change as a whole or not at all, and the fsync may still fail. -/
theorem ends_durably {op : SupervisedOp} {effect : SupervisedWorld → SupervisedWorld}
    {after : Ending SupervisedError Unit → SupervisedWorld → Prop}
    (unchanged : after (.raised .fileOperation) world ∧ after .died world)
    (changed : after (.raised .fileOperation) (effect world) ∧ after .died (effect world))
    (done : after (.returned ⟨⟩) (effect world)) :
    Ends (durably op effect) world fates after := by
  refine ends_bind (ends_operate ?_ ?_ ?_)
  · intro _
    exact Ends.next (ends_operate (fun _ => done) (fun _ => changed.1) fun _ => changed.2)
  · intro _
    exact unchanged.1
  · intro _
    exact unchanged.2

theorem ends_readFile {Doc : Type} {path : SupervisedPath} {doc : Option Doc}
    {after : Ending SupervisedError (Option Doc) → SupervisedWorld → Prop}
    (unread : after (.raised .fileOperation) world ∧ after .died world)
    (read : after (.returned doc) world) : Ends (readFile path doc) world fates after := by
  cases doc with
  | none => exact ends_pure read
  | some found =>
    exact ends_bind (ends_operate (fun _ => Ends.next (ends_pure read)) (fun _ => unread.1)
      fun _ => unread.2)

section

variable {View : Type} {view : SupervisedWorld → View}

theorem leaves_durably {op : SupervisedOp} {effect : SupervisedWorld → SupervisedWorld}
    (kept : ∀ world, view (effect world) = view world) : Leaves view (durably op effect) :=
  leaves_bind (leaves_operate kept) fun _ => leaves_operate fun _ => rfl

theorem leaves_readFile {Doc : Type} (path : SupervisedPath) (doc : Option Doc) :
    Leaves view (readFile path doc) := by
  cases doc with
  | none => exact leaves_pure none
  | some found => exact leaves_bind (leaves_operate fun _ => rfl) fun _ => leaves_pure _

theorem leaves_files : Leaves view files :=
  leaves_bind leaves_observe fun _ => leaves_pure _

end

theorem ends_files {after : Ending SupervisedError SupervisedFiles → SupervisedWorld → Prop}
    (read : after (.returned world.files) world) : Ends files world fates after :=
  ends_bind (ends_observe (Ends.next (ends_pure read)))

section

variable {Value Doc : Type}

theorem ends_look {next : SupervisedFiles → SupervisedProgram Value}
    {after : Ending SupervisedError Value → SupervisedWorld → Prop}
    (goesOn : Ends (next world.files) world fates after) :
    Ends (files >>= next) world fates after :=
  ends_bind (ends_files goesOn)

variable {holds : SupervisedWorld → Prop} {results : Value → SupervisedWorld → Prop}

theorem ends_load {path : SupervisedPath} {doc : Option Doc} {next : Option Doc → SupervisedProgram Value}
    (here : holds world) (goesOn : Ends (next doc) world fates (Safely holds results)) :
    Ends (readFile path doc >>= next) world fates (Safely holds results) :=
  ends_bind (ends_readFile ⟨here, here⟩ goesOn)

theorem ends_write {op : SupervisedOp} {effect : SupervisedWorld → SupervisedWorld}
    {next : Unit → SupervisedProgram Value} (before : holds world) (written : holds (effect world))
    (goesOn : Ends (next ⟨⟩) (effect world) fates (Safely holds results)) :
    Ends (durably op effect >>= next) world fates (Safely holds results) :=
  ends_bind (ends_durably ⟨before, before⟩ ⟨written, written⟩ goesOn)

end

end TreeOptions.Supervised
