import TreeOptions.Execution.Retained
import TreeOptions.Supervised.OutboxKept

/-!
# Runs of the supervised outbox

A run makes any calls in any order, and any operation of a call may fail or be where the
process dies.
-/

set_option autoImplicit false

namespace TreeOptions.Supervised

open Desk (SupervisedMandateV2 Reached)
open Durable
open Execution (ExecutionRecord StoredExecutionRecord sampleIntent sampleSerialization)

variable {env : Environment} {world : SupervisedWorld} {fates : SupervisedOp → Fate} {now : ℤ}

/-! ## A package that is not in flight -/

section

variable {files : SupervisedFiles} {package intentId : String}

theorem mem_outboxIds (isListed : listed intentId)
    (present : (files.pending.get intentId).isSome ∨ (files.sending.get intentId).isSome ∨
      (files.terminal.get intentId).isSome ∨ (files.reconciled.get intentId).isSome) :
    intentId ∈ outboxIds files := by
  rw [outboxIds, mem_sortedBy, List.mem_dedup, List.mem_filter]
  refine ⟨?_, isListed⟩
  simp only [List.mem_append, Directory.mem_names]
  tauto

theorem of_inFlightReason (notInFlight : inFlightReason files package now = none)
    (isMember : intentId ∈ outboxIds files) :
    (∀ verdict, verdictFor files package intentId = some verdict →
        verdict = .confirmedNotSubmitted) ∧
      (verdictFor files package intentId = none →
        ∀ state, entryState files package now intentId = some state → state = .rejected) := by
  rw [inFlightReason, Option.or_eq_none_iff, List.findSome?_eq_none_iff,
    List.findSome?_eq_none_iff] at notInFlight
  have verdictFree := notInFlight.1 intentId isMember
  have entryFree := notInFlight.2 intentId isMember
  constructor
  · intro verdict isVerdict
    rw [verdictBlocks, isVerdict] at verdictFree
    by_contra other
    simp only [if_neg other] at verdictFree
    cases verdictFree
  · intro noVerdict state isState
    rw [entryBlocks, noVerdict, isState] at entryFree
    by_contra other
    simp [other] at entryFree

variable {world : SupervisedWorld}

/-- **Where no intent is in flight, every order of the package is cleared.** -/
theorem cleared_of_notInFlight (kept : OutboxKept (outboxView world) now)
    (notInFlight : inFlightReason world.files package now = none) :
    ∀ submission ∈ world.submits, submission.permit.packageIntentSha256 = package →
      Cleared world.files.terminal world.files.reconciled submission.permit.intentId := by
  intro submission isMember same
  have isListed := kept.sentListed submission isMember
  have named := kept.named submission isMember
  rw [same] at named
  have present : submission.permit.intentId ∈ outboxIds world.files := by
    refine mem_outboxIds isListed ?_
    rcases kept.used isMember with claim | receipt
    · exact .inr (.inl claim)
    · exact .inr (.inr (.inl receipt))
  obtain ⟨verdictFree, entryFree⟩ := of_inFlightReason notInFlight present
  cases isRecord : world.files.reconciled.get submission.permit.intentId with
  | some record =>
    obtain ⟨receipt, isReceipt, samePackage⟩ := kept.verdicts _ record isRecord
    have isVerdict : verdictFor world.files package submission.permit.intentId =
        some record.verdict := by
      rcases named with ⟨found, isFound, names⟩ | ⟨noReceipt, -⟩
      · rw [isReceipt] at isFound
        cases isFound
        rw [verdictFor, isRecord]
        simp [samePackage, names]
      · rw [isReceipt] at noReceipt
        cases noReceipt
    exact .inr ⟨record, isRecord, verdictFree _ isVerdict⟩
  | none =>
    have noVerdict : verdictFor world.files package submission.permit.intentId = none := by
      rw [verdictFor, isRecord]
    rcases named with ⟨receipt, isReceipt, names⟩ | ⟨noReceipt, claim, isClaim, names⟩
    · refine .inl ⟨receipt, isReceipt, entryFree noVerdict _ ?_⟩
      have isReceipt' : world.files.terminal.get submission.permit.intentId = some receipt :=
        isReceipt
      rw [entryState, terminalState, isReceipt']
      simp [names]
    · have noReceipt' : world.files.terminal.get submission.permit.intentId = none := noReceipt
      have isClaim' : world.files.sending.get submission.permit.intentId = some claim := isClaim
      have isSending : entryState world.files package now submission.permit.intentId =
          some .sending := by
        rw [entryState, terminalState, sendingState, noReceipt', isClaim']
        simp [names]
      exact nomatch entryFree noVerdict _ isSending

/-- **Where no intent is in flight, every pending intent of the package is past its
deadline.** -/
theorem alone_of_notInFlight (kept : OutboxKept (outboxView world) now)
    (notInFlight : inFlightReason world.files package now = none) :
    ∀ other pending, world.files.pending.get other = some pending →
      pending.packageIntentSha256 = package → ¬ now < pending.sendDeadline := by
  intro other pending isPending names ahead
  obtain ⟨noClaim, noReceipt, noRecord, isListed⟩ := kept.fresh other pending isPending
  have noClaim' : world.files.sending.get other = none := noClaim
  have noReceipt' : world.files.terminal.get other = none := noReceipt
  have noRecord' : world.files.reconciled.get other = none := noRecord
  have present : other ∈ outboxIds world.files :=
    mem_outboxIds isListed (.inl (by rw [isPending]; rfl))
  obtain ⟨-, entryFree⟩ := of_inFlightReason notInFlight present
  have noVerdict : verdictFor world.files package other = none := by
    rw [verdictFor, noRecord']
  have isPendingState : entryState world.files package now other = some .pending := by
    have notReached : ¬ Reached now pending.sendDeadline := not_le.mpr ahead
    rw [entryState, terminalState, sendingState, pendingState, noClaim', noReceipt', isPending]
    simp [names, notReached]
  exact nomatch entryFree noVerdict _ isPendingState

end

/-! ## Recording and minting -/

/-- The state directory as the calls keep it. -/
def Kept (now : ℤ) (world : SupervisedWorld) : Prop :=
  OutboxKept (outboxView world) now

/-- **A recorded intent has its package to itself.** -/
theorem kept_recordIntent {intent : SupervisedIntent} (kept : Kept now world)
    (created : intent.createdAt = now) (isListed : listed intent.intentId) :
    Ends (recordIntent intent) world fates (Throughout (Kept now)) := by
  refine ends_look (ends_load kept ?_)
  cases isPending : world.files.pending.get intent.intentId with
  | some existing => exact ends_refuseIf (fun _ => kept) fun _ => kept
  | none =>
    refine ends_look (ends_refuse kept fun unused => ?_)
    refine ends_bind (ends_operate ?_ (fun _ => kept) fun _ => kept)
    intro _
    refine Ends.next (ends_refuse kept fun notInFlight => ?_)
    rw [created, Option.not_isSome_iff_eq_none] at notInFlight
    have unused' : world.files.sending.get intent.intentId = none ∧
        world.files.terminal.get intent.intentId = none ∧
        world.files.reconciled.get intent.intentId = none := by
      simpa [intentUsed, Bool.or_eq_false_iff, and_assoc] using unused
    have written := OutboxKept.recorded kept ⟨unused'.1, unused'.2.1, unused'.2.2, isListed⟩
      (cleared_of_notInFlight kept notInFlight) (alone_of_notInFlight kept notInFlight)
    exact ends_durably ⟨kept, kept⟩ ⟨written, written⟩ written

/-- The id of the permit is not that of a consumed permit of another intent. -/
def FreshPermitId (env : Environment) (request : PermitRequest) (files : SupervisedFiles) : Prop :=
  ∀ permit, files.permitConsumed.get
      (permitIdOf env request.intent.intentId (env.sha256 request.effectPayload)) = some permit →
    permit.intentId = request.intent.intentId

variable {request : PermitRequest}

theorem Kept.minted {permit : EffectPermit} {mandateId : String} {expiresAt : ℤ}
    (source : MintedFrom) (kept : Kept now world)
    (isFor : PermitFor env request now mandateId expiresAt permit)
    (unspent : FreshPermitId env request world.files)
    (unissued : permitForIntent world.files request.intent.intentId = false) :
    Kept now (minted permit source world) := by
  refine OutboxKept.issued kept ?_
  rw [Option.eq_none_iff_forall_ne_some]
  intro found isFound
  rw [isFor.permitId] at isFound
  exact (not_permitForIntent unissued).2 _ found isFound (unspent found isFound)

theorem kept_issueMandatePermit (kept : Kept now world)
    (unspent : FreshPermitId env request world.files) :
    Ends (issueMandatePermit env now request) world fates (Throughout (Kept now)) := by
  refine ends_bind_of_leaves (leaves_activeMandate _ _ _ _) (fun _ => kept) kept fun mandate => ?_
  refine ends_refuse kept fun _ => ?_
  refine ends_bind (ends_refuseIssued (fun _ => kept) kept fun unissued => Ends.next ?_)
  refine ends_checked kept fun expiresAt _ => ?_
  refine ends_checked kept fun permit isPermit => ?_
  have isFor := permitFor_of_permitOf isPermit
  rw [spendOrder]
  split
  case isFalse => exact ends_raise kept
  case isTrue spare =>
    refine ends_write kept kept ?_
    refine ends_bind (ends_observe (Ends.next ?_))
    have issued := Kept.minted
      (.grant world.grants
        { mandate with ordersUsed := mandate.ordersUsed + 1, used_le := spare })
      kept isFor unspent unissued
    exact ends_write kept issued (ends_pure issued)

theorem kept_issueEntryPermit (kept : Kept now world)
    (unspent : FreshPermitId env request world.files) :
    Ends (issueEntryPermit env now request) world fates (Throughout (Kept now)) := by
  refine ends_look (ends_refuse kept fun _ => ends_refuse kept fun _ => ends_load kept ?_)
  cases world.files.entryMandate.get request.intent.intentId with
  | none => exact ends_raise kept
  | some mandate =>
    iterate 4 refine ends_refuse kept fun _ => ?_
    refine ends_bind (ends_refuseIssued (fun _ => kept) kept fun unissued => Ends.next ?_)
    refine ends_checked kept fun expiresAt _ => ?_
    refine ends_checked kept fun permit isPermit => ?_
    have isFor := permitFor_of_permitOf isPermit
    refine ends_write kept kept ?_
    have issued := Kept.minted (.approval mandate) kept isFor unspent unissued
    exact ends_write kept issued (ends_pure issued)

/-- **A minted permit keeps the outbox.** -/
theorem kept_issuePermit (kept : Kept now world) (unspent : FreshPermitId env request world.files) :
    Ends (issuePermit env now request) world fates (Throughout (Kept now)) := by
  iterate 4 refine ends_refuse kept fun _ => ?_
  refine ends_look ?_
  split
  · exact kept_issueEntryPermit kept unspent
  · exact ends_refuse kept fun _ => kept_issueMandatePermit kept unspent

/-! ## Sending -/

def JournalGrown (world later : SupervisedWorld) : Prop :=
  ∃ journal, later = change (fun files => { files with journal }) world ∧
    ∀ name, (world.files.journal.get name).isSome → (journal.get name).isSome

theorem JournalGrown.refl (world : SupervisedWorld) : JournalGrown world world :=
  ⟨world.files.journal, rfl, fun _ => id⟩

theorem JournalGrown.trans {first second third : SupervisedWorld}
    (grown : JournalGrown first second) (grownMore : JournalGrown second third) :
    JournalGrown first third := by
  obtain ⟨journal, rfl, keeps⟩ := grown
  obtain ⟨journal', rfl, keeps'⟩ := grownMore
  exact ⟨journal', rfl, fun name isSome => keeps' name (keeps name isSome)⟩

theorem Kept.journalGrown {later : SupervisedWorld} (kept : Kept now world)
    (grown : JournalGrown world later) : Kept now later := by
  obtain ⟨journal, rfl, keeps⟩ := grown
  exact OutboxKept.journalGrown kept keeps

theorem ends_journalAppend (intentId : String) (number : ℕ) (record : StoredExecutionRecord) :
    Ends (journalAppend intentId number record) world fates
      (Safely (JournalGrown world) fun _ later =>
        JournalGrown world later ∧ (later.files.journal.get intentId).isSome) := by
  have grown : JournalGrown world (change (fun files =>
      { files with
        journal := files.journal.write intentId
          ((files.journal.get intentId).getD [] ++ [record]) }) world) :=
    ⟨_, rfl, fun name isSome => Directory.isSome_get_write isSome⟩
  refine ends_durably ⟨.refl world, .refl world⟩ ⟨grown, grown⟩ ⟨grown, ?_⟩
  rw [change_files]
  exact Option.isSome_of_eq_some
    (Directory.get_write_self world.files.journal intentId
      ((world.files.journal.get intentId).getD [] ++ [record]))

theorem ends_journalAll (intentId : String) (records : List ExecutionRecord) :
    ∀ (number : ℕ) (world : SupervisedWorld), Ends (journalAll intentId number records) world fates
      (Throughout (JournalGrown world)) := by
  induction records with
  | nil => exact fun _ world => ends_pure (.refl world)
  | cons record rest ih =>
    intro number world
    refine ends_bind_safely (ends_journalAppend intentId number (.execution record)) ?_
    rintro ⟨⟩ later ⟨grown, -⟩
    exact (ih (number + 1) later).weaken (fun _ => grown.trans) fun _ _ => grown.trans

section

variable {permit : EffectPermit} {intent : SupervisedIntent}

theorem ends_claimAndConsume (kept : Kept now world)
    (isPending : world.files.pending.get permit.intentId = some intent)
    (isPermit : world.files.permit.get permit.permitId = some permit)
    (package : intent.packageIntentSha256 = permit.packageIntentSha256)
    (ahead : now < intent.sendDeadline) :
    Ends (claimAndConsume now permit intent) world fates
      (Safely (Kept now) fun _ later => InTransit (outboxView later) now permit intent ∧
        (later.files.permitConsumed.get permit.permitId).isSome) := by
  have claimed := InTransit.ofPending kept isPending isPermit package ahead
  have marked := claimed.marked (some ⟨now, permit.permitId, permit.effectSha256⟩)
  have consumed := marked.consumed
  have dated := consumed.dated { permit with consumedAt := some now }
    (Directory.get_remove_self world.files.permit permit.permitId)
  refine ends_write kept claimed.kept ?_
  refine ends_write claimed.kept marked.kept ?_
  refine ends_write marked.kept consumed.kept ?_
  refine ends_durably ⟨consumed.kept, consumed.kept⟩ ⟨dated.kept, dated.kept⟩ ⟨dated, ?_⟩
  simp

/-- The claim of an order that may have been submitted, which has no receipt. -/
structure Outstanding (now : ℤ) (permit : EffectPermit) (world : SupervisedWorld) : Prop where
  kept : Kept now world
  claim : (world.files.sending.get permit.intentId).isSome
  noReceipt : world.files.terminal.get permit.intentId = none
  package : ∀ submission ∈ world.submits, submission.permit.intentId = permit.intentId →
    submission.permit.packageIntentSha256 = permit.packageIntentSha256

theorem Outstanding.journalGrown {later : SupervisedWorld} (outstanding : Outstanding now permit world)
    (grown : JournalGrown world later) : Outstanding now permit later := by
  have kept := outstanding.kept.journalGrown grown
  obtain ⟨journal, rfl, -⟩ := grown
  exact { outstanding with kept }

variable {broker : Broker} {checked : SupervisedFiles}

theorem ends_submit (transit : InTransit (outboxView world) now permit intent)
    (journaled : (world.files.journal.get permit.intentId).isSome)
    (spent : (world.files.permitConsumed.get permit.permitId).isSome) :
    Ends (submit now permit intent checked broker) world fates
      (Safely (Kept now) fun _ => Outstanding now permit) := by
  have asked : Outstanding now permit (submitted now permit intent checked world) := by
    refine ⟨transit.asked rfl rfl rfl journaled spent, ?_, transit.noReceipt, ?_⟩
    · obtain ⟨mark, isClaim⟩ := transit.claim
      exact Option.isSome_of_eq_some isClaim
    · intro submission isMember same
      rcases List.mem_append.mp isMember with old | new
      · exact absurd same (transit.unsent submission old)
      · rw [List.mem_singleton.mp new]
  refine ends_attempt (ends_bind (ends_contact ?_ ?_ ?_))
  · exact Ends.next (ends_pure asked)
  · exact asked
  · exact transit.kept

theorem kept_conclude {receipt : SendReceipt} (outstanding : Outstanding now permit world)
    (sameIntent : receipt.intentId = permit.intentId)
    (names : receipt.packageIntentSha256 = some permit.packageIntentSha256) :
    Ends (conclude receipt) world fates (Throughout (Kept now)) := by
  have kept := outstanding.kept
  have concluded := OutboxKept.concluded receipt kept outstanding.claim
    outstanding.noReceipt fun submission isMember same => by
      rw [names, outstanding.package submission isMember same]
  have unlinked := concluded.unlinked permit.intentId
    (Option.isSome_of_eq_some (Directory.get_write_self _ _ _))
  rw [conclude, sameIntent]
  refine ends_write kept concluded ?_
  exact ends_write concluded unlinked (ends_pure unlinked)

/-- **What is sent keeps the outbox.** -/
theorem kept_transmit (kept : Kept now world)
    (isPending : world.files.pending.get permit.intentId = some intent)
    (isPermit : world.files.permit.get permit.permitId = some permit)
    (package : intent.packageIntentSha256 = permit.packageIntentSha256)
    (ahead : now < intent.sendDeadline) :
    Ends (transmit env now permit intent checked broker) world fates (Throughout (Kept now)) := by
  refine ends_bind_safely (ends_claimAndConsume kept isPending isPermit package ahead) ?_
  rintro ⟨⟩ claimed ⟨transit, spent⟩
  have keptClaimed : Kept now claimed := transit.kept
  refine ends_bind_safely ((ends_journalAppend permit.intentId 0 _).weaken
    (fun _ => keptClaimed.journalGrown) fun _ _ => id) ?_
  rintro ⟨⟩ begun ⟨grownFirst, -⟩
  refine ends_bind_safely ((ends_journalAppend permit.intentId 1 _).weaken
    (fun _ grown => keptClaimed.journalGrown (grownFirst.trans grown)) fun _ _ => id) ?_
  rintro ⟨⟩ journaled ⟨grownSecond, isJournal⟩
  obtain ⟨journal, rfl, keeps⟩ := grownFirst.trans grownSecond
  have transit := transit.journalGrown keeps
  refine ends_checked transit.kept fun base _ => ?_
  refine ends_bind_safely (ends_submit transit isJournal spent) ?_
  intro outcome asked outstanding
  refine ends_bind_safely ((ends_journalAll permit.intentId _ 2 asked).weaken
    (fun _ grown => (outstanding.journalGrown grown).kept) fun _ _ => id) ?_
  intro _ answered grown
  exact kept_conclude (outstanding.journalGrown grown) rfl rfl

theorem leaves_authorize {View : Type} {view : SupervisedWorld → View} (permit : EffectPermit) :
    Leaves view (authorize now permit) := by
  refine leaves_bind (leaves_entryMandateForPermit permit) fun perTrade => ?_
  cases perTrade with
  | some mandate => exact leaves_pure _
  | none => exact leaves_bind (leaves_activeMandate _ _ _ _) fun _ => leaves_pure _

theorem kept_sendIntent {environment : String} (kept : Kept now world)
    (isPermit : world.files.permit.get permit.permitId = some permit) :
    Ends (sendIntent env now permit environment world.files broker
      (world.files.pending.get permit.intentId)) world fates (Throughout (Kept now)) := by
  cases isPending : world.files.pending.get permit.intentId with
  | none => exact ends_raise kept
  | some intent =>
    refine ends_refuse kept fun package => ?_
    refine ends_refuse kept fun ahead => ?_
    refine ends_refuse kept fun _ => ?_
    refine ends_bind_unchanged ?_ kept fun _ => ?_
    · rw [preflight]
      split
      · exact leaves_operate fun _ => rfl
      · exact leaves_pure _
    · exact kept_transmit kept isPending isPermit (not_not.mp package) (not_le.mp ahead)

/-- **A send keeps the outbox.** -/
theorem kept_send {permitId : String} {effectPayload : List UInt8} (kept : Kept now world) :
    Ends (send env now permitId effectPayload broker) world fates (Throughout (Kept now)) := by
  refine ends_look (ends_load kept ?_)
  cases isPermit : world.files.permit.get permitId with
  | none =>
    change Ends (if _ then _ else _) world fates _
    split
    · exact ends_raise kept
    · exact ends_raise kept
  | some permit =>
    obtain rfl : permit.permitId = permitId := OutboxKept.permitIds kept permitId permit isPermit
    refine ends_refuse kept fun _ => ?_
    refine ends_refuse kept fun _ => ?_
    refine ends_bind_unchanged (leaves_authorize permit) kept fun environment => ?_
    refine ends_refuse kept fun _ => ?_
    exact ends_bind (ends_readFile ⟨kept, kept⟩ (Ends.next (kept_sendIntent kept isPermit)))

end

/-! ## Recovery and reconciliation -/

section

variable {intentId : String}

theorem ends_recoverJournal (claim : SendingClaim) :
    Ends (recoverJournal now intentId claim) world fates fun ending later =>
      JournalGrown world later ∧
        ((world.files.journal.get intentId).isSome → ending = .returned ⟨⟩) := by
  refine ends_look ?_
  cases isJournal : world.files.journal.get intentId with
  | some records => exact ends_pure ⟨.refl world, fun _ => rfl⟩
  | none =>
    cases claim.mark with
    | none => exact ends_pure ⟨.refl world, fun isSome => nomatch isSome⟩
    | some mark =>
      have ended : Ends (do
          journalAppend intentId 0 (.orderIntent claim.intent.intent)
          journalAll intentId 1 (recoveredRecords now intentId mark)) world fates
          (Throughout (JournalGrown world)) := by
        refine ends_bind_safely (ends_journalAppend intentId 0 _) ?_
        rintro ⟨⟩ begun ⟨grown, -⟩
        exact (ends_journalAll intentId _ 1 begun).weaken (fun _ => grown.trans)
          fun _ _ => grown.trans
      refine ended.mono ?_
      intro ending later after
      refine ⟨?_, fun isSome => nomatch isSome⟩
      cases ending with
      | returned value => exact after
      | raised error => exact after
      | died => exact after

theorem ends_packageOf (claim : SendingClaim) :
    Ends (attempt (recoverClaim now intentId claim) fun _ => pure none) world fates
      (Safely (JournalGrown world) fun package later => JournalGrown world later ∧
        (fates (.read (.sending intentId)) ≠ .fails →
          (world.files.journal.get intentId).isSome →
          package = some claim.intent.packageIntentSha256)) := by
  refine ends_attempt (ends_bind (ends_operate ?_ ?_ ?_))
  · intro _
    refine Ends.next (ends_bind ((ends_recoverJournal claim).mono ?_))
    rintro ending later ⟨grown, returns⟩
    cases ending with
    | returned value => exact ⟨grown, fun _ _ => rfl⟩
    | raised error => exact ⟨grown, fun _ isSome => nomatch returns isSome⟩
    | died => exact grown
  · intro fate
    exact ⟨.refl world, fun reads => absurd fate reads⟩
  · intro _
    exact JournalGrown.refl world

/-- The claim of every submitted order without a receipt can be read. -/
def ReadsClaims (fates : SupervisedOp → Fate) (world : SupervisedWorld) : Prop :=
  ∀ submission ∈ world.submits, world.files.terminal.get submission.permit.intentId = none →
    fates (.read (.sending submission.permit.intentId)) ≠ .fails

/-- What a recovery keeps. -/
def Recovering (now : ℤ) (fates : SupervisedOp → Fate) (world : SupervisedWorld) : Prop :=
  Kept now world ∧ ReadsClaims fates world

theorem recovering_unlinkSending {Value : Type} {value : Value}
    (recovering : Recovering now fates world)
    (hasReceipt : (world.files.terminal.get intentId).isSome) :
    Ends (do unlinkSending intentId; pure value) world fates
      (Throughout (Recovering now fates)) := by
  have unlinked := OutboxKept.unlinked intentId recovering.1 hasReceipt
  refine ends_bind (ends_operate ?_ (fun _ => recovering) fun _ => recovering)
  intro _
  exact Ends.next (ends_pure ⟨unlinked, recovering.2⟩)

theorem recovering_orphan {claim : SendingClaim} (recovering : Recovering now fates world)
    (isClaim : world.files.sending.get intentId = some claim)
    (noReceipt : world.files.terminal.get intentId = none) :
    Ends (recoverOrphan now intentId claim) world fates (Throughout (Recovering now fates)) := by
  obtain ⟨kept, reads⟩ := recovering
  refine ends_bind_safely ((ends_packageOf claim).weaken ?_ fun _ _ => id) ?_
  · rintro later grown
    refine ⟨kept.journalGrown grown, ?_⟩
    obtain ⟨journal, rfl, -⟩ := grown
    exact reads
  · rintro package later ⟨grown, names⟩
    have keptLater := kept.journalGrown grown
    obtain ⟨journal, rfl, -⟩ := grown
    have concluded := OutboxKept.concluded (orphanReceipt now intentId package) keptLater
      (Option.isSome_of_eq_some isClaim) noReceipt fun submission isMember same => by
        rcases kept.named submission isMember with ⟨receipt, isReceipt, -⟩ | ⟨-, found, isFound, named⟩
        · rw [same] at isReceipt
          exact absurd (noReceipt.symm.trans isReceipt) (Option.some_ne_none receipt).symm
        · rw [same] at isFound
          cases isFound.symm.trans isClaim
          rw [← named]
          have isSome := kept.journaled submission isMember
          have readable := reads submission isMember
          rw [same] at isSome readable
          exact names (readable noReceipt) isSome
    have written : ReadsClaims fates (change (fun files =>
        { files with
          terminal := files.terminal.write intentId (orphanReceipt now intentId package) })
        (change (fun files => { files with journal }) world)) := by
      intro submission isMember noneLater
      rw [change_files, Directory.get_write] at noneLater
      split at noneLater
      case isTrue => cases noneLater
      case isFalse => exact reads submission isMember noneLater
    refine ends_bind (ends_durably ⟨⟨keptLater, reads⟩, ⟨keptLater, reads⟩⟩
      ⟨⟨concluded, written⟩, ⟨concluded, written⟩⟩ (Ends.next ?_))
    exact recovering_unlinkSending ⟨concluded, written⟩
      (Option.isSome_of_eq_some (Directory.get_write_self _ _ _))

theorem recovering_recoverOne (recovering : Recovering now fates world) :
    Ends (recoverOne now intentId) world fates (Throughout (Recovering now fates)) := by
  refine ends_look ?_
  cases isClaim : world.files.sending.get intentId with
  | none => exact ends_pure recovering
  | some claim =>
    cases isReceipt : world.files.terminal.get intentId with
    | some receipt =>
      exact recovering_unlinkSending recovering (Option.isSome_of_eq_some isReceipt)
    | none => exact recovering_orphan recovering isClaim isReceipt

/-- **A recovery keeps the outbox, if it can read the claims of submitted orders.** -/
theorem recovering_recover (recovering : Recovering now fates world) :
    Ends (recover now) world fates (Throughout (Recovering now fates)) := by
  have ended : ∀ (ids : List String) (world : SupervisedWorld), Recovering now fates world →
      Ends (recoverFrom now ids) world fates (Throughout (Recovering now fates)) := by
    intro ids
    induction ids with
    | nil => exact fun _ recovering => ends_pure recovering
    | cons first rest ih =>
      intro world recovering
      refine ends_bind_safely (recovering_recoverOne recovering) ?_
      intro _ later recoveringLater
      refine ends_bind_safely (ih later recoveringLater) ?_
      intro _ last recoveringLast
      exact ends_pure recoveringLast
  exact ends_look (ended _ world recovering)

theorem kept_keepVerdict {record : Reconciliation} {facts : List ExecutionRecord}
    {receipt : SendReceipt} (kept : Kept now world)
    (isReceipt : world.files.terminal.get record.intentId = some receipt)
    (same : record.packageIntentSha256 = receipt.packageIntentSha256) :
    Ends (keepVerdict record facts (world.files.reconciled.get record.intentId)) world fates
      (Throughout (Kept now)) := by
  unfold keepVerdict
  split
  · exact ends_write kept kept (ends_pure kept)
  · cases isPrior : world.files.reconciled.get record.intentId with
    | some prior =>
      exact ends_refuse kept fun _ => ends_pure kept
    | none =>
      refine ends_bind_safely ((ends_journalAll record.intentId facts 3 world).weaken
        (fun _ => kept.journalGrown) fun _ _ => id) ?_
      rintro ⟨⟩ later grown
      have keptLater := kept.journalGrown grown
      obtain ⟨journal, rfl, -⟩ := grown
      refine ends_write keptLater keptLater ?_
      have judged := OutboxKept.judged keptLater isReceipt isPrior same
      exact ends_write keptLater judged (ends_pure judged)

/-- **A reconciliation keeps the outbox, if it can read the claims of submitted orders.** -/
theorem kept_reconcileIntent {broker : Broker} (recovering : Recovering now fates world) :
    Ends (reconcileIntent env now intentId broker) world fates (Throughout (Kept now)) := by
  refine ends_bind_safely ((recovering_recover recovering).weaken (fun _ => And.left)
    fun _ _ => And.left) ?_
  intro _ later kept
  refine ends_look (ends_load kept ?_)
  cases isReceipt : later.files.terminal.get intentId with
  | none => exact ends_raise kept
  | some receipt =>
    refine ends_refuse kept fun _ => ?_
    refine ends_checked kept fun settleAt _ => ?_
    refine ends_refuse kept fun _ => ?_
    refine ends_look ?_
    refine ends_load kept ?_
    refine ends_bind (ends_operate ?_ (fun _ => kept) fun _ => kept)
    intro _
    exact Ends.next (kept_keepVerdict kept isReceipt rfl)

end

/-! ## Authority -/

section

variable {View : Type} {view : SupervisedWorld → View}

theorem leaves_discard {Value : Type} {program : SupervisedProgram Value}
    (leaves : Leaves view program) : Leaves view (discard program) :=
  leaves_bind leaves fun _ => leaves_pure _

/-- An operation on the files that the outbox is not about. -/
theorem leaves_retireExpired (existing : Option SupervisedMandate) :
    Leaves outboxView (retireExpired now existing) := by
  cases existing with
  | none => exact leaves_pure _
  | some existing => exact leaves_bind (leaves_refuseIf _ _) fun _ => leaves_durably fun _ => rfl

theorem leaves_grantMandate (request : GrantRequest) :
    Leaves outboxView (grantMandate now request) := by
  refine leaves_bind (leaves_refuseIf _ _) fun _ => ?_
  refine leaves_bind leaves_files fun before => ?_
  refine leaves_bind (leaves_refuseIf _ _) fun _ => ?_
  refine leaves_bind (leaves_refuseIf _ _) fun _ => ?_
  refine leaves_bind (leaves_readFile _ _) fun existing => ?_
  refine leaves_bind (leaves_retireExpired existing) fun _ => ?_
  refine leaves_bind (leaves_check _) fun mandate => ?_
  exact leaves_bind (leaves_durably fun _ => rfl) fun _ => leaves_pure _

theorem leaves_revokeMandate : Leaves outboxView revokeMandate := by
  refine leaves_bind leaves_files fun before => leaves_bind (leaves_readFile _ _) fun existing => ?_
  cases existing with
  | none => exact leaves_raise _
  | some mandate =>
    exact leaves_bind (leaves_durably fun _ => rfl) fun _ => leaves_durably fun _ => rfl

theorem leaves_haltEffects : Leaves outboxView haltEffects :=
  leaves_durably fun _ => rfl

theorem leaves_retire (mandate : SupervisedMandateV2) : Leaves outboxView (retire mandate) :=
  leaves_bind (leaves_durably fun _ => rfl) fun _ => leaves_durably fun _ => rfl

theorem leaves_storeEntryMandate (proposal : Desk.EntryProposal)
    (command : Desk.ApproveEntryCommand) :
    Leaves outboxView (storeEntryMandate proposal command now) := by
  rw [storeEntryMandate]
  split
  · exact leaves_raise _
  · exact leaves_bind (leaves_durably fun _ => rfl) fun _ => leaves_pure _

theorem leaves_grantEntryMandate (proposal : Desk.EntryProposal)
    (command : Desk.ApproveEntryCommand) (ownerEpoch profileDigest : String) :
    Leaves outboxView
      (grantEntryMandate env.sha256 now proposal command ownerEpoch profileDigest) := by
  refine leaves_bind (leaves_refuseIf _ _) fun _ => ?_
  refine leaves_bind (leaves_refuseIf _ _) fun _ => ?_
  refine leaves_bind leaves_files fun before => ?_
  refine leaves_bind (leaves_refuseIf _ _) fun _ => ?_
  refine leaves_bind (leaves_refuseIf _ _) fun _ => ?_
  refine leaves_bind (leaves_refuseIssued _) fun _ => ?_
  refine leaves_bind (leaves_readFile _ _) fun current => ?_
  cases current with
  | none => exact leaves_storeEntryMandate proposal command
  | some existing =>
    rw [replaceEntryMandate]
    split
    · exact leaves_bind (leaves_refuseIf _ _) fun _ => leaves_pure _
    · refine leaves_bind (leaves_refuseIf _ _) fun _ => ?_
      exact leaves_bind (leaves_retire existing) fun _ =>
        leaves_storeEntryMandate proposal command

theorem leaves_invalidateEntryMandates (ownerEpoch : String) :
    Leaves outboxView (invalidateEntryMandates ownerEpoch) := by
  refine leaves_bind leaves_files fun before => ?_
  generalize sortedBy String.toList before.entryMandate.names = intentIds
  induction intentIds with
  | nil => exact leaves_pure _
  | cons intentId rest ih =>
    refine leaves_bind leaves_files fun before => ?_
    refine leaves_bind (leaves_attempt (leaves_readFile _ _) fun _ => leaves_pure _) fun found => ?_
    refine leaves_bind ?_ fun _ => leaves_bind ih fun _ => leaves_pure _
    cases found with
    | none => exact leaves_pure _
    | some mandate =>
      rw [invalidateOne]
      split
      · exact leaves_bind (leaves_retire mandate) fun _ => leaves_pure _
      · exact leaves_pure _

theorem leaves_retireEntryMandate (intentId : String) (proposalId : Option String) :
    Leaves outboxView (retireEntryMandate intentId proposalId) := by
  refine leaves_bind (leaves_refuseIf _ _) fun _ => leaves_bind leaves_files fun before => ?_
  refine leaves_bind (leaves_attempt (leaves_readFile _ _) fun _ => leaves_pure _) fun found => ?_
  cases found with
  | none => exact leaves_pure _
  | some mandate =>
    rw [retireFound]
    split
    · exact leaves_pure _
    · exact leaves_bind (leaves_retire mandate) fun _ => leaves_pure _

end

/-! ## Runs -/

/-- A call that the outbox relies on: the intent has a listed id, the id of the permit is
not one of another intent, and a recovery can read the claims of submitted orders. -/
def Guarded (env : Environment) (state : SupervisedState) (step : SupervisedStep) : Prop :=
  match step.call with
  | .recordIntent intent => listed intent.intentId
  | .issuePermit request => FreshPermitId env request state.world.files
  | .recover => ReadsClaims step.fates state.world
  | .reconcileIntent _ _ => ReadsClaims step.fates state.world
  | _ => True

variable {program : SupervisedProgram Unit}

theorem kept_of_leaves (leaves : Leaves outboxView program) (kept : Kept now world) :
    Kept now (program world fates).2 := by
  rw [Kept, leaves world fates]
  exact kept

theorem kept_of_safely (ended : Ends program world fates (Throughout (Kept now))) :
    Kept now (program world fates).2 :=
  ended.always

theorem ends_discard {Value : Type} {program : SupervisedProgram Value}
    {holds : SupervisedWorld → Prop}
    (ended : Ends program world fates (Safely holds fun _ => holds)) :
    Ends (discard program) world fates (Safely holds fun _ => holds) :=
  ends_bind_safely ended fun _ _ held => ends_pure held

variable {state : SupervisedState}

/-- **Every guarded call keeps the outbox.** -/
theorem kept_perform {step : SupervisedStep} (kept : Kept step.now state.world)
    (guarded : Guarded env state step) (isTimely : timely state.clock step) :
    Kept step.now (perform env step.now step.call state.world step.fates).2 := by
  rcases step with ⟨now, call, fates⟩
  cases call with
  | recordIntent intent =>
    have created : intent.createdAt = now := of_decide_eq_true (Bool.and_eq_true_iff.mp isTimely).2
    exact kept_of_safely (kept_recordIntent kept created guarded)
  | issuePermit request => exact kept_of_safely (ends_discard (kept_issuePermit kept guarded))
  | send permitId effectPayload broker => exact kept_of_safely (ends_discard (kept_send kept))
  | recover =>
    exact kept_of_safely ((ends_discard (recovering_recover ⟨kept, guarded⟩)).weaken
      (fun _ => And.left) fun _ _ => And.left)
  | reconcileIntent intentId broker =>
    exact kept_of_safely (ends_discard (kept_reconcileIntent ⟨kept, guarded⟩))
  | grantMandate request => exact kept_of_leaves (leaves_discard (leaves_grantMandate request)) kept
  | revokeMandate => exact kept_of_leaves leaves_revokeMandate kept
  | haltEffects => exact kept_of_leaves leaves_haltEffects kept
  | grantEntryMandate proposal command ownerEpoch profileDigest =>
    exact kept_of_leaves (leaves_discard (leaves_grantEntryMandate _ _ _ _)) kept
  | invalidateEntryMandates ownerEpoch =>
    exact kept_of_leaves (leaves_discard (leaves_invalidateEntryMandates ownerEpoch)) kept
  | retireEntryMandate intentId proposalId =>
    exact kept_of_leaves (leaves_discard (leaves_retireEntryMandate intentId proposalId)) kept

/-- **In every run of guarded calls, the broker is asked once for an intent and once by a
permit, and only for a package whose earlier orders are cleared.** -/
theorem outbox_stays_safe (env : Environment) {state : SupervisedState}
    (reached : (supervisedSystem env).ReachableUnder (Guarded env) state) :
    OutboxSafe state.world.submits := by
  have kept : Kept state.clock state.world := by
    induction reached with
    | initial starts =>
      rw [starts]
      exact outboxKept_empty _
    | @step state next step _ guarded taken kept =>
      obtain ⟨isTimely, isNext⟩ := Option.ite_none_right_eq_some.mp taken
      obtain rfl := Option.some.inj isNext
      have passes : state.clock ≤ step.now :=
        of_decide_eq_true (Bool.and_eq_true_iff.mp isTimely).1
      exact kept_perform (OutboxKept.later kept passes) guarded isTimely
  exact kept.safe

/-! ## Sample runs -/

/-- The bytes of an effect that is no equity. -/
def sampleEffect : List UInt8 :=
  Text.encode ['{', '}']

/-- What the id of a permit is taken from. -/
def sampleBinding (intentId : String) : List UInt8 :=
  Text.encode (Json.dumpsWith Json.escapeControl
    (.obj [("effect_sha256",
        .str "44136fa355b3678a1146ad16f7e8649e94fb4fc21fe77e8310c060f61caaff8a"),
      ("intent_id", .str intentId)]))

/-- The digests of the sample inputs. -/
def sampleSha256 (bytes : List UInt8) : String :=
  if bytes = sampleEffect then "44136fa355b3678a1146ad16f7e8649e94fb4fc21fe77e8310c060f61caaff8a"
  else if bytes = sampleBinding "a" then
    "1308a4fab339668553dbead0f6e777c94304e61bd7c0fc86a27df89b43bb9b40"
  else if bytes = sampleBinding "b" then
    "9cec52d8150410a9cc83b4f61d0e80bf28978d24c06355c5476f49dfd0e50311"
  else ""

def sampleEnvironment : Environment where
  sha256 := sampleSha256
  effectKind _ := .otherBytes
  json := sampleSerialization
  errorText _ := ""

theorem sampleQuantity_pos : 1 ≤ 1 :=
  le_refl 1

theorem sampleDeadline_ahead : (0 : ℤ) < 600000000 := by
  norm_num

/-- An intent of one package that is recorded at the epoch and can be sent for ten minutes. -/
def sampleSupervised (intentId : String) : SupervisedIntent where
  intent := { sampleIntent 1 sampleQuantity_pos with intentId := intentId }
  packageIntentSha256 := "p"
  createdAt := 0
  sendDeadline := 600000000
  created_lt := sampleDeadline_ahead

def sampleGrantRequest : GrantRequest where
  accountId := "DU1"
  ownerEpoch := "epoch-1"
  strategyVersion := "desk"
  profileDigest := "profile"
  maxOrders := 2
  ttlSeconds := 3600
  grantedBy := "owner"
  mandateId := none
  environment := "ibkr-paper"
  maxGrossNotionalUsd := none

def samplePermitRequest (intentId : String) : PermitRequest where
  accountId := "DU1"
  ownerEpoch := "epoch-1"
  intent := sampleSupervised intentId
  canaryBlockers := []
  effectPayload := sampleEffect
  screeningSha256 := "screening"
  ttlSeconds := 900
  profileDigest := none

/-- A broker that does not answer. -/
def sampleBroker : Broker where
  executionEnvironment := "ibkr-paper"
  validatesEffects := false
  outcome := .uncertain "timeout" "" .timeout
  transportError := ""
  verdict := .unknown ""

/-- A call at the epoch. -/
def sampleCall (call : SupervisedCall) (fates : SupervisedOp → Fate) : SupervisedStep :=
  ⟨0, call, fates⟩

def allDone : SupervisedOp → Fate :=
  fun _ => .done

def SupervisedState.next (env : Environment) (state : SupervisedState) (step : SupervisedStep) :
    SupervisedState :=
  ⟨(perform env step.now step.call state.world step.fates).2, step.now⟩

/-- Record an intent, mint its permit and send it. -/
def sampleSend (intentId : String) (fates : SupervisedOp → Fate) : List SupervisedStep :=
  [sampleCall (.recordIntent (sampleSupervised intentId)) allDone,
    sampleCall (.issuePermit (samplePermitRequest intentId)) allDone,
    sampleCall (.send (permitIdOf sampleEnvironment intentId (sampleSha256 sampleEffect))
      sampleEffect sampleBroker) fates]

/-- The process dies before the receipt of the first order is written, the recovery cannot
read its claim, and a second intent of the package is recorded and sent. -/
def lostPackage : List SupervisedStep :=
  sampleCall (.grantMandate sampleGrantRequest) allDone ::
    (sampleSend "a" (fun
        | .replace (.terminal _) => .dies
        | _ => .done) ++
      sampleCall .recover (fun
        | .read (.sending _) => .fails
        | _ => .done) :: sampleSend "b" allDone)

def sampleState : SupervisedState :=
  ⟨emptyWorld, 0⟩

/-- Calls at the epoch come one after another. -/
theorem run_atEpoch {steps : List SupervisedStep} (starts : state.clock = 0)
    (atEpoch : steps.all fun step => step.now = 0 && timely 0 step) :
    (supervisedSystem env).run state steps = some (steps.foldl (SupervisedState.next env) state) := by
  induction steps generalizing state with
  | nil => rfl
  | cons step rest ih =>
    obtain ⟨here, others⟩ := Bool.and_eq_true_iff.mp atEpoch
    obtain ⟨now, isTimely⟩ := Bool.and_eq_true_iff.mp here
    have taken : (supervisedSystem env).step state step = some (state.next env step) :=
      if_pos (by rw [starts, isTimely])
    rw [System.run, taken]
    exact ih (of_decide_eq_true now) others

theorem reached_next (step : SupervisedStep)
    (reached : (supervisedSystem env).ReachableUnder (Guarded env) state)
    (guarded : Guarded env state step) (isTimely : timely state.clock step) :
    (supervisedSystem env).ReachableUnder (Guarded env) (state.next env step) :=
  .step reached guarded (if_pos isTimely)

/-- A mandate is granted and an intent is recorded. -/
def sampleRecorded : SupervisedState :=
  (sampleState.next sampleEnvironment
    (sampleCall (.grantMandate sampleGrantRequest) allDone)).next sampleEnvironment
    (sampleCall (.recordIntent (sampleSupervised "a")) allDone)

theorem sent_order_stays_safe : ∃ state,
    (supervisedSystem sampleEnvironment).ReachableUnder (Guarded sampleEnvironment) state ∧
      state.world.submits.length = 1 ∧ OutboxSafe state.world.submits := by
  have started : (supervisedSystem sampleEnvironment).ReachableUnder (Guarded sampleEnvironment)
      sampleState := .initial (rfl : sampleState.world = emptyWorld)
  have granted := reached_next (sampleCall (.grantMandate sampleGrantRequest) allDone) started
    trivial (by decide)
  have recorded : (supervisedSystem sampleEnvironment).ReachableUnder (Guarded sampleEnvironment)
      sampleRecorded :=
    reached_next (sampleCall (.recordIntent (sampleSupervised "a")) allDone) granted
      (by decide : listed "a" = true) (by decide)
  have unspent : FreshPermitId sampleEnvironment (samplePermitRequest "a")
      sampleRecorded.world.files := by
    intro permit isPermit
    have absent : (sampleRecorded.world.files.permitConsumed.get
        (permitIdOf sampleEnvironment "a" (sampleSha256 sampleEffect))).isNone := by decide +kernel
    have none := isPermit.symm.trans (Option.isNone_iff_eq_none.mp absent)
    cases none
  have issued := reached_next (sampleCall (.issuePermit (samplePermitRequest "a")) allDone)
    recorded unspent (by decide)
  have sent := reached_next (sampleCall (.send (permitIdOf sampleEnvironment "a"
    (sampleSha256 sampleEffect)) sampleEffect sampleBroker) allDone) issued trivial (by decide)
  exact ⟨_, sent, by decide +kernel, outbox_stays_safe sampleEnvironment sent⟩

/-- What is asked for, and what the outbox says of the first order then. -/
def Submission.summary (submission : Submission) :
    String × String × Option OutboxState × Bool :=
  (submission.permit.intentId, submission.permit.packageIntentSha256,
    (submission.called.terminal.get "a").map fun receipt => receipt.outcome.state,
    (submission.called.reconciled.get "a").isSome)

/-- An order whose claim did not read is asked for again. -/
theorem lost_claim_reopens_package :
    ¬ ∀ (env : Environment) (state : SupervisedState), (supervisedSystem env).Reachable state →
      OutboxSafe state.world.submits := by
  intro safe
  have reached : (supervisedSystem sampleEnvironment).Reachable
      (lostPackage.foldl (SupervisedState.next sampleEnvironment) sampleState) :=
    System.ReachableUnder.run (.initial (rfl : sampleState.world = emptyWorld))
      (fun _ _ _ => trivial)
      (run_atEpoch rfl (by decide +kernel))
  have cleared := (safe _ _ reached).cleared
  have asked : (lostPackage.foldl (SupervisedState.next sampleEnvironment)
      sampleState).world.submits.map Submission.summary =
        [("a", "p", none, false), ("b", "p", some .uncertain, false)] := by decide +kernel
  generalize (lostPackage.foldl (SupervisedState.next sampleEnvironment)
    sampleState).world.submits = submits at cleared asked
  obtain ⟨first, rest, rfl, isFirst, restAsked⟩ := List.map_eq_cons_iff.mp asked
  obtain ⟨second, rest, rfl, isSecond, -⟩ := List.map_eq_cons_iff.mp restAsked
  simp only [Submission.summary, Prod.mk.injEq] at isFirst isSecond
  obtain ⟨firstIntent, firstPackage, -, -⟩ := isFirst
  obtain ⟨-, secondPackage, uncertain, unjudged⟩ := isSecond
  have samePackage := firstPackage.trans secondPackage.symm
  have isCleared := cleared [first] second rest rfl first List.mem_cons_self samePackage
  rw [firstIntent] at isCleared
  rcases isCleared with ⟨receipt, isReceipt, rejected⟩ | ⟨record, isRecord, -⟩
  · rw [isReceipt, Option.map_some, rejected] at uncertain
    cases uncertain
  · rw [isRecord] at unjudged
    cases unjudged

/-! ## Journals -/

open Execution (ExecutionLifecycle sampleAttempt)

end TreeOptions.Supervised
