import TreeOptions.Supervised.AuthorityKept

/-!
# Every submit has its own authority

A run makes any calls in any order, and any operation of a call may fail or be where the
process dies. A permit of `mandate.json` outlives the file it was minted from, and `send`
looks for a mandate of the same account, owner and strategy, whichever that is. While no
later grant stands when such a permit is sent, and the key of an approval is not used for two
intents, each submit is allowed by the mandate its permit names (`submits_stay_authorized`).
A permit sent after a renewal is not (`renewed_mandate_sends_old_permit`).
-/

set_option autoImplicit false

namespace TreeOptions.Supervised

open Desk (SupervisedMandateV2 Reached)
open Durable
open Execution (ExecutionRecord StoredExecutionRecord)

variable {env : Environment} {world : SupervisedWorld} {fates : SupervisedOp → Fate} {now : ℤ}

/-- The state directory as the calls keep it. -/
structure Authoritative (now : ℤ) (world : SupervisedWorld) : Prop where
  kept : AuthorityKept (authorityView world) now
  backed : Backed (authorityView world) []

theorem Authoritative.of_view {later : SupervisedWorld} (held : Authoritative now world)
    (same : authorityView later = authorityView world) : Authoritative now later := by
  refine ⟨?_, ?_⟩
  · rw [same]
    exact held.kept
  · rw [same]
    exact held.backed

theorem authoritative_of_leaves {Value : Type} {program : SupervisedProgram Value}
    (leaves : Leaves authorityView program) (held : Authoritative now world) :
    Ends program world fates (Throughout (Authoritative now)) := by
  refine (leaves.ends world fates).mono ?_
  intro ending later same
  cases ending with
  | returned value => exact held.of_view same
  | raised error => exact held.of_view same
  | died => exact held.of_view same

/-! ## The outbox leaves authority as it was -/

theorem leaves_journalAppend (intentId : String) (number : ℕ) (record : StoredExecutionRecord) :
    Leaves authorityView (journalAppend intentId number record) :=
  leaves_durably fun _ => rfl

theorem leaves_journalAll (intentId : String) (records : List ExecutionRecord) :
    ∀ number, Leaves authorityView (journalAll intentId number records) := by
  induction records with
  | nil => exact fun _ => leaves_pure _
  | cons record rest ih =>
    intro number
    exact leaves_bind (leaves_journalAppend intentId number (.execution record)) fun _ =>
      ih (number + 1)

theorem leaves_recordIntent (intent : SupervisedIntent) :
    Leaves authorityView (recordIntent intent) := by
  refine leaves_bind leaves_files fun before => leaves_bind (leaves_readFile _ _) fun existing => ?_
  cases existing with
  | some existing => exact leaves_refuseIf _ _
  | none =>
    refine leaves_bind leaves_files fun before => leaves_bind (leaves_refuseIf _ _) fun _ => ?_
    refine leaves_bind (leaves_operate fun _ => rfl) fun _ => ?_
    exact leaves_bind (leaves_refuseIf _ _) fun _ => leaves_durably fun _ => rfl

theorem leaves_conclude (receipt : SendReceipt) : Leaves authorityView (conclude receipt) := by
  refine leaves_bind (leaves_durably fun _ => rfl) fun _ => ?_
  exact leaves_bind (leaves_durably fun _ => rfl) fun _ => leaves_pure _

theorem leaves_unlinkSending (intentId : String) :
    Leaves authorityView (unlinkSending intentId) :=
  leaves_operate fun _ => rfl

theorem leaves_recoverJournal (intentId : String) (claim : SendingClaim) :
    Leaves authorityView (recoverJournal now intentId claim) := by
  refine leaves_bind leaves_files fun before => ?_
  cases before.journal.get intentId with
  | some records => exact leaves_pure _
  | none =>
    cases claim.mark with
    | none => exact leaves_pure _
    | some mark =>
      exact leaves_bind (leaves_journalAppend _ _ _) fun _ => leaves_journalAll _ _ _

theorem leaves_recoverOne (intentId : String) : Leaves authorityView (recoverOne now intentId) := by
  refine leaves_bind leaves_files fun before => ?_
  cases before.sending.get intentId with
  | none => exact leaves_pure _
  | some claim =>
    cases before.terminal.get intentId with
    | some receipt => exact leaves_bind (leaves_unlinkSending intentId) fun _ => leaves_pure _
    | none =>
      refine leaves_bind (leaves_attempt ?_ fun _ => leaves_pure _) fun package => ?_
      · refine leaves_bind (leaves_operate fun _ => rfl) fun _ => ?_
        exact leaves_bind (leaves_recoverJournal intentId claim) fun _ => leaves_pure _
      · refine leaves_bind (leaves_durably fun _ => rfl) fun _ => ?_
        exact leaves_bind (leaves_unlinkSending intentId) fun _ => leaves_pure _

theorem leaves_recover : Leaves authorityView (recover now) := by
  refine leaves_bind leaves_files fun before => ?_
  generalize sortedBy String.toList (before.sending.names.filter listed) = intentIds
  induction intentIds with
  | nil => exact leaves_pure _
  | cons intentId rest ih =>
    exact leaves_bind (leaves_recoverOne intentId) fun _ => leaves_bind ih fun _ => leaves_pure _

theorem leaves_keepVerdict (record : Reconciliation) (facts : List ExecutionRecord)
    (prior : Option Reconciliation) : Leaves authorityView (keepVerdict record facts prior) := by
  have audit : Leaves authorityView (auditReconcile record.intentId) := leaves_durably fun _ => rfl
  unfold keepVerdict
  split
  · exact leaves_bind audit fun _ => leaves_pure _
  · cases prior with
    | some prior => exact leaves_bind (leaves_refuseIf _ _) fun _ => leaves_pure _
    | none =>
      refine leaves_bind (leaves_journalAll _ _ _) fun _ => leaves_bind audit fun _ => ?_
      exact leaves_bind (leaves_durably fun _ => rfl) fun _ => leaves_pure _

theorem leaves_reconcileIntent (intentId : String) (broker : Broker) :
    Leaves authorityView (reconcileIntent env now intentId broker) := by
  refine leaves_bind leaves_recover fun _ => leaves_bind leaves_files fun before => ?_
  refine leaves_bind (leaves_readFile _ _) fun terminal => ?_
  cases terminal with
  | none => exact leaves_raise _
  | some terminal =>
    refine leaves_bind (leaves_refuseIf _ _) fun _ => leaves_bind (leaves_check _) fun _ => ?_
    refine leaves_bind (leaves_refuseIf _ _) fun _ => leaves_bind leaves_files fun _ => ?_
    refine leaves_bind (leaves_readFile _ _) fun prior => ?_
    exact leaves_bind (leaves_operate fun _ => rfl) fun _ => leaves_keepVerdict _ _ _

/-! ## `mandate.json` -/

theorem ends_retireExpired (held : Authoritative now world) :
    Ends (retireExpired now world.files.mandate) world fates
      (Safely (Authoritative now) fun _ later => Authoritative now later ∧
        later.files.mandate = none ∧ later.files.mandateRevoked = world.files.mandateRevoked) := by
  cases isMandate : world.files.mandate with
  | none => exact ends_pure ⟨held, isMandate, rfl⟩
  | some existing =>
    refine ends_refuse held fun expired => ?_
    have madeWay : Authoritative now
        (change (fun files => { files with mandate := none }) world) :=
      ⟨held.kept.madeWay isMandate (not_not.mp expired), held.backed⟩
    exact ends_durably ⟨held, held⟩ ⟨madeWay, madeWay⟩ ⟨madeWay, rfl, rfl⟩

theorem grantedAt_of_mandateOf {request : GrantRequest} {mandate : SupervisedMandate}
    (ok : mandateOf request now = .ok mandate) : mandate.grantedAt = now := by
  unfold mandateOf at ok
  split at ok
  · cases ok
  · split at ok
    · split at ok
      · cases ok
      · rw [← Except.ok.inj ok]
    · cases ok

/-- **A grant keeps what earlier grants minted apart.** -/
theorem authoritative_grantMandate {request : GrantRequest} (held : Authoritative now world) :
    Ends (grantMandate now request) world fates (Throughout (Authoritative now)) := by
  refine ends_refuse held fun _ => ?_
  refine ends_look ?_
  refine ends_refuse held fun _ => ?_
  refine ends_refuse held fun unrevoked => ?_
  rw [Option.not_isSome_iff_eq_none] at unrevoked
  refine ends_load held ?_
  refine ends_bind_safely (ends_retireExpired held) ?_
  rintro ⟨⟩ later ⟨heldLater, absent, sameTombstone⟩
  refine ends_checked heldLater fun mandate isMandate => ?_
  have done : Authoritative now (granted mandate later) :=
    ⟨heldLater.kept.granted absent (sameTombstone.trans unrevoked)
      (grantedAt_of_mandateOf isMandate), heldLater.backed⟩
  exact ends_write heldLater done (ends_pure done)

theorem authoritative_revokeMandate (held : Authoritative now world) :
    Ends revokeMandate world fates (Throughout (Authoritative now)) := by
  refine ends_look ?_
  refine ends_load held ?_
  cases world.files.mandate with
  | none => exact ends_raise held
  | some mandate =>
    have revoked : Authoritative now
        (change (fun files => { files with mandateRevoked := some mandate }) world) :=
      ⟨held.kept.tombstone mandate, held.backed⟩
    refine ends_write held revoked ?_
    have removed : Authoritative now (change (fun files => { files with mandate := none })
        (change (fun files => { files with mandateRevoked := some mandate }) world)) :=
      ⟨revoked.kept.removed (Option.some_ne_none mandate), revoked.backed⟩
    exact ends_durably ⟨revoked, revoked⟩ ⟨removed, removed⟩ removed

variable {ownerEpoch : String}

theorem ends_activeMandate {accountId strategyVersion : String}
    {after : Ending SupervisedError SupervisedMandate → SupervisedWorld → Prop}
    (raised : ∀ error, after (.raised error) world) (died : after .died world)
    (active : ∀ mandate, world.files.mandate = some mandate → world.files.halted = false →
      world.files.mandateRevoked = none → ¬ mandate.ExpiredAt now →
      after (.returned mandate) world) :
    Ends (activeMandate now accountId ownerEpoch strategyVersion) world fates after := by
  refine ends_look ?_
  refine ends_bind (ends_refuseIf (fun _ => raised _) fun unhalted => Ends.next ?_)
  refine ends_bind (ends_refuseIf (fun _ => raised _) fun unrevoked => Ends.next ?_)
  refine ends_bind (ends_readFile ⟨raised _, died⟩ (Ends.next ?_))
  cases isMandate : world.files.mandate with
  | none => exact ends_raise (raised _)
  | some mandate =>
    refine ends_check ?_ fun error _ => raised error
    intro value bound
    unfold boundMandate at bound
    split_ifs at bound with expired
    cases bound
    exact active mandate isMandate (Bool.eq_false_iff.mpr unhalted)
      (Option.not_isSome_iff_eq_none.mp unrevoked) expired

/-! ## Mandates of one order -/

/-- A mandate is moved out of the way. -/
theorem authoritative_retire (mandate : SupervisedMandateV2) (held : Authoritative now world) :
    Ends (retire mandate) world fates
      (Safely (Authoritative now) fun _ later => Authoritative now later ∧
        ∀ intentId found, Filed (authorityView later) intentId found →
          Filed (authorityView world) intentId found) := by
  have retired : Authoritative now (change (fun files =>
      { files with entryMandate := files.entryMandate.remove mandate.intentId }) world) :=
    ⟨held.kept.retired mandate.intentId, held.backed⟩
  refine ends_write held retired ?_
  have fewer : ∀ intentId found, Filed (authorityView (change (fun files =>
      { files with entryMandate := files.entryMandate.remove mandate.intentId }) world))
        intentId found → Filed (authorityView world) intentId found :=
    fun intentId found isFiled => AuthorityKept.filed_of_removed isFiled
  exact ends_durably ⟨retired, retired⟩ ⟨retired, retired⟩ ⟨retired, fewer⟩

variable {proposal : Desk.EntryProposal} {command : Desk.ApproveEntryCommand}
  {mandate : SupervisedMandateV2}

theorem of_mandateForApproval
    (isMandate : Desk.mandateForApproval proposal command now = some mandate) :
    mandate.intentId = proposal.effect.intentId ∧ mandate.approvalId = command.idempotencyKey := by
  unfold Desk.mandateForApproval at isMandate
  split at isMandate
  · cases isMandate
  · split at isMandate
    · rw [← Option.some.inj isMandate]
      exact ⟨rfl, rfl⟩
    · cases isMandate

/-- The key of an approval is on file for no other intent. -/
def KeyOwn (view : AuthorityView) (key intentId : String) : Prop :=
  ∀ other mandate, Filed view other mandate → mandate.approvalId = key → other = intentId

theorem authoritative_storeEntryMandate (held : Authoritative now world)
    (nameable : entryIntentOk proposal.effect.intentId)
    (own : KeyOwn (authorityView world) command.idempotencyKey proposal.effect.intentId) :
    Ends (storeEntryMandate proposal command now) world fates (Throughout (Authoritative now)) := by
  unfold storeEntryMandate
  split
  case h_1 => exact ends_raise held
  case h_2 mandate isMandate =>
    obtain ⟨names, key⟩ := of_mandateForApproval isMandate
    have stored : Authoritative now (change (fun files =>
        { files with
          entryMandate := files.entryMandate.write proposal.effect.intentId mandate }) world) := by
      refine ⟨held.kept.stored nameable names ?_, held.backed⟩
      intro other found isFiled same
      exact own other found isFiled (same.trans key)
    exact ends_write held stored (ends_pure stored)

/-- **An approval grants a mandate whose key is its intent's own.** -/
theorem authoritative_grantEntryMandate {profileDigest : String} (held : Authoritative now world)
    (own : KeyOwn (authorityView world) command.idempotencyKey proposal.effect.intentId) :
    Ends (grantEntryMandate env.sha256 now proposal command ownerEpoch profileDigest) world fates
      (Throughout (Authoritative now)) := by
  refine ends_refuse held fun _ => ?_
  refine ends_refuse held fun nameable => ?_
  refine ends_look ?_
  refine ends_refuse held fun _ => ?_
  refine ends_refuse held fun _ => ?_
  refine ends_bind (ends_refuseIssued (fun _ => held) held fun _ => Ends.next ?_)
  refine ends_load held ?_
  cases world.files.entryMandate.get proposal.effect.intentId with
  | none => exact authoritative_storeEntryMandate held (not_not.mp nameable) own
  | some existing =>
    unfold replaceEntryMandate
    dsimp only
    split
    · exact ends_refuse held fun _ => ends_pure held
    · refine ends_refuse held fun _ => ?_
      refine ends_bind_safely (authoritative_retire existing held) ?_
      rintro ⟨⟩ later ⟨heldLater, fewer⟩
      refine authoritative_storeEntryMandate heldLater (not_not.mp nameable) ?_
      intro other mandate isFiled
      exact own other mandate (fewer other mandate isFiled)

variable {intentId : String}

theorem authoritative_invalidateOne (mandate : Option SupervisedMandateV2)
    (held : Authoritative now world) :
    Ends (invalidateOne ownerEpoch intentId mandate) world fates
      (Throughout (Authoritative now)) := by
  cases mandate with
  | none => exact ends_pure held
  | some mandate =>
    unfold invalidateOne
    dsimp only
    split
    · refine ends_bind_safely (authoritative_retire mandate held) ?_
      rintro ⟨⟩ later ⟨heldLater, -⟩
      exact ends_pure heldLater
    · exact ends_pure held

theorem authoritative_invalidateEntryMandates (held : Authoritative now world) :
    Ends (invalidateEntryMandates ownerEpoch) world fates (Throughout (Authoritative now)) := by
  refine ends_look ?_
  generalize sortedBy String.toList world.files.entryMandate.names = intentIds
  induction intentIds generalizing world with
  | nil => exact ends_pure held
  | cons intentId rest ih =>
    refine ends_look ?_
    refine ends_bind_safely (authoritative_of_leaves
      (leaves_attempt (leaves_readFile _ _) fun _ => leaves_pure _) held) ?_
    intro mandate read heldRead
    refine ends_bind_safely (authoritative_invalidateOne mandate heldRead) ?_
    intro first later heldLater
    exact ends_bind_safely (ih heldLater) fun _ _ heldLast => ends_pure heldLast

theorem authoritative_retireEntryMandate {proposalId : Option String}
    (held : Authoritative now world) :
    Ends (retireEntryMandate intentId proposalId) world fates (Throughout (Authoritative now)) := by
  refine ends_refuse held fun _ => ?_
  refine ends_look ?_
  refine ends_bind_safely (authoritative_of_leaves
    (leaves_attempt (leaves_readFile _ _) fun _ => leaves_pure _) held) ?_
  intro found read heldRead
  cases found with
  | none => exact ends_pure heldRead
  | some mandate =>
    unfold retireFound
    dsimp only
    split
    · exact ends_pure heldRead
    · refine ends_bind_safely (authoritative_retire mandate heldRead) ?_
      rintro ⟨⟩ later ⟨heldLater, -⟩
      exact ends_pure heldLater

/-! ## Minting -/

theorem unconsumed_of_hasEntryMandate (held : Authoritative now world)
    (routes : ¬ hasEntryMandate world.files intentId) :
    world.files.entryMandateConsumed.get intentId = none := by
  cases isConsumed : world.files.entryMandateConsumed.get intentId with
  | none => rfl
  | some mandate =>
    refine absurd ?_ routes
    rw [hasEntryMandate, (held.kept.filed intentId mandate (.inr isConsumed)).1, isConsumed]
    simp

variable {request : PermitRequest}

/-- **A permit of `mandate.json` is minted for an order that was spent.** -/
theorem authoritative_issueMandatePermit (held : Authoritative now world)
    (unconsumed : world.files.entryMandateConsumed.get request.intent.intentId = none) :
    Ends (issueMandatePermit env now request) world fates (Throughout (Authoritative now)) := by
  refine ends_bind (ends_activeMandate (fun _ => held) held ?_)
  intro mandate isMandate _ _ active
  refine Ends.next (ends_refuse held fun _ => ?_)
  refine ends_bind (ends_refuseIssued (fun _ => held) held fun _ => Ends.next ?_)
  refine ends_checked held fun expiresAt _ => ?_
  refine ends_checked held fun permit isPermit => ?_
  have isFor := permitFor_of_permitOf isPermit
  rw [spendOrder]
  split
  case isFalse => exact ends_raise held
  case isTrue spare =>
    have spent : Authoritative now (change (fun files =>
        { files with
          mandate := some { mandate with
            ordersUsed := mandate.ordersUsed + 1, used_le := spare } }) world) :=
      ⟨held.kept.orderSpent isMandate spare, held.backed⟩
    refine ends_write held spent ?_
    refine ends_bind (ends_observe (Ends.next ?_))
    have issued := spent.kept.mintedByGrant rfl
      (Nat.lt_succ_of_le (held.kept.spent mandate isMandate)) isFor.mandateId
      (isFor.issuedAt.trans_lt (not_le.mp active))
    have backed := spent.backed.minted ⟨permit, .grant world.grants
        { mandate with ordersUsed := mandate.ordersUsed + 1, used_le := spare }⟩
      fun _ _ _ => (congrArg _ isFor.intentId).trans unconsumed
    exact ends_bind (ends_durably ⟨spent, spent⟩
      ⟨⟨issued.permits _, backed⟩, ⟨issued.permits _, backed⟩⟩
      (Ends.next (ends_pure ⟨issued.permits _, backed⟩)))

variable {permit : EffectPermit}

/-- **The permit of an approval is the only one of its intent.** -/
theorem authoritative_consumeMandate (held : Authoritative now world)
    (pending : world.files.entryMandate.get permit.intentId = some mandate)
    (unconsumed : world.files.entryMandateConsumed.get permit.intentId = none)
    (unissued : permitForIntent world.files permit.intentId = false)
    (names : permit.mandateId = entryMandateId mandate)
    (expires : permit.expiresAt ≤ mandate.expiresAt) :
    Ends (consumeMandate mandate permit) world fates (Throughout (Authoritative now)) := by
  have consumed : Authoritative now (change (fun files =>
      { files with
        entryMandate := files.entryMandate.remove permit.intentId
        entryMandateConsumed := files.entryMandateConsumed.write permit.intentId mandate })
      world) :=
    ⟨held.kept.consumed pending unconsumed,
      held.backed.consumed mandate (not_permitForIntent unissued).1⟩
  refine ends_write held consumed ?_
  have issued := consumed.kept.mintedByApproval
    (Directory.get_write_self world.files.entryMandateConsumed permit.intentId mandate)
    (held.kept.unminted unconsumed) names expires
  have backed := consumed.backed.minted ⟨permit, .approval mandate⟩
    fun _ _ isGrant => nomatch isGrant
  exact ends_bind (ends_durably ⟨consumed, consumed⟩
    ⟨⟨issued.permits _, backed⟩, ⟨issued.permits _, backed⟩⟩
    (Ends.next (ends_pure ⟨issued.permits _, backed⟩)))

theorem authoritative_issueEntryPermit (held : Authoritative now world) :
    Ends (issueEntryPermit env now request) world fates (Throughout (Authoritative now)) := by
  refine ends_look ?_
  refine ends_refuse held fun _ => ?_
  refine ends_refuse held fun unconsumed => ?_
  rw [Option.not_isSome_iff_eq_none] at unconsumed
  refine ends_load held ?_
  cases pending : world.files.entryMandate.get request.intent.intentId with
  | none => exact ends_raise held
  | some mandate =>
    iterate 4 refine ends_refuse held fun _ => ?_
    refine ends_bind (ends_refuseIssued (fun _ => held) held fun unissued => Ends.next ?_)
    refine ends_checked held fun expiresAt _ => ?_
    refine ends_checked held fun permit isPermit => ?_
    have isFor := permitFor_of_permitOf isPermit
    rw [← isFor.intentId] at pending unconsumed unissued
    exact authoritative_consumeMandate held pending unconsumed unissued isFor.mandateId
      (isFor.expiresAt.trans_le (min_le_right _ _))

/-- **A permit is minted within the orders of its grant, or by an approval that has minted
none.** -/
theorem authoritative_issuePermit (held : Authoritative now world) :
    Ends (issuePermit env now request) world fates (Throughout (Authoritative now)) := by
  iterate 4 refine ends_refuse held fun _ => ?_
  refine ends_look ?_
  split
  case isTrue => exact authoritative_issueEntryPermit held
  case isFalse routes =>
    exact ends_refuse held fun _ =>
      authoritative_issueMandatePermit held (unconsumed_of_hasEntryMandate held routes)

/-! ## Sending -/

/-- No grant stands that is later than a permit of `mandate.json`. -/
def standing (files : SupervisedFiles) (permitId : String) : Bool :=
  match files.permit.get permitId with
  | none => true
  | some permit =>
    perTrade files permit ||
      files.mandate.all fun mandate => decide (mandate.grantedAt ≤ permit.issuedAt)

/-- What `authorize` finds behind a permit. -/
def Covered (files : SupervisedFiles) (now : ℤ) (permit : EffectPermit) : Prop :=
  (∃ mandate, files.entryMandateConsumed.get permit.intentId = some mandate ∧
      bindingMatches mandate permit) ∨
    ¬ perTrade files permit ∧ ∃ mandate, files.mandate = some mandate ∧
      files.mandateRevoked = none ∧ ¬ mandate.ExpiredAt now

theorem consumed_of_consumedFor {files : SupervisedFiles}
    (found : consumedFor files intentId = some mandate) :
    files.entryMandateConsumed.get intentId = some mandate := by
  unfold consumedFor at found
  split at found
  · exact found
  · cases found

theorem ends_authorize {after : Ending SupervisedError String → SupervisedWorld → Prop}
    (raised : ∀ error, after (.raised error) world) (died : after .died world)
    (covered : ∀ environment, world.files.halted = false → Covered world.files now permit →
      after (.returned environment) world) : Ends (authorize now permit) world fates after := by
  refine ends_bind (ends_look ?_)
  split
  case isTrue v1 =>
    refine ends_pure (Ends.next (ends_bind (ends_activeMandate raised died ?_)))
    intro mandate isMandate unhalted unrevoked active
    exact Ends.next (ends_pure (covered _ unhalted
      (.inr ⟨v1, mandate, isMandate, unrevoked, active⟩)))
  case isFalse =>
    refine ends_bind (ends_refuseIf (fun _ => raised _) fun unhalted => Ends.next ?_)
    refine ends_bind (ends_readFile ⟨raised _, died⟩ (Ends.next ?_))
    cases found : consumedFor world.files permit.intentId with
    | none => exact ends_raise (raised _)
    | some mandate =>
      refine ends_bind (ends_refuseIf (fun _ => raised _) fun bound => Ends.next ?_)
      refine ends_pure (Ends.next (ends_pure (covered _ (Bool.eq_false_iff.mpr unhalted) ?_)))
      exact .inl ⟨mandate, consumed_of_consumedFor found, not_not.mp bound⟩

/-- What the mint of a permit on file says of it. -/
structure MintOf (view : AuthorityView) (permit : EffectPermit) (mint : Mint) : Prop where
  isMint : mint ∈ view.mints
  own : mint.permit = permit
  source : ∀ number mandate, mint.source = .grant number mandate →
    view.entryMandateConsumed.get permit.intentId = none

/-- **A covered permit is allowed by the mandate it was minted from**, unless a later grant
stands. -/
theorem allows_of_covered {permitId : String} {mint : Mint}
    (kept : AuthorityKept (authorityView world) now)
    (mintOf : MintOf (authorityView world) permit mint)
    (isPermit : world.files.permit.get permitId = some permit)
    (noLater : standing world.files permitId) (ahead : now < permit.expiresAt)
    (covered : Covered world.files now permit) : Allows world.files now permit := by
  have proper := kept.proper mint mintOf.isMint
  obtain ⟨minted, source⟩ := mint
  obtain rfl : minted = permit := mintOf.own
  rcases covered with ⟨mandate, isConsumed, bound⟩ | ⟨v1, mandate, isMandate, unrevoked, active⟩
  · cases source with
    | grant number granted =>
      have unconsumed := mintOf.source number granted rfl
      rw [show (authorityView world).entryMandateConsumed.get minted.intentId = _ from isConsumed]
        at unconsumed
      cases unconsumed
    | approval approved =>
      obtain rfl : mandate = approved := Option.some.inj
        (isConsumed.symm.trans (kept.approved minted approved mintOf.isMint))
      obtain ⟨names, intent, expires⟩ := proper
      exact .inr ⟨mandate, isConsumed, intent.symm, not_le.mpr (ahead.trans_le expires), names⟩
  · cases source with
    | approval approved =>
      have isConsumed := kept.approved minted approved mintOf.isMint
      refine absurd ?_ v1
      rw [perTrade, consumedFor, if_pos (kept.filed _ _ (.inr isConsumed)).1]
      rw [show world.files.entryMandateConsumed.get minted.intentId = _ from isConsumed]
      simp
    | grant number granted =>
      obtain ⟨names, active'⟩ := proper
      have isGrant := mintOf.isMint
      have notLater : mandate.grantedAt ≤ minted.issuedAt := by
        rw [standing, isPermit] at noLater
        simpa [v1, isMandate] using noLater
      have same : number = (authorityView world).grants := by
        refine ((kept.numbered minted number granted isGrant).lt_or_eq).resolve_left ?_
        intro before
        have ended := kept.earlier minted number granted mandate isGrant before isMandate
        exact absurd (active'.trans_le (ended.trans notLater)) (lt_irrefl _)
      rw [same] at isGrant
      have sameId := (kept.standing minted granted mandate isGrant isMandate).mandateId
      exact .inl ⟨mandate, isMandate, unrevoked, active, names.trans sameId⟩

section

variable {permit : EffectPermit} {intent : SupervisedIntent}

/-- The authority of a world whose permit is being sent. -/
def withoutPermit (world : SupervisedWorld) (permit : EffectPermit) : AuthorityView :=
  { authorityView world with permit := world.files.permit.remove permit.permitId }

theorem ends_view_of_leaves {Value : Type} {program : SupervisedProgram Value}
    {view : AuthorityView} (leaves : Leaves authorityView program)
    (here : authorityView world = view) :
    Ends program world fates
      (Safely (fun later => authorityView later = view) fun _ later =>
        authorityView later = view) := by
  refine (leaves.ends world fates).mono ?_
  intro ending later same
  cases ending with
  | returned value => exact same.trans here
  | raised error => exact same.trans here
  | died => exact same.trans here

theorem ends_claimAndConsume_view (held : Authoritative now world) {mint : Mint}
    (carried : Backed (withoutPermit world permit) [mint]) :
    Ends (claimAndConsume now permit intent) world fates
      (Safely (Authoritative now) fun _ later =>
        authorityView later = withoutPermit world permit) := by
  have taken : ∀ {later : SupervisedWorld}, authorityView later = withoutPermit world permit →
      Authoritative now later := by
    intro later same
    refine ⟨?_, ?_⟩
    · rw [same]
      exact held.kept.permits _
    · rw [same]
      exact carried.dropped
  have claimed : Authoritative now (change (fun files =>
      { files with
        pending := files.pending.remove permit.intentId
        sending := files.sending.write permit.intentId ⟨intent, none⟩ }) world) :=
    held.of_view rfl
  have marked : Authoritative now (change (fun files =>
      { files with
        sending := files.sending.write permit.intentId
          ⟨intent, some ⟨now, permit.permitId, permit.effectSha256⟩⟩ })
      (change (fun files =>
        { files with
          pending := files.pending.remove permit.intentId
          sending := files.sending.write permit.intentId ⟨intent, none⟩ }) world)) :=
    held.of_view rfl
  refine ends_write held claimed ?_
  refine ends_write claimed marked ?_
  refine ends_bind (ends_durably ⟨marked, marked⟩ ⟨taken rfl, taken rfl⟩ (Ends.next ?_))
  exact ends_durably ⟨taken rfl, taken rfl⟩ ⟨taken rfl, taken rfl⟩ rfl

theorem Allows.of_view {later : SupervisedWorld} (allows : Allows world.files now permit)
    (same : authorityView later = withoutPermit world permit) : Allows later.files now permit := by
  have mandate : later.files.mandate = world.files.mandate := congrArg AuthorityView.mandate same
  have revoked : later.files.mandateRevoked = world.files.mandateRevoked :=
    congrArg AuthorityView.mandateRevoked same
  have consumed : later.files.entryMandateConsumed = world.files.entryMandateConsumed :=
    congrArg AuthorityView.entryMandateConsumed same
  rw [Allows, mandate, revoked, consumed]
  exact allows

/-- **What is sent is authorized.** -/
theorem authoritative_transmit {checked : SupervisedFiles} {broker : Broker}
    (held : Authoritative now world) {mint : Mint} (own : mint.permit = permit)
    (carried : Backed (withoutPermit world permit) [mint]) (unhalted : checked.halted = false)
    (allows : Allows world.files now permit) :
    Ends (transmit env now permit intent checked broker) world fates
      (Throughout (Authoritative now)) := by
  have taken : ∀ later, authorityView later = withoutPermit world permit →
      Authoritative now later := by
    intro later same
    refine ⟨?_, ?_⟩
    · rw [same]
      exact held.kept.permits _
    · rw [same]
      exact carried.dropped
  refine ends_bind_safely (ends_claimAndConsume_view held carried) ?_
  rintro ⟨⟩ claimed isClaimed
  refine ends_bind_safely ((ends_view_of_leaves (leaves_journalAppend _ _ _) isClaimed).weaken
    taken fun _ _ => id) ?_
  rintro ⟨⟩ begun isBegun
  refine ends_bind_safely ((ends_view_of_leaves (leaves_journalAppend _ _ _) isBegun).weaken
    taken fun _ _ => id) ?_
  rintro ⟨⟩ journaled isJournaled
  refine ends_bind (ends_check (fun base _ => Ends.next ?_) fun _ _ => taken _ isJournaled)
  have authorized : Authorized ⟨permit, intent, now, checked, journaled.files⟩ :=
    ⟨unhalted, allows.of_view isJournaled⟩
  have asked : Authoritative now (submitted now permit intent checked journaled) := by
    have sameView : authorityView (submitted now permit intent checked journaled) =
        { authorityView journaled with
          submits := journaled.submits ++ [⟨permit, intent, now, checked, journaled.files⟩] } := rfl
    refine ⟨?_, ?_⟩
    · rw [sameView]
      exact (taken _ isJournaled).kept.asked authorized
    · rw [sameView]
      have backed : Backed (authorityView journaled) [mint] := by
        rw [isJournaled]
        exact carried
      exact backed.submitted own
  have contacted : Ends (submit now permit intent checked broker) journaled fates
      (Throughout (Authoritative now)) :=
    ends_attempt (ends_bind (ends_contact (Ends.next (ends_pure asked)) asked
      (taken _ isJournaled)))
  refine ends_bind_safely contacted ?_
  intro answered later heldLater
  refine ends_bind_safely (authoritative_of_leaves (leaves_journalAll _ _ _) heldLater) ?_
  intro _ recorded heldRecorded
  exact authoritative_of_leaves (leaves_conclude _) heldRecorded

/-- **A send asks for what its permit's own mandate allows**, while no later grant stands. -/
theorem authoritative_send {permitId : String} {effectPayload : List UInt8} {broker : Broker}
    (held : Authoritative now world) (noLater : standing world.files permitId) :
    Ends (send env now permitId effectPayload broker) world fates
      (Throughout (Authoritative now)) := by
  refine ends_look (ends_load held ?_)
  cases isPermit : world.files.permit.get permitId with
  | none =>
    change Ends (if _ then _ else _) world fates _
    split
    · exact ends_raise held
    · exact ends_raise held
  | some permit =>
    obtain ⟨mint, isMint, own, source, carried⟩ := held.backed.taken isPermit
    have named : permit.permitId = permitId := by
      obtain ⟨-, left, -, -, onFile⟩ := held.backed
      exact (onFile permitId permit isPermit).1
    refine ends_refuse held fun ahead => ?_
    refine ends_refuse held fun _ => ?_
    refine ends_bind (ends_authorize (fun _ => held) held ?_)
    intro environment unhalted covered
    refine Ends.next (ends_refuse held fun _ => ?_)
    refine ends_load held ?_
    cases world.files.pending.get permit.intentId with
    | none => exact ends_raise held
    | some intent =>
      iterate 3 refine ends_refuse held fun _ => ?_
      refine ends_bind_unchanged ?_ held fun _ => ?_
      · rw [preflight]
        split
        · exact leaves_operate fun _ => rfl
        · exact leaves_pure _
      · rw [← named] at carried
        exact authoritative_transmit held own carried unhalted
          (allows_of_covered held.kept ⟨isMint, own, source⟩ isPermit noLater
            (not_le.mp ahead) covered)

end

/-! ## Runs -/

/-- Calls on one state directory, which is empty at first. Time does not go back. -/
def authoritySystem (env : Environment) : System SupervisedState SupervisedStep where
  Initial state := state.world = emptyWorld
  step state step :=
    if state.clock ≤ step.now then
      some ⟨(perform env step.now step.call state.world step.fates).2, step.now⟩
    else none

/-- No mandate of another intent is on file with the key. -/
def keyOwn (files : SupervisedFiles) (key intentId : String) : Bool :=
  !(files.entryMandate.any fun other mandate =>
      mandate.approvalId = key && decide (other ≠ intentId)) &&
    !files.entryMandateConsumed.any fun other mandate =>
      mandate.approvalId = key && decide (other ≠ intentId)

/-- A permit of `mandate.json` is sent while no later grant stands, and an approval is granted
whose key is on file for no other intent. -/
def WithinGrant (state : SupervisedState) (step : SupervisedStep) : Prop :=
  match step.call with
  | .send permitId _ _ => standing state.world.files permitId
  | .grantEntryMandate proposal command _ _ =>
    keyOwn state.world.files command.idempotencyKey proposal.effect.intentId
  | _ => True

theorem keyOwn_view {key : String} (own : keyOwn world.files key intentId) :
    KeyOwn (authorityView world) key intentId := by
  rw [keyOwn, Bool.and_eq_true, Bool.not_eq_true', Bool.not_eq_true'] at own
  intro other mandate isFiled sameKey
  by_contra differs
  have meets : (decide (mandate.approvalId = key) && decide (other ≠ intentId)) = true := by
    simp [sameKey, differs]
  rcases isFiled with pending | consumed
  · exact Bool.eq_false_iff.mp own.1 (Directory.any_iff.mpr ⟨other, mandate, pending, meets⟩)
  · exact Bool.eq_false_iff.mp own.2 (Directory.any_iff.mpr ⟨other, mandate, consumed, meets⟩)

variable {state : SupervisedState}

/-- **Every call within its grant keeps authority.** -/
theorem authoritative_perform {step : SupervisedStep} (held : Authoritative step.now state.world)
    (within : WithinGrant state step) :
    Authoritative step.now (perform env step.now step.call state.world step.fates).2 := by
  rcases step with ⟨now, call, fates⟩
  cases call with
  | recordIntent intent =>
    exact (authoritative_of_leaves (leaves_recordIntent intent) held).always
  | issuePermit request => exact (ends_discard (authoritative_issuePermit held)).always
  | send permitId effectPayload broker =>
    exact (ends_discard (authoritative_send held within)).always
  | recover => exact (ends_discard (authoritative_of_leaves leaves_recover held)).always
  | reconcileIntent intentId broker =>
    exact (ends_discard (authoritative_of_leaves (leaves_reconcileIntent _ _) held)).always
  | grantMandate request => exact (ends_discard (authoritative_grantMandate held)).always
  | revokeMandate => exact (authoritative_revokeMandate held).always
  | haltEffects =>
    have halts : Leaves authorityView haltEffects := leaves_durably fun _ => rfl
    exact (authoritative_of_leaves halts held).always
  | grantEntryMandate proposal command ownerEpoch profileDigest =>
    exact (ends_discard (authoritative_grantEntryMandate held (keyOwn_view within))).always
  | invalidateEntryMandates ownerEpoch =>
    exact (ends_discard (authoritative_invalidateEntryMandates held)).always
  | retireEntryMandate intentId proposalId =>
    exact (ends_discard (authoritative_retireEntryMandate held)).always

/-- Each submit is authorized and has a mint of its own, the mints of a grant stay within its
orders, and no approval has two. -/
structure AuthoritySafe (world : SupervisedWorld) : Prop where
  authorized : ∀ submission ∈ world.submits, Authorized submission
  ownMint : ∃ used : List Mint,
    used.map Mint.permit = world.submits.map Submission.permit ∧ used.Subperm world.mints
  budget : ∀ permit number mandate, ⟨permit, .grant number mandate⟩ ∈ world.mints →
    mintedFrom number world.mints ≤ mandate.maxOrders
  approvals : (approvalIds world.mints).Nodup

/-- **In every run of calls within their grants, each submit is allowed by the mandate its
permit names.** -/
theorem submits_stay_authorized (env : Environment) {state : SupervisedState}
    (reached : (authoritySystem env).ReachableUnder WithinGrant state) :
    AuthoritySafe state.world := by
  have held : Authoritative state.clock state.world := by
    induction reached with
    | initial starts =>
      rw [starts]
      exact ⟨authorityKept_empty _, backed_empty⟩
    | @step state next step _ within taken held =>
      obtain ⟨passes, isNext⟩ := Option.ite_none_right_eq_some.mp taken
      obtain rfl := Option.some.inj isNext
      exact authoritative_perform ⟨held.kept.later passes, held.backed⟩ within
  obtain ⟨used, left, each, among, -⟩ := held.backed
  refine ⟨held.kept.authorized, ⟨used, each, ?_⟩, held.kept.budget, held.kept.approvals⟩
  rw [List.append_nil] at among
  exact (List.sublist_append_left used left).subperm.trans among

/-! ## A mandate is renewed while its permit is out -/

/-- The calls come in the order of their times. -/
def inTime : ℤ → List SupervisedStep → Bool
  | _, [] => true
  | clock, step :: rest => decide (clock ≤ step.now) && inTime step.now rest

theorem run_inTime {steps : List SupervisedStep} (ordered : inTime state.clock steps) :
    (authoritySystem env).run state steps =
      some (steps.foldl (SupervisedState.next env) state) := by
  induction steps generalizing state with
  | nil => rfl
  | cons step rest ih =>
    obtain ⟨here, others⟩ := Bool.and_eq_true_iff.mp ordered
    have taken : (authoritySystem env).step state step = some (state.next env step) :=
      if_pos (of_decide_eq_true here)
    rw [System.run, taken]
    exact ih others

theorem reached_within (step : SupervisedStep)
    (reached : (authoritySystem env).ReachableUnder WithinGrant state)
    (within : WithinGrant state step) (passes : state.clock ≤ step.now) :
    (authoritySystem env).ReachableUnder WithinGrant (state.next env step) :=
  .step reached within (if_pos passes)

/-- A mandate of one minute. -/
def shortGrant : GrantRequest :=
  { sampleGrantRequest with ttlSeconds := 60 }

/-- A mandate of a minute is granted, an intent is recorded and its permit is issued. -/
def issuedUnderFirst : List SupervisedStep :=
  [sampleCall (.grantMandate shortGrant) allDone,
    sampleCall (.recordIntent (sampleSupervised "a")) allDone,
    sampleCall (.issuePermit (samplePermitRequest "a")) allDone]

def sendFirst (now : ℤ) : SupervisedStep :=
  ⟨now, .send (permitIdOf sampleEnvironment "a" (sampleSha256 sampleEffect)) sampleEffect
    sampleBroker, allDone⟩

/-- The permit is sent at once. -/
theorem sent_order_is_authorized : ∃ state,
    (authoritySystem sampleEnvironment).ReachableUnder WithinGrant state ∧
      state.world.submits.length = 1 ∧ AuthoritySafe state.world := by
  have started : (authoritySystem sampleEnvironment).ReachableUnder WithinGrant sampleState :=
    .initial (rfl : sampleState.world = emptyWorld)
  have granted := reached_within (sampleCall (.grantMandate shortGrant) allDone) started trivial
    (Int.le_refl 0)
  have recorded := reached_within (sampleCall (.recordIntent (sampleSupervised "a")) allDone)
    granted trivial (Int.le_refl 0)
  have issued := reached_within (sampleCall (.issuePermit (samplePermitRequest "a")) allDone)
    recorded trivial (Int.le_refl 0)
  obtain ⟨within, one⟩ :
      standing (issuedUnderFirst.foldl (SupervisedState.next sampleEnvironment)
        sampleState).world.files (permitIdOf sampleEnvironment "a" (sampleSha256 sampleEffect)) ∧
      ((issuedUnderFirst ++ [sendFirst 0]).foldl (SupervisedState.next sampleEnvironment)
        sampleState).world.submits.length = 1 := by
    decide +kernel
  have sent := reached_within (sendFirst 0) issued within (Int.le_refl 0)
  exact ⟨_, sent, one, submits_stay_authorized sampleEnvironment sent⟩

/-- A mandate expires and is renewed, and the permit of the first is sent under the second. -/
def renewedRun : List SupervisedStep :=
  issuedUnderFirst ++ [⟨60000000, .grantMandate shortGrant, allDone⟩, sendFirst 60000000]

/-- The mandate the permit names, the one that stands, and whether one is consumed. -/
def Submission.mandates (submission : Submission) : String × Option String × Bool :=
  (submission.permit.mandateId, submission.called.mandate.map SupervisedMandate.mandateId,
    (submission.called.entryMandateConsumed.get submission.permit.intentId).isSome)

theorem renewed_mandate_sends_old_permit :
    ¬ ∀ (env : Environment) (state : SupervisedState), (authoritySystem env).Reachable state →
      ∀ submission ∈ state.world.submits, Authorized submission := by
  intro authorized
  have reached : (authoritySystem sampleEnvironment).Reachable
      (renewedRun.foldl (SupervisedState.next sampleEnvironment) sampleState) :=
    System.ReachableUnder.run (.initial (rfl : sampleState.world = emptyWorld))
      (fun _ _ _ => trivial) (run_inTime rfl)
  have always := authorized _ _ reached
  have asked : (renewedRun.foldl (SupervisedState.next sampleEnvironment)
      sampleState).world.submits.map Submission.mandates =
        [("mandate-0", some "mandate-3c", false)] := by decide +kernel
  generalize (renewedRun.foldl (SupervisedState.next sampleEnvironment)
    sampleState).world.submits = submits at always asked
  obtain ⟨submission, rest, rfl, isFirst, -⟩ := List.map_eq_cons_iff.mp asked
  simp only [Submission.mandates, Prod.mk.injEq] at isFirst
  obtain ⟨names, stands, unconsumed⟩ := isFirst
  rcases (always submission List.mem_cons_self).allowed with
    ⟨mandate, isMandate, -, -, same⟩ | ⟨mandate, isConsumed, -⟩
  · rw [isMandate, Option.map_some, Option.some.injEq, ← same, names] at stands
    exact absurd stands (by decide)
  · rw [isConsumed] at unconsumed
    cases unconsumed

end TreeOptions.Supervised
