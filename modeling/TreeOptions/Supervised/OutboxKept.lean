import TreeOptions.Supervised.Sending

/-!
# What holds of the outbox

The package of an order that the broker was asked for is named by the receipt of its intent,
or by its claim while there is no receipt, and a pending intent whose deadline is ahead has
its package to itself: any order of the same package was rejected, or is proven not to have
been submitted (`OutboxKept`). Each operation on the files keeps that.
-/

set_option autoImplicit false

namespace TreeOptions.Supervised

open Execution (StoredExecutionRecord)

/-- The broker does not have the order: it was rejected, or is proven not to have been
submitted. -/
def Cleared (terminal : Directory String SendReceipt)
    (reconciled : Directory String Reconciliation) (intentId : String) : Prop :=
  (∃ receipt, terminal.get intentId = some receipt ∧ receipt.outcome.state = .rejected) ∨
    ∃ record, reconciled.get intentId = some record ∧ record.verdict = .confirmedNotSubmitted

/-- The part of the world that the outbox is about. -/
structure OutboxView where
  pending : Directory String SupervisedIntent
  sending : Directory String SendingClaim
  terminal : Directory String SendReceipt
  reconciled : Directory String Reconciliation
  journal : Directory String (List StoredExecutionRecord)
  permit : Directory String EffectPermit
  permitConsumed : Directory String EffectPermit
  submits : List Submission

def outboxView (world : SupervisedWorld) : OutboxView where
  pending := world.files.pending
  sending := world.files.sending
  terminal := world.files.terminal
  reconciled := world.files.reconciled
  journal := world.files.journal
  permit := world.files.permit
  permitConsumed := world.files.permitConsumed
  submits := world.submits

/-- The broker is asked once for an intent and once by a permit, and every earlier order of
the package was cleared when it is asked. -/
structure OutboxSafe (submits : List Submission) : Prop where
  perIntent : (submits.map fun submission => submission.permit.intentId).Nodup
  perPermit : (submits.map fun submission => submission.permit.permitId).Nodup
  cleared : ∀ before submission after, submits = before ++ submission :: after →
    ∀ earlier ∈ before,
      earlier.permit.packageIntentSha256 = submission.permit.packageIntentSha256 →
      Cleared submission.called.terminal submission.called.reconciled earlier.permit.intentId

/-- The receipt of an intent names the package, or the claim does while there is none. -/
def Names (view : OutboxView) (intentId package : String) : Prop :=
  (∃ receipt, view.terminal.get intentId = some receipt ∧
      receipt.packageIntentSha256 = some package) ∨
    view.terminal.get intentId = none ∧
      ∃ claim, view.sending.get intentId = some claim ∧ claim.intent.packageIntentSha256 = package

/-- What every call keeps. -/
structure OutboxKept (view : OutboxView) (clock : ℤ) : Prop where
  fresh : ∀ intentId intent, view.pending.get intentId = some intent →
    view.sending.get intentId = none ∧ view.terminal.get intentId = none ∧
      view.reconciled.get intentId = none ∧ listed intentId
  unsent : ∀ intentId intent, view.pending.get intentId = some intent →
    ∀ submission ∈ view.submits, submission.permit.intentId ≠ intentId
  named : ∀ submission ∈ view.submits,
    Names view submission.permit.intentId submission.permit.packageIntentSha256
  verdicts : ∀ intentId record, view.reconciled.get intentId = some record →
    ∃ receipt, view.terminal.get intentId = some receipt ∧
      record.packageIntentSha256 = receipt.packageIntentSha256
  alone : ∀ first second intent other, view.pending.get first = some intent →
    view.pending.get second = some other → intent.packageIntentSha256 = other.packageIntentSha256 →
    clock < intent.sendDeadline → clock < other.sendDeadline → first = second
  held : ∀ intentId intent, view.pending.get intentId = some intent → clock < intent.sendDeadline →
    ∀ submission ∈ view.submits,
      submission.permit.packageIntentSha256 = intent.packageIntentSha256 →
      Cleared view.terminal view.reconciled submission.permit.intentId
  sentListed : ∀ submission ∈ view.submits, listed submission.permit.intentId
  journaled : ∀ submission ∈ view.submits, (view.journal.get submission.permit.intentId).isSome
  apart : ∀ permitId permit, view.permit.get permitId = some permit →
    view.permitConsumed.get permitId = none
  permitIds : ∀ permitId permit, view.permit.get permitId = some permit →
    permit.permitId = permitId
  spent : ∀ submission ∈ view.submits,
    (view.permitConsumed.get submission.permit.permitId).isSome
  safe : OutboxSafe view.submits

theorem outboxKept_empty (clock : ℤ) : OutboxKept (outboxView emptyWorld) clock where
  fresh _ _ found := nomatch found
  unsent _ _ found := nomatch found
  named _ isMember := nomatch isMember
  verdicts _ _ found := nomatch found
  alone _ _ _ _ found := nomatch found
  held _ _ found := nomatch found
  sentListed _ isMember := nomatch isMember
  journaled _ isMember := nomatch isMember
  apart _ _ found := nomatch found
  permitIds _ _ found := nomatch found
  spent _ isMember := nomatch isMember
  safe := ⟨List.nodup_nil, List.nodup_nil, fun before _ _ split =>
    absurd split.symm (List.append_ne_nil_of_right_ne_nil before (List.cons_ne_nil _ _))⟩

/-! ## One operation -/

namespace OutboxKept

variable {view : OutboxView} {clock now : ℤ} {intentId : String}

section

variable (kept : OutboxKept view clock)

include kept

theorem later (passes : clock ≤ now) : OutboxKept view now :=
  { kept with
    alone := fun first second intent other isFirst isSecond same ahead aheadOther =>
      kept.alone first second intent other isFirst isSecond same (lt_of_le_of_lt passes ahead)
        (lt_of_le_of_lt passes aheadOther)
    held := fun intentId intent found ahead =>
      kept.held intentId intent found (lt_of_le_of_lt passes ahead) }

theorem not_pending
    (used : (view.sending.get intentId).isSome ∨ (view.terminal.get intentId).isSome) :
    view.pending.get intentId = none := by
  cases found : view.pending.get intentId with
  | none => rfl
  | some intent =>
    obtain ⟨noClaim, noReceipt, -, -⟩ := kept.fresh intentId intent found
    rw [noClaim, noReceipt] at used
    rcases used with claim | receipt
    · cases claim
    · cases receipt

theorem used {submission : Submission} (isMember : submission ∈ view.submits) :
    (view.sending.get submission.permit.intentId).isSome ∨
      (view.terminal.get submission.permit.intentId).isSome := by
  rcases kept.named submission isMember with ⟨receipt, found, -⟩ | ⟨-, claim, found, -⟩
  · rw [found]
    exact .inr rfl
  · rw [found]
    exact .inl rfl

theorem not_cleared (noReceipt : view.terminal.get intentId = none) :
    ¬ Cleared view.terminal view.reconciled intentId := by
  rintro (⟨receipt, found, -⟩ | ⟨record, found, -⟩)
  · rw [noReceipt] at found
    cases found
  · obtain ⟨receipt, isReceipt, -⟩ := kept.verdicts intentId record found
    rw [noReceipt] at isReceipt
    cases isReceipt

end

variable {intent : SupervisedIntent}

theorem recorded (kept : OutboxKept view clock)
    (unused : view.sending.get intentId = none ∧ view.terminal.get intentId = none ∧
      view.reconciled.get intentId = none ∧ listed intentId) (cleared : ∀ submission ∈ view.submits,
      submission.permit.packageIntentSha256 = intent.packageIntentSha256 →
      Cleared view.terminal view.reconciled submission.permit.intentId)
    (alone : ∀ other pending, view.pending.get other = some pending →
      pending.packageIntentSha256 = intent.packageIntentSha256 →
      ¬ clock < pending.sendDeadline) :
    OutboxKept { view with pending := view.pending.write intentId intent } clock := by
  have unsent : ∀ submission ∈ view.submits, submission.permit.intentId ≠ intentId := by
    intro submission isMember same
    have used := kept.used isMember
    rw [same, unused.1, unused.2.1] at used
    rcases used with claim | receipt
    · cases claim
    · cases receipt
  refine { kept with fresh := ?_, unsent := ?_, alone := ?_, held := ?_ }
  · intro name found isFound
    rcases Directory.of_get_write isFound with ⟨rfl, -⟩ | isFound
    · exact unused
    · exact kept.fresh name found isFound
  · intro name found isFound
    rcases Directory.of_get_write isFound with ⟨rfl, -⟩ | isFound
    · exact unsent
    · exact kept.unsent name found isFound
  · intro first second one two isFirst isSecond same ahead aheadOther
    rcases Directory.of_get_write isFirst with ⟨rfl, rfl⟩ | old <;>
      rcases Directory.of_get_write isSecond with ⟨rfl, rfl⟩ | old'
    · rfl
    · exact (alone second two old' same.symm aheadOther).elim
    · exact (alone first one old same ahead).elim
    · exact kept.alone first second one two old old' same ahead aheadOther
  · intro name found isFound ahead
    rcases Directory.of_get_write isFound with ⟨-, rfl⟩ | isFound
    · exact cleared
    · exact kept.held name found isFound ahead

theorem claimed (kept : OutboxKept view clock) (isPending : view.pending.get intentId = some intent)
    : OutboxKept
      { view with
        pending := view.pending.remove intentId
        sending := view.sending.write intentId ⟨intent, none⟩ } clock := by
  refine { kept with fresh := ?_, unsent := ?_, named := ?_, alone := ?_, held := ?_ }
  · intro name found isFound
    obtain ⟨differs, before⟩ := Directory.of_get_remove isFound
    rw [Directory.get_write, if_neg differs]
    exact kept.fresh name found before
  · intro name found isFound
    exact kept.unsent name found (Directory.of_get_remove isFound).2
  · intro submission isMember
    have differs := kept.unsent intentId intent isPending submission isMember
    rw [Names, Directory.get_write, if_neg differs]
    exact kept.named submission isMember
  · intro first second one two isFirst isSecond
    exact kept.alone first second one two (Directory.of_get_remove isFirst).2
      (Directory.of_get_remove isSecond).2
  · intro name found isFound
    exact kept.held name found (Directory.of_get_remove isFound).2

theorem marked (kept : OutboxKept view clock) {claim : SendingClaim} {mark : Option ClaimMark}
    (isClaim : view.sending.get intentId = some claim) :
    OutboxKept
      { view with sending := view.sending.write intentId ⟨claim.intent, mark⟩ } clock := by
  refine { kept with fresh := ?_, named := ?_ }
  · intro name found isFound
    have differs : name ≠ intentId := by
      rintro rfl
      have noClaim := (kept.fresh _ found isFound).1
      rw [isClaim] at noClaim
      cases noClaim
    rw [Directory.get_write, if_neg differs]
    exact kept.fresh name found isFound
  · intro submission isMember
    rcases kept.named submission isMember with receipt | ⟨noReceipt, before, isBefore, same⟩
    · exact .inl receipt
    · refine .inr ⟨noReceipt, ?_⟩
      rw [Directory.get_write]
      split
      case isTrue sameIntent =>
        rw [sameIntent, isClaim] at isBefore
        cases isBefore
        exact ⟨_, rfl, same⟩
      case isFalse => exact ⟨before, isBefore, same⟩

theorem concluded (receipt : SendReceipt) (kept : OutboxKept view clock)
    (isClaim : (view.sending.get intentId).isSome) (noReceipt : view.terminal.get intentId = none)
    (names : ∀ submission ∈ view.submits, submission.permit.intentId = intentId →
      receipt.packageIntentSha256 = some submission.permit.packageIntentSha256) :
    OutboxKept { view with terminal := view.terminal.write intentId receipt } clock := by
  have keeps : ∀ name, name ≠ intentId → Cleared view.terminal view.reconciled name →
      Cleared (view.terminal.write intentId receipt) view.reconciled name := by
    intro name differs cleared
    rw [Cleared, Directory.get_write, if_neg differs]
    exact cleared
  refine { kept with fresh := ?_, named := ?_, verdicts := ?_, held := ?_ }
  · intro name found isFound
    have differs : name ≠ intentId := by
      rintro rfl
      rw [(kept.fresh _ found isFound).1] at isClaim
      cases isClaim
    rw [Directory.get_write, if_neg differs]
    exact kept.fresh name found isFound
  · intro submission isMember
    rw [Names, Directory.get_write]
    split
    case isTrue same => exact .inl ⟨receipt, rfl, names submission isMember same⟩
    case isFalse => exact kept.named submission isMember
  · intro name record isRecord
    obtain ⟨before, isBefore, same⟩ := kept.verdicts name record isRecord
    rw [Directory.get_write]
    split
    case isTrue sameIntent =>
      rw [sameIntent, noReceipt] at isBefore
      cases isBefore
    case isFalse => exact ⟨before, isBefore, same⟩
  · intro name found isFound ahead submission isMember same
    have cleared := kept.held name found isFound ahead submission isMember same
    refine keeps _ ?_ cleared
    intro sameIntent
    rw [sameIntent] at cleared
    exact kept.not_cleared noReceipt cleared

theorem unlinked (intentId : String) (kept : OutboxKept view clock)
    (hasReceipt : (view.terminal.get intentId).isSome) :
    OutboxKept { view with sending := view.sending.remove intentId } clock := by
  refine { kept with fresh := ?_, named := ?_ }
  · intro name found isFound
    obtain ⟨noClaim, rest⟩ := kept.fresh name found isFound
    refine ⟨?_, rest⟩
    rw [Directory.get_remove]
    split
    · rfl
    · exact noClaim
  · intro submission isMember
    rcases kept.named submission isMember with receipt | ⟨noReceipt, claim, isClaim, same⟩
    · exact .inl receipt
    · refine .inr ⟨noReceipt, claim, ?_, same⟩
      rw [Directory.get_remove, if_neg, isClaim]
      intro sameIntent
      rw [← sameIntent, noReceipt] at hasReceipt
      cases hasReceipt

theorem judged (kept : OutboxKept view clock) {receipt : SendReceipt} {record : Reconciliation}
    (isReceipt : view.terminal.get intentId = some receipt)
    (noVerdict : view.reconciled.get intentId = none)
    (same : record.packageIntentSha256 = receipt.packageIntentSha256) :
    OutboxKept { view with reconciled := view.reconciled.write intentId record } clock := by
  refine { kept with fresh := ?_, verdicts := ?_, held := ?_ }
  · intro name found isFound
    obtain ⟨noClaim, noReceipt, rest⟩ := kept.fresh name found isFound
    have differs : name ≠ intentId := by
      rintro rfl
      rw [isReceipt] at noReceipt
      cases noReceipt
    rw [Directory.get_write, if_neg differs]
    exact ⟨noClaim, noReceipt, rest⟩
  · intro name found isFound
    rcases Directory.of_get_write isFound with ⟨rfl, rfl⟩ | isFound
    · exact ⟨receipt, isReceipt, same⟩
    · exact kept.verdicts name found isFound
  · intro name found isFound ahead submission isMember samePackage
    rcases kept.held name found isFound ahead submission isMember samePackage with
      rejected | ⟨prior, isPrior, verdict⟩
    · exact .inl rejected
    · refine .inr ⟨prior, ?_, verdict⟩
      rw [Directory.get_write, if_neg, isPrior]
      intro sameIntent
      rw [sameIntent, noVerdict] at isPrior
      cases isPrior

theorem journalGrown (kept : OutboxKept view clock)
    {journal : Directory String (List StoredExecutionRecord)}
    (grown : ∀ name, (view.journal.get name).isSome → (journal.get name).isSome) :
    OutboxKept { view with journal } clock :=
  { kept with
    journaled := fun submission isMember => grown _ (kept.journaled submission isMember) }

variable {permit : EffectPermit}

theorem issued (kept : OutboxKept view clock)
    (unspent : view.permitConsumed.get permit.permitId = none) :
    OutboxKept { view with permit := view.permit.write permit.permitId permit } clock := by
  refine { kept with apart := ?_, permitIds := ?_ }
  · intro name found isFound
    rcases Directory.of_get_write isFound with ⟨rfl, -⟩ | isFound
    · exact unspent
    · exact kept.apart name found isFound
  · intro name found isFound
    rcases Directory.of_get_write isFound with ⟨rfl, rfl⟩ | isFound
    · rfl
    · exact kept.permitIds name found isFound

theorem consumed (kept : OutboxKept view clock) {permitId : String} : OutboxKept
      { view with
        permit := view.permit.remove permitId
        permitConsumed := view.permitConsumed.write permitId permit } clock := by
  refine { kept with apart := ?_, permitIds := ?_, spent := ?_ }
  · intro name found isFound
    obtain ⟨differs, before⟩ := Directory.of_get_remove isFound
    rw [Directory.get_write, if_neg differs]
    exact kept.apart name found before
  · intro name found isFound
    exact kept.permitIds name found (Directory.of_get_remove isFound).2
  · intro submission isMember
    exact Directory.isSome_get_write (kept.spent submission isMember)

theorem dated (kept : OutboxKept view clock) {permitId : String}
    (gone : view.permit.get permitId = none) : OutboxKept
      { view with permitConsumed := view.permitConsumed.write permitId permit } clock := by
  refine { kept with apart := ?_, spent := ?_ }
  · intro name found isFound
    have differs : name ≠ permitId := by
      rintro rfl
      rw [gone] at isFound
      cases isFound
    rw [Directory.get_write, if_neg differs]
    exact kept.apart name found isFound
  · intro submission isMember
    exact Directory.isSome_get_write (kept.spent submission isMember)

end OutboxKept

/-- What holds between the claim of an intent and its submit. -/
structure InTransit (view : OutboxView) (clock : ℤ) (permit : EffectPermit)
    (intent : SupervisedIntent) : Prop where
  kept : OutboxKept view clock
  package : intent.packageIntentSha256 = permit.packageIntentSha256
  claim : ∃ mark, view.sending.get permit.intentId = some ⟨intent, mark⟩
  noReceipt : view.terminal.get permit.intentId = none
  isListed : listed permit.intentId
  unsent : ∀ submission ∈ view.submits, submission.permit.intentId ≠ permit.intentId
  unspent : ∀ submission ∈ view.submits, submission.permit.permitId ≠ permit.permitId
  cleared : ∀ submission ∈ view.submits,
    submission.permit.packageIntentSha256 = permit.packageIntentSha256 →
    Cleared view.terminal view.reconciled submission.permit.intentId
  alone : ∀ other pending, view.pending.get other = some pending →
    pending.packageIntentSha256 = permit.packageIntentSha256 → ¬ clock < pending.sendDeadline

namespace InTransit

variable {view : OutboxView} {clock : ℤ} {permit : EffectPermit} {intent : SupervisedIntent}

theorem ofPending (kept : OutboxKept view clock)
    (isPending : view.pending.get permit.intentId = some intent)
    (isPermit : view.permit.get permit.permitId = some permit)
    (package : intent.packageIntentSha256 = permit.packageIntentSha256)
    (ahead : clock < intent.sendDeadline) :
    InTransit
      { view with
        pending := view.pending.remove permit.intentId
        sending := view.sending.write permit.intentId ⟨intent, none⟩ }
      clock permit intent where
  kept := kept.claimed isPending
  package := package
  claim := ⟨none, Directory.get_write_self view.sending permit.intentId ⟨intent, none⟩⟩
  noReceipt := (kept.fresh _ _ isPending).2.1
  isListed := (kept.fresh _ _ isPending).2.2.2
  unsent := kept.unsent _ _ isPending
  unspent submission isMember same := by
    have spent := kept.spent submission isMember
    rw [same, kept.apart _ _ isPermit] at spent
    cases spent
  cleared submission isMember same :=
    kept.held _ _ isPending ahead submission isMember (same.trans package.symm)
  alone other pending isFound same aheadOther := by
    obtain ⟨differs, before⟩ := Directory.of_get_remove isFound
    exact differs (kept.alone _ _ _ _ before isPending (same.trans package.symm) aheadOther ahead)

section

variable (transit : InTransit view clock permit intent)

include transit

theorem marked (mark : Option ClaimMark) :
    InTransit { view with sending := view.sending.write permit.intentId ⟨intent, mark⟩ } clock
      permit intent := by
  obtain ⟨before, isClaim⟩ := transit.claim
  exact { transit with
    kept := transit.kept.marked isClaim
    claim := ⟨mark, Directory.get_write_self view.sending permit.intentId ⟨intent, mark⟩⟩ }

theorem consumed :
    InTransit
      { view with
        permit := view.permit.remove permit.permitId
        permitConsumed := view.permitConsumed.write permit.permitId permit } clock permit intent :=
  { transit with kept := transit.kept.consumed }

theorem dated (dated : EffectPermit) (gone : view.permit.get permit.permitId = none) :
    InTransit
      { view with permitConsumed := view.permitConsumed.write permit.permitId dated } clock
      permit intent :=
  { transit with kept := transit.kept.dated gone }

theorem journalGrown {journal : Directory String (List StoredExecutionRecord)}
    (grown : ∀ name, (view.journal.get name).isSome → (journal.get name).isSome) :
    InTransit { view with journal } clock permit intent :=
  { transit with kept := transit.kept.journalGrown grown }

/-- **The broker is asked for an order whose package is cleared.** -/
theorem asked {submission : Submission} (byPermit : submission.permit = permit)
    (sameTerminal : submission.called.terminal = view.terminal)
    (sameReconciled : submission.called.reconciled = view.reconciled)
    (journaled : (view.journal.get permit.intentId).isSome)
    (spent : (view.permitConsumed.get permit.permitId).isSome) :
    OutboxKept { view with submits := view.submits ++ [submission] } clock := by
  obtain ⟨mark, isClaim⟩ := transit.claim
  have inNew : ∀ {other}, other ∈ view.submits ++ [submission] →
      other ∈ view.submits ∨ other = submission := by
    intro other isMember
    rcases List.mem_append.mp isMember with old | new
    · exact .inl old
    · exact .inr (List.mem_singleton.mp new)
  have kept := transit.kept
  refine { kept with unsent := ?_, named := ?_, held := ?_, sentListed := ?_, journaled := ?_,
                     spent := ?_, safe := ⟨?_, ?_, ?_⟩ }
  · intro name found isFound other isMember
    rcases inNew isMember with old | rfl
    · exact kept.unsent name found isFound other old
    · rintro rfl
      rw [byPermit, kept.not_pending (.inl (by rw [isClaim]; rfl))] at isFound
      cases isFound
  · intro other isMember
    rcases inNew isMember with old | rfl
    · exact kept.named other old
    · rw [byPermit]
      exact .inr ⟨transit.noReceipt, _, isClaim, transit.package⟩
  · intro name found isFound ahead other isMember same
    rcases inNew isMember with old | rfl
    · exact kept.held name found isFound ahead other old same
    · rw [byPermit] at same
      exact (transit.alone name found isFound same.symm ahead).elim
  · intro other isMember
    rcases inNew isMember with old | rfl
    · exact kept.sentListed other old
    · rw [byPermit]
      exact transit.isListed
  · intro other isMember
    rcases inNew isMember with old | rfl
    · exact kept.journaled other old
    · rw [byPermit]
      exact journaled
  · intro other isMember
    rcases inNew isMember with old | rfl
    · exact kept.spent other old
    · rw [byPermit]
      exact spent
  · rw [List.map_append, List.map_singleton, ← List.concat_eq_append]
    refine kept.safe.perIntent.concat ?_
    intro isMember
    obtain ⟨other, isOld, same⟩ := List.mem_map.mp isMember
    rw [byPermit] at same
    exact transit.unsent other isOld same
  · rw [List.map_append, List.map_singleton, ← List.concat_eq_append]
    refine kept.safe.perPermit.concat ?_
    intro isMember
    obtain ⟨other, isOld, same⟩ := List.mem_map.mp isMember
    rw [byPermit] at same
    exact transit.unspent other isOld same
  · intro before asked after split earlier isEarlier same
    rcases List.eq_nil_or_concat after with rfl | ⟨between, last, rfl⟩
    · obtain ⟨sameBefore, sameLast⟩ := List.append_inj' split rfl
      obtain rfl := List.singleton_inj.mp sameLast
      rw [sameTerminal, sameReconciled]
      rw [byPermit] at same
      rw [← sameBefore] at isEarlier
      exact transit.cleared earlier isEarlier same
    · rw [List.concat_eq_append, ← List.cons_append, ← List.append_assoc] at split
      obtain ⟨sameBefore, -⟩ := List.append_inj' split rfl
      exact kept.safe.cleared before asked between sameBefore earlier isEarlier same

end

end InTransit

end TreeOptions.Supervised
