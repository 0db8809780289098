import TreeOptions.Supervised.OutboxRuns

/-!
# What holds of the authority behind the permits

A permit is minted by the standing mandate, which the world numbers by its grant, or by the
mandate of one approval, which is consumed first. What is minted by a grant stays within the
orders it was granted for, and what a consumed approval minted is the only permit of its
intent (`AuthorityKept`). Each submit has a mint of its own, and so does each permit that is
on file (`Backed`). Each operation on the files keeps both.
-/

set_option autoImplicit false

namespace TreeOptions.Supervised

open Desk (SupervisedMandateV2 Reached)

/-! ## Mints -/

/-- The mint spent an order of this grant. -/
def Mint.fromGrant (number : ℕ) (mint : Mint) : Bool :=
  match mint.source with
  | .grant other _ => other = number
  | .approval _ => false

/-- The permits that were minted from one grant of `mandate.json`. -/
def mintedFrom (number : ℕ) (mints : List Mint) : ℕ :=
  mints.countP (Mint.fromGrant number)

/-- The approval that the mint consumed. -/
def Mint.approvalId (mint : Mint) : Option String :=
  match mint.source with
  | .grant _ _ => none
  | .approval mandate => some mandate.approvalId

/-- The approvals that permits were minted from. -/
def approvalIds (mints : List Mint) : List String :=
  mints.filterMap Mint.approvalId

/-- What the permit takes from the mandate it is minted from. -/
def Mint.Proper (mint : Mint) : Prop :=
  match mint.source with
  | .grant _ mandate =>
    mint.permit.mandateId = mandate.mandateId ∧ mint.permit.issuedAt < mandate.expiresAt
  | .approval mandate =>
    mint.permit.mandateId = entryMandateId mandate ∧
      mint.permit.intentId = mandate.intentId ∧ mint.permit.expiresAt ≤ mandate.expiresAt

/-- Two documents of one grant, with different numbers of orders used. -/
structure SameGrant (first second : SupervisedMandate) : Prop where
  mandateId : first.mandateId = second.mandateId
  maxOrders : first.maxOrders = second.maxOrders
  grantedAt : first.grantedAt = second.grantedAt
  expiresAt : first.expiresAt = second.expiresAt

/-- The permit names the standing mandate, which is active, or the consumed mandate of its
intent, which has not expired. -/
def Allows (files : SupervisedFiles) (now : ℤ) (permit : EffectPermit) : Prop :=
  (∃ mandate, files.mandate = some mandate ∧ files.mandateRevoked = none ∧
      ¬ mandate.ExpiredAt now ∧ permit.mandateId = mandate.mandateId) ∨
    ∃ mandate, files.entryMandateConsumed.get permit.intentId = some mandate ∧
      mandate.intentId = permit.intentId ∧ ¬ mandate.ExpiredAt now ∧
      permit.mandateId = entryMandateId mandate

/-- Nothing was halted when a submit was checked, and its mandate allowed it when it was
made. -/
structure Authorized (submission : Submission) : Prop where
  unhalted : submission.checked.halted = false
  allowed : Allows submission.called submission.submittedAt submission.permit

/-! ## The invariant -/

/-- The part of the world that authority is about. -/
structure AuthorityView where
  mandate : Option SupervisedMandate
  mandateRevoked : Option SupervisedMandate
  entryMandate : Directory String SupervisedMandateV2
  entryMandateConsumed : Directory String SupervisedMandateV2
  permit : Directory String EffectPermit
  submits : List Submission
  mints : List Mint
  grants : ℕ

def authorityView (world : SupervisedWorld) : AuthorityView where
  mandate := world.files.mandate
  mandateRevoked := world.files.mandateRevoked
  entryMandate := world.files.entryMandate
  entryMandateConsumed := world.files.entryMandateConsumed
  permit := world.files.permit
  submits := world.submits
  mints := world.mints
  grants := world.grants

/-- The mandate of one order is on file for the intent, consumed or not. -/
def Filed (view : AuthorityView) (intentId : String) (mandate : SupervisedMandateV2) : Prop :=
  view.entryMandate.get intentId = some mandate ∨
    view.entryMandateConsumed.get intentId = some mandate

/-- What every call keeps of the mandates and of what they minted. -/
structure AuthorityKept (view : AuthorityView) (clock : ℤ) : Prop where
  proper : ∀ mint ∈ view.mints, mint.Proper
  numbered : ∀ permit number mandate, ⟨permit, .grant number mandate⟩ ∈ view.mints →
    number ≤ view.grants
  standing : ∀ permit mandate current, ⟨permit, .grant view.grants mandate⟩ ∈ view.mints →
    view.mandate = some current → SameGrant mandate current
  earlier : ∀ permit number mandate current, ⟨permit, .grant number mandate⟩ ∈ view.mints →
    number < view.grants → view.mandate = some current → mandate.expiresAt ≤ current.grantedAt
  ended : view.mandate = none → view.mandateRevoked = none →
    ∀ permit number mandate, ⟨permit, .grant number mandate⟩ ∈ view.mints →
      mandate.expiresAt ≤ clock
  spent : ∀ current, view.mandate = some current →
    mintedFrom view.grants view.mints ≤ current.ordersUsed
  budget : ∀ permit number mandate, ⟨permit, .grant number mandate⟩ ∈ view.mints →
    mintedFrom number view.mints ≤ mandate.maxOrders
  filed : ∀ intentId mandate, Filed view intentId mandate →
    entryIntentOk intentId ∧ mandate.intentId = intentId
  approved : ∀ permit mandate, ⟨permit, .approval mandate⟩ ∈ view.mints →
    view.entryMandateConsumed.get permit.intentId = some mandate
  keys : ∀ first second one two, Filed view first one → Filed view second two →
    one.approvalId = two.approvalId → first = second
  approvals : (approvalIds view.mints).Nodup
  authorized : ∀ submission ∈ view.submits, Authorized submission

/-- A permit on file has a mint among these, and none of `mandate.json` if its intent has a
consumed mandate. -/
def OnFile (view : AuthorityView) (mints : List Mint) : Prop :=
  ∀ permitId permit, view.permit.get permitId = some permit →
    permit.permitId = permitId ∧ ∃ mint ∈ mints, mint.permit = permit ∧
      ∀ number mandate, mint.source = .grant number mandate →
        view.entryMandateConsumed.get permit.intentId = none

/-- Each submit has a mint of its own, what is carried has, and each permit on file has. -/
def Backed (view : AuthorityView) (carried : List Mint) : Prop :=
  ∃ used left : List Mint, used.map Mint.permit = view.submits.map Submission.permit ∧
    (used ++ carried ++ left).Subperm view.mints ∧ OnFile view left

theorem authorityKept_empty (clock : ℤ) : AuthorityKept (authorityView emptyWorld) clock where
  proper _ isMember := nomatch isMember
  numbered _ _ _ isMember := nomatch isMember
  standing _ _ _ isMember := nomatch isMember
  earlier _ _ _ _ isMember := nomatch isMember
  ended _ _ _ _ _ isMember := nomatch isMember
  spent _ isMandate := nomatch isMandate
  budget _ _ _ isMember := nomatch isMember
  filed _ _ isFiled := nomatch isFiled
  approved _ _ isMember := nomatch isMember
  keys _ _ _ _ isFiled := nomatch isFiled
  approvals := List.nodup_nil
  authorized _ isMember := nomatch isMember

theorem backed_empty : Backed (authorityView emptyWorld) [] :=
  ⟨[], [], rfl, List.Subperm.refl _, fun _ _ found => nomatch found⟩

/-! ## Counting mints -/

section

variable {mints : List Mint} {permit : EffectPermit} {number : ℕ}

theorem mintedFrom_append_grant (other : ℕ) (mandate : SupervisedMandate) :
    mintedFrom number (mints ++ [⟨permit, .grant other mandate⟩]) =
      mintedFrom number mints + if other = number then 1 else 0 := by
  simp [mintedFrom, Mint.fromGrant, List.countP_append, List.countP_cons]

theorem mintedFrom_append_approval (mandate : SupervisedMandateV2) :
    mintedFrom number (mints ++ [⟨permit, .approval mandate⟩]) = mintedFrom number mints := by
  simp [mintedFrom, Mint.fromGrant, List.countP_append]

theorem mintedFrom_eq_zero
    (none : ∀ permit mandate, ⟨permit, .grant number mandate⟩ ∉ mints) :
    mintedFrom number mints = 0 := by
  rw [mintedFrom, List.countP_eq_zero]
  rintro ⟨permit, source⟩ isMember from_
  cases source with
  | grant other mandate =>
    obtain rfl : other = number := of_decide_eq_true from_
    exact none permit mandate isMember
  | approval mandate => cases from_

theorem approvalIds_append_grant (other : ℕ) (mandate : SupervisedMandate) :
    approvalIds (mints ++ [⟨permit, .grant other mandate⟩]) = approvalIds mints := by
  simp [approvalIds, Mint.approvalId]

theorem approvalIds_append_approval (mandate : SupervisedMandateV2) :
    approvalIds (mints ++ [⟨permit, .approval mandate⟩]) =
      approvalIds mints ++ [mandate.approvalId] := by
  simp [approvalIds, Mint.approvalId]

theorem mem_approvalIds {approvalId : String} :
    approvalId ∈ approvalIds mints ↔
      ∃ permit mandate, ⟨permit, .approval mandate⟩ ∈ mints ∧ mandate.approvalId = approvalId := by
  rw [approvalIds, List.mem_filterMap]
  constructor
  · rintro ⟨⟨permit, source⟩, isMember, same⟩
    cases source with
    | grant other mandate => cases same
    | approval mandate => exact ⟨permit, mandate, isMember, Option.some.inj same⟩
  · rintro ⟨permit, mandate, isMember, rfl⟩
    exact ⟨_, isMember, rfl⟩

end

/-! ## One operation on the mandates -/

namespace AuthorityKept

variable {view : AuthorityView} {clock now : ℤ} {intentId : String}

theorem later (kept : AuthorityKept view clock) (passes : clock ≤ now) :
    AuthorityKept view now :=
  { kept with
    ended := fun none unrevoked permit number mandate isMember =>
      (kept.ended none unrevoked permit number mandate isMember).trans passes }

variable {current : SupervisedMandate} {permit : EffectPermit}

section

variable (kept : AuthorityKept view clock)

include kept

theorem expires_le (isMandate : view.mandate = some current) {number : ℕ}
    {mandate : SupervisedMandate} (isMember : ⟨permit, .grant number mandate⟩ ∈ view.mints) :
    mandate.expiresAt ≤ current.expiresAt := by
  rcases (kept.numbered permit number mandate isMember).lt_or_eq with before | same
  · exact (kept.earlier permit number mandate current isMember before isMandate).trans
      current.granted_lt.le
  · rw [same] at isMember
    exact (kept.standing permit mandate current isMember isMandate).expiresAt.le

/-- The permits on file have no part in it. -/
theorem permits (permits : Directory String EffectPermit) :
    AuthorityKept { view with permit := permits } clock :=
  { kept with }

theorem asked {submission : Submission} (authorized : Authorized submission) :
    AuthorityKept { view with submits := view.submits ++ [submission] } clock := by
  refine { kept with authorized := ?_ }
  exact List.forall_mem_append.mpr ⟨kept.authorized, List.forall_mem_singleton.mpr authorized⟩

theorem madeWay (isMandate : view.mandate = some current) (expired : current.expiresAt ≤ clock) :
    AuthorityKept { view with mandate := none } clock :=
  { kept with
    standing := fun _ _ _ _ found => nomatch found
    earlier := fun _ _ _ _ _ _ found => nomatch found
    spent := fun _ found => nomatch found
    ended := fun _ _ _ _ _ isMember => (kept.expires_le isMandate isMember).trans expired }

theorem granted (absent : view.mandate = none) (unrevoked : view.mandateRevoked = none)
    {mandate : SupervisedMandate} (grantedNow : mandate.grantedAt = clock) :
    AuthorityKept { view with mandate := some mandate, grants := view.grants + 1 } clock := by
  have unminted : ∀ permit other, ⟨permit, .grant (view.grants + 1) other⟩ ∉ view.mints := by
    intro permit other isMember
    exact Nat.not_succ_le_self _ (kept.numbered permit _ other isMember)
  refine { kept with numbered := ?_, standing := ?_, earlier := ?_, ended := ?_, spent := ?_ }
  · intro permit number other isMember
    exact Nat.le_succ_of_le (kept.numbered permit number other isMember)
  · intro permit other current isMember
    exact absurd isMember (unminted permit other)
  · intro permit number other current isMember _ isCurrent
    cases isCurrent
    rw [grantedNow]
    exact kept.ended absent unrevoked permit number other isMember
  · intro none
    cases none
  · intro current _
    rw [mintedFrom_eq_zero unminted]
    exact Nat.zero_le _

theorem tombstone (mandate : SupervisedMandate) :
    AuthorityKept { view with mandateRevoked := some mandate } clock :=
  { kept with ended := fun _ unrevoked => nomatch unrevoked }

theorem removed (revoked : view.mandateRevoked ≠ none) :
    AuthorityKept { view with mandate := none } clock :=
  { kept with
    standing := fun _ _ _ _ found => nomatch found
    earlier := fun _ _ _ _ _ _ found => nomatch found
    spent := fun _ found => nomatch found
    ended := fun _ unrevoked => absurd unrevoked revoked }

theorem orderSpent (isMandate : view.mandate = some current)
    (spare : current.ordersUsed < current.maxOrders) :
    AuthorityKept
      { view with
        mandate := some
          { current with ordersUsed := current.ordersUsed + 1, used_le := spare } } clock := by
  refine { kept with standing := ?_, earlier := ?_, ended := ?_, spent := ?_ }
  · intro permit mandate found isMember isFound
    cases isFound
    exact ⟨(kept.standing permit mandate current isMember isMandate).mandateId,
      (kept.standing permit mandate current isMember isMandate).maxOrders,
      (kept.standing permit mandate current isMember isMandate).grantedAt,
      (kept.standing permit mandate current isMember isMandate).expiresAt⟩
  · intro permit number mandate found isMember before isFound
    cases isFound
    exact kept.earlier permit number mandate current isMember before isMandate
  · intro none
    cases none
  · intro found isFound
    cases isFound
    exact Nat.le_succ_of_le (kept.spent current isMandate)

theorem mintedByGrant (isMandate : view.mandate = some current)
    (spent : mintedFrom view.grants view.mints < current.ordersUsed)
    (names : permit.mandateId = current.mandateId) (active : permit.issuedAt < current.expiresAt) :
    AuthorityKept
      { view with mints := view.mints ++ [⟨permit, .grant view.grants current⟩] } clock := by
  refine {
    proper := ?_, numbered := ?_, standing := ?_, earlier := ?_, ended := ?_, spent := ?_,
    budget := ?_, filed := kept.filed, approved := ?_, keys := kept.keys, approvals := ?_,
    authorized := kept.authorized }
  · exact List.forall_mem_append.mpr ⟨kept.proper, List.forall_mem_singleton.mpr ⟨names, active⟩⟩
  · intro other number mandate isMember
    rcases List.mem_append.mp isMember with old | new
    · exact kept.numbered other number mandate old
    · cases List.mem_singleton.mp new
      exact le_refl _
  · intro other mandate found isMember isFound
    rcases List.mem_append.mp isMember with old | new
    · exact kept.standing other mandate found old isFound
    · cases List.mem_singleton.mp new
      cases isFound.symm.trans isMandate
      exact ⟨rfl, rfl, rfl, rfl⟩
  · intro other number mandate found isMember before isFound
    rcases List.mem_append.mp isMember with old | new
    · exact kept.earlier other number mandate found old before isFound
    · cases List.mem_singleton.mp new
      exact absurd before (Nat.lt_irrefl _)
  · intro none
    rw [show view.mandate = _ from isMandate] at none
    cases none
  · intro found isFound
    cases isFound.symm.trans isMandate
    rw [mintedFrom_append_grant, if_pos rfl]
    exact spent
  · intro other number mandate isMember
    rw [mintedFrom_append_grant]
    rcases List.mem_append.mp isMember with old | new
    · split
      case isFalse => exact kept.budget other number mandate old
      case isTrue same =>
        rw [← same] at old ⊢
        rw [(kept.standing other mandate current old isMandate).maxOrders]
        exact (Nat.succ_le_of_lt spent).trans current.used_le
    · cases List.mem_singleton.mp new
      rw [if_pos rfl]
      exact (Nat.succ_le_of_lt spent).trans current.used_le
  · intro other mandate isMember
    rcases List.mem_append.mp isMember with old | new
    · exact kept.approved other mandate old
    · cases List.mem_singleton.mp new
  · rw [approvalIds_append_grant]
    exact kept.approvals

end

/-! ## One operation on the mandates of one order -/

variable {mandate : SupervisedMandateV2}

theorem stored (kept : AuthorityKept view clock) (nameable : entryIntentOk intentId)
    (names : mandate.intentId = intentId)
    (own : ∀ other found, Filed view other found → found.approvalId = mandate.approvalId →
      other = intentId) :
    AuthorityKept
      { view with entryMandate := view.entryMandate.write intentId mandate } clock := by
  have filed : ∀ other found,
      Filed { view with entryMandate := view.entryMandate.write intentId mandate } other found →
      other = intentId ∧ found = mandate ∨ Filed view other found := by
    rintro other found (pending | consumed)
    · rcases Directory.of_get_write pending with ⟨rfl, rfl⟩ | pending
      · exact .inl ⟨rfl, rfl⟩
      · exact .inr (.inl pending)
    · exact .inr (.inr consumed)
  refine { kept with filed := ?_, keys := ?_ }
  · intro other found isFiled
    rcases filed other found isFiled with ⟨rfl, rfl⟩ | before
    · exact ⟨nameable, names⟩
    · exact kept.filed other found before
  · intro first second one two isFirst isSecond same
    rcases filed first one isFirst with ⟨rfl, rfl⟩ | before
    · rcases filed second two isSecond with ⟨rfl, rfl⟩ | other
      · rfl
      · exact (own second two other same.symm).symm
    · rcases filed second two isSecond with ⟨rfl, rfl⟩ | other
      · exact own first one before same
      · exact kept.keys first second one two before other same

theorem filed_of_removed {other : String}
    (isFiled : Filed { view with entryMandate := view.entryMandate.remove intentId } other mandate) :
    Filed view other mandate := by
  rcases isFiled with pending | consumed
  · exact .inl (Directory.of_get_remove pending).2
  · exact .inr consumed

theorem retired (intentId : String) (kept : AuthorityKept view clock) :
    AuthorityKept { view with entryMandate := view.entryMandate.remove intentId } clock :=
  { kept with
    filed := fun other found isFiled => kept.filed other found (filed_of_removed isFiled)
    keys := fun first second one two isFirst isSecond =>
      kept.keys first second one two (filed_of_removed isFirst) (filed_of_removed isSecond) }

theorem unminted (kept : AuthorityKept view clock)
    (unconsumed : view.entryMandateConsumed.get intentId = none) :
    ∀ permit mandate, ⟨permit, .approval mandate⟩ ∈ view.mints → permit.intentId ≠ intentId := by
  rintro permit mandate isMember rfl
  rw [kept.approved permit mandate isMember] at unconsumed
  cases unconsumed

theorem consumed (kept : AuthorityKept view clock)
    (pending : view.entryMandate.get intentId = some mandate)
    (unconsumed : view.entryMandateConsumed.get intentId = none) :
    AuthorityKept
      { view with
        entryMandate := view.entryMandate.remove intentId
        entryMandateConsumed := view.entryMandateConsumed.write intentId mandate } clock := by
  have filed : ∀ other found,
      Filed { view with
        entryMandate := view.entryMandate.remove intentId
        entryMandateConsumed := view.entryMandateConsumed.write intentId mandate } other found →
      Filed view other found := by
    rintro other found (still | consumed)
    · exact .inl (Directory.of_get_remove still).2
    · rcases Directory.of_get_write consumed with ⟨rfl, rfl⟩ | consumed
      · exact .inl pending
      · exact .inr consumed
  refine { kept with filed := ?_, approved := ?_, keys := ?_ }
  · exact fun other found isFiled => kept.filed other found (filed other found isFiled)
  · intro permit found isMember
    rw [Directory.get_write, if_neg (kept.unminted unconsumed permit found isMember)]
    exact kept.approved permit found isMember
  · intro first second one two isFirst isSecond
    exact kept.keys first second one two (filed first one isFirst) (filed second two isSecond)

theorem mintedByApproval (kept : AuthorityKept view clock)
    (isConsumed : view.entryMandateConsumed.get permit.intentId = some mandate)
    (unminted : ∀ other found, ⟨other, .approval found⟩ ∈ view.mints →
      other.intentId ≠ permit.intentId) (names : permit.mandateId = entryMandateId mandate)
    (expires : permit.expiresAt ≤ mandate.expiresAt) :
    AuthorityKept { view with mints := view.mints ++ [⟨permit, .approval mandate⟩] } clock := by
  have grants : ∀ other number found,
      ⟨other, .grant number found⟩ ∈ view.mints ++ [⟨permit, .approval mandate⟩] →
      ⟨other, .grant number found⟩ ∈ view.mints := by
    intro other number found isMember
    rcases List.mem_append.mp isMember with old | new
    · exact old
    · cases List.mem_singleton.mp new
  refine {
    proper := ?_
    numbered := fun other number found isMember =>
      kept.numbered other number found (grants other number found isMember)
    standing := fun other found current isMember =>
      kept.standing other found current (grants other _ found isMember)
    earlier := fun other number found current isMember =>
      kept.earlier other number found current (grants other number found isMember)
    ended := fun none unrevoked other number found isMember =>
      kept.ended none unrevoked other number found (grants other number found isMember)
    spent := ?_, budget := ?_, filed := kept.filed, approved := ?_, keys := kept.keys,
    approvals := ?_, authorized := kept.authorized }
  · exact List.forall_mem_append.mpr ⟨kept.proper,
      List.forall_mem_singleton.mpr ⟨names, (kept.filed _ _ (.inr isConsumed)).2.symm, expires⟩⟩
  · intro current isMandate
    rw [mintedFrom_append_approval]
    exact kept.spent current isMandate
  · intro other number found isMember
    rw [mintedFrom_append_approval]
    exact kept.budget other number found (grants other number found isMember)
  · intro other found isMember
    rcases List.mem_append.mp isMember with old | new
    · exact kept.approved other found old
    · cases List.mem_singleton.mp new
      exact isConsumed
  · rw [approvalIds_append_approval, List.nodup_append]
    refine ⟨kept.approvals, List.nodup_singleton _, ?_⟩
    rintro approvalId isMember _ isNew rfl
    obtain rfl := List.mem_singleton.mp isNew
    obtain ⟨other, found, isMint, same⟩ := mem_approvalIds.mp isMember
    exact unminted other found isMint (kept.keys _ _ found mandate
      (.inr (kept.approved other found isMint)) (.inr isConsumed) same)

end AuthorityKept

/-! ## One operation on the permits -/

namespace Backed

variable {view : AuthorityView} {mint : Mint} {intentId : String}

theorem minted (mint : Mint) (backed : Backed view [])
    (unconsumed : ∀ number mandate, mint.source = .grant number mandate →
      view.entryMandateConsumed.get mint.permit.intentId = none) :
    Backed
      { view with
        permit := view.permit.write mint.permit.permitId mint.permit
        mints := view.mints ++ [mint] } [] := by
  obtain ⟨used, left, each, among, onFile⟩ := backed
  refine ⟨used, mint :: left, each, ?_, ?_⟩
  · refine (List.Perm.subperm ?_).trans ((List.subperm_append_right [mint]).mpr among)
    rw [List.append_nil, List.append_assoc]
    exact (List.perm_append_singleton mint left).symm.append_left used
  · intro permitId permit isPermit
    rcases Directory.of_get_write isPermit with ⟨same, rfl⟩ | isPermit
    · exact ⟨same.symm, mint, List.mem_cons_self, rfl, unconsumed⟩
    · obtain ⟨named, own, isMember, isOwn, source⟩ := onFile permitId permit isPermit
      exact ⟨named, own, List.mem_cons_of_mem mint isMember, isOwn, source⟩

theorem consumed (backed : Backed view []) (mandate : SupervisedMandateV2)
    (unissued : ∀ permitId permit, view.permit.get permitId = some permit →
      permit.intentId ≠ intentId) :
    Backed
      { view with
        entryMandate := view.entryMandate.remove intentId
        entryMandateConsumed := view.entryMandateConsumed.write intentId mandate } [] := by
  obtain ⟨used, left, each, among, onFile⟩ := backed
  refine ⟨used, left, each, among, ?_⟩
  intro permitId permit isPermit
  obtain ⟨named, own, isMember, isOwn, source⟩ := onFile permitId permit isPermit
  refine ⟨named, own, isMember, isOwn, fun number granted isGrant => ?_⟩
  rw [Directory.get_write, if_neg (unissued permitId permit isPermit)]
  exact source number granted isGrant

theorem taken (backed : Backed view []) {permitId : String} {permit : EffectPermit}
    (isPermit : view.permit.get permitId = some permit) :
    ∃ mint ∈ view.mints, mint.permit = permit ∧
      (∀ number mandate, mint.source = .grant number mandate →
        view.entryMandateConsumed.get permit.intentId = none) ∧
      Backed { view with permit := view.permit.remove permitId } [mint] := by
  classical
  obtain ⟨used, left, each, among, onFile⟩ := backed
  obtain ⟨named, own, isMember, isOwn, source⟩ := onFile permitId permit isPermit
  refine ⟨own, among.subset (List.mem_append_right _ isMember), isOwn, source, used,
    left.erase own, each, ?_, ?_⟩
  · refine (List.Perm.subperm ?_).trans among
    rw [List.append_nil, List.append_assoc]
    exact (List.perm_cons_erase isMember).symm.append_left used
  · intro other found isFound
    obtain ⟨differs, before⟩ := Directory.of_get_remove isFound
    obtain ⟨otherNamed, mint, isMint, rfl, otherSource⟩ := onFile other found before
    refine ⟨otherNamed, mint, (List.mem_erase_of_ne ?_).mpr isMint, rfl, otherSource⟩
    rintro rfl
    exact differs (otherNamed.symm.trans ((congrArg EffectPermit.permitId isOwn).trans named))

/-- The broker was not asked for what is carried. -/
theorem dropped (backed : Backed view [mint]) : Backed view [] := by
  obtain ⟨used, left, each, among, onFile⟩ := backed
  refine ⟨used, left, each, ?_, onFile⟩
  rw [List.append_nil]
  exact ((List.sublist_append_left used [mint]).append_right left).subperm.trans among

/-- The broker was asked for what is carried. -/
theorem submitted (backed : Backed view [mint]) {submission : Submission}
    (own : mint.permit = submission.permit) :
    Backed { view with submits := view.submits ++ [submission] } [] := by
  obtain ⟨used, left, each, among, onFile⟩ := backed
  refine ⟨used ++ [mint], left, ?_, ?_, onFile⟩
  · rw [List.map_append, List.map_append, each, List.map_singleton, List.map_singleton, own]
  · rw [List.append_nil]
    exact among

end Backed

end TreeOptions.Supervised
