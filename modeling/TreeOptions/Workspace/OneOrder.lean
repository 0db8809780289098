import TreeOptions.Workspace.Reservations

/-!
# One order for each deployment

A deployment that waits for its review or for its execution has made no call, and once it is
claimed it never waits again. The one call that a claim leads to is therefore the only one of its
deployment (`Once`). A halt releases a reservation only while the deployment waits, and makes an
end of waiting, so what is released makes no call later. The file of a halt is never removed, and a
claim looks for it.
-/

set_option autoImplicit false

namespace TreeOptions.Workspace

open Checked Decimal

/-! ## What is written over a record -/

/-- The deployment waits for its review or for its execution. -/
def Deployment.Waiting (record : Deployment) : Prop :=
  record.status = .reviewRequired ∨ record.status = .staged

/-- An approval of the request of a deployment: one share, at a limit that the request covers. -/
structure ApprovalOf (record : Deployment) (approval : Approval) : Prop where
  request : approval.requestSha256 = record.requestSha256
  quantity : approval.quantity = 1
  limit : 0 < approval.limit ∧ approval.limit ≤ record.request.maxGrossNotional

structure Rewrites (record changed : Deployment) : Prop where
  deploymentId : changed.deploymentId = record.deploymentId
  request : changed.request = record.request
  requestSha256 : changed.requestSha256 = record.requestSha256
  approval : ∀ approval, changed.approval = some approval →
    record.approval = some approval ∨ ApprovalOf changed approval
  onward : ¬ record.Waiting → ¬ changed.Waiting
  released : record.reservationReleased = true → changed.reservationReleased = true
  kept : ¬ record.Waiting → changed.reservationReleased = record.reservationReleased
  ended : changed.Waiting → changed.reservationReleased = record.reservationReleased

/-- What a section does to the deployments and the halts. -/
inductive Change (files next : Files) : Prop where
  | none (deployments : next.deployments = files.deployments) (halts : next.halts = files.halts)
  | halt (deploymentId : String) (now : ℤ) (deployments : next.deployments = files.deployments)
      (halts : next.halts = files.halts.write deploymentId now)
  | added (record : Deployment) (fresh : files.deployments.get record.deploymentId = none)
      (unapproved : record.approval = Option.none) (unreleased : record.reservationReleased = false)
      (put : next = files.put record)
  | rewritten (record changed : Deployment)
      (found : files.deployments.get record.deploymentId = some record)
      (rewrites : Rewrites record changed) (put : next = files.put changed)

section Sections

variable {hashes : Hashes} {files next : Files} {deploymentId : String}

theorem createAllocation_change {idempotencyKey : String} {accountAlias : Option String}
    (created : createAllocation hashes files idempotencyKey accountAlias = .ok next) :
    Change files next := by
  simp only [createAllocation, refuse_bind_eq_ok] at created
  obtain ⟨_, _, created⟩ := created
  split at created
  case h_1 =>
    obtain ⟨_, same⟩ := refuse_bind_eq_ok.mp created
    cases same
    exact .none rfl rfl
  case h_2 =>
    cases created
    exact .none rfl rfl

theorem bindSleeve_change {planId sleeveId accountAlias : String}
    (bound : bindSleeve hashes files planId sleeveId accountAlias = .ok next) :
    Change files next := by
  obtain ⟨_, bound⟩ := refuse_bind_eq_ok.mp bound
  split at bound
  case h_1 => cases bound
  case h_2 =>
    obtain ⟨view, _, bound⟩ := bind_eq_ok.mp bound
    obtain ⟨_, bound⟩ := refuse_bind_eq_ok.mp bound
    split at bound
    case h_1 selected _ =>
      split at bound
      case isTrue =>
        cases bound
        exact .none rfl rfl
      case isFalse =>
        obtain ⟨_, made⟩ := refuse_bind_eq_ok.mp bound
        cases made
        exact .none rfl rfl
    case h_2 => cases bound

variable {now : ℤ}

theorem propose_change {request : DeploymentRequest}
    (proposed : propose hashes files request now = .ok next) : Change files next := by
  obtain ⟨_, proposed⟩ := refuse_bind_eq_ok.mp proposed
  cases found : files.deployments.get (hashes.key request.idempotencyKey) with
  | some record =>
    rw [found] at proposed
    obtain ⟨_, _, proposed⟩ := bind_eq_ok.mp proposed
    obtain ⟨_, same⟩ := refuse_bind_eq_ok.mp proposed
    cases same
    exact .none rfl rfl
  | none =>
    rw [found] at proposed
    obtain ⟨_, _, made⟩ := bind_eq_ok.mp proposed
    cases made
    exact .added _ found rfl rfl rfl

theorem haltFile_change (halted : haltFile hashes files deploymentId now = .ok next) :
    Change files next ∧ next.plan = files.plan ∧ next.deployments = files.deployments := by
  obtain ⟨_, _, made⟩ := bind_eq_ok.mp halted
  cases made
  exact ⟨.halt deploymentId now rfl rfl, rfl, rfl⟩

/-- Records are kept under their own ids. -/
def Named (files : Files) : Prop :=
  ∀ deploymentId record, files.deployments.get deploymentId = some record →
    record.deploymentId = deploymentId

theorem haltRecord_change (named : Named files)
    (halted : haltRecord hashes files deploymentId = .ok next) :
    ∃ record changed, files.deployments.get record.deploymentId = some record ∧
      Rewrites record changed ∧ next = files.put changed := by
  obtain ⟨record, read, made⟩ := bind_eq_ok.mp halted
  cases made
  have found := read_eq_ok read
  refine ⟨record, _, by rw [named deploymentId record found, found], ?_, rfl⟩
  refine ⟨rfl, rfl, rfl, fun approval same => .inl same, ?_, ?_, ?_, ?_⟩
  · rintro _ (review | staged)
    · cases review
    · cases staged
  · intro released
    dsimp only
    rw [released, ite_self]
  · intro concluded
    dsimp only
    rw [if_neg]
    rintro ⟨waits, _⟩
    exact concluded waits
  · rintro (review | staged)
    · cases review
    · cases staged

theorem stageCanary_change (named : Named files) {outside : Outside} {symbol : String}
    {limit : Option ℚ} {operatorApproved : Bool} {approvedAt : ℤ}
    (staged : stageCanary hashes files outside deploymentId symbol limit operatorApproved approvedAt
      now = .ok next) :
    next = files ∨ ∃ record changed, files.deployments.get record.deploymentId = some record ∧
      Rewrites record changed ∧ next = files.put changed := by
  obtain ⟨_, staged⟩ := refuse_bind_eq_ok.mp staged
  obtain ⟨record, read, staged⟩ := bind_eq_ok.mp staged
  have found := read_eq_ok read
  obtain ⟨_, _, staged⟩ := bind_eq_ok.mp staged
  simp only [refuse_bind_eq_ok] at staged
  obtain ⟨_, _, _, staged⟩ := staged
  cases limit with
  | none => cases staged
  | some limit =>
    simp only [refuse_bind_eq_ok, not_not] at staged
    obtain ⟨bounds, _, staged⟩ := staged
    cases approved : record.approval with
    | some approval =>
      rw [approved] at staged
      simp only [refuse_bind_eq_ok] at staged
      obtain ⟨_, _, same⟩ := staged
      cases same
      exact .inl rfl
    | none =>
      rw [approved] at staged
      obtain ⟨reviewed, made⟩ := refuse_bind_eq_ok.mp staged
      cases made
      refine .inr ⟨record, _, by rw [named deploymentId record found, found], ?_, rfl⟩
      refine ⟨rfl, rfl, rfl, ?_, ?_, fun released => released, fun _ => rfl, fun _ => rfl⟩
      · intro approval same
        cases same
        exact .inr ⟨rfl, rfl, bounds⟩
      · intro concluded
        exact absurd (.inl (not_not.mp reviewed)) concluded

/-- What a claim finds: a staged record, its approval that has not expired, and no halt. -/
structure Claims (files : Files) (deploymentId : String) (now : ℤ) (execution : Execution) :
    Prop where
  own : execution.deploymentId = deploymentId
  found : files.deployments.get deploymentId = some execution.staged
  staged : execution.staged.status = .staged
  unhalted : files.halts.get deploymentId = none
  approval : execution.staged.approval = some execution.approval
  approvedAt : execution.approval.approvedAt ≤ now
  unexpired : now < execution.approval.expiresAt
  claimed : execution.claimed = { execution.staged with
    status := .recoveryRequired
    executionStatus := .claimedReconciliationRequired }
  claimedAt : execution.claimedAt = now
  called : execution.called = false

theorem claim_eq_ok {outside : Outside} {runtime : Runtime} {execution : Execution}
    (claimed : claim hashes files outside deploymentId runtime now = .ok (next, execution)) :
    Claims files deploymentId now execution ∧ next = files.put execution.claimed := by
  obtain ⟨record, read, claimed⟩ := bind_eq_ok.mp claimed
  have found := read_eq_ok read
  obtain ⟨waits, claimed⟩ := refuse_bind_eq_ok.mp claimed
  rw [not_or, not_not, Bool.not_eq_true, Option.isSome_eq_false_iff, Option.isNone_iff_eq_none]
    at waits
  obtain ⟨entry, _, claimed⟩ := bind_eq_ok.mp claimed
  obtain ⟨_, claimed⟩ := refuse_bind_eq_ok.mp claimed
  cases approved : record.approval with
  | none =>
    rw [approved] at claimed
    cases claimed
  | some approval =>
    rw [approved] at claimed
    simp only [refuse_bind_eq_ok] at claimed
    obtain ⟨_, _, claimed⟩ := claimed
    obtain ⟨binding, _, claimed⟩ := bind_eq_ok.mp claimed
    simp only [refuse_bind_eq_ok, not_not] at claimed
    obtain ⟨_, current, _, made⟩ := claimed
    cases made
    refine ⟨⟨rfl, found, waits.1, waits.2, approved, current.1, current.2, ?_, rfl, rfl⟩, rfl⟩
    dsimp only
    rw [approved]

/-- What a call of the runtime is made with. -/
structure Calls (execution : Execution) (now : ℤ) (call : CanaryCall) : Prop where
  made : call.execution = execution
  symbol : call.symbol = execution.approval.symbol
  quantity : call.quantity = execution.approval.quantity
  limit : call.limit = execution.approval.limit
  at_ : call.at_ = now
  left : shiftInstant now 60 ≤ execution.approval.expiresAt

theorem callCanary_eq_ok {execution : Execution} {ready granted : Bool} {call : CanaryCall}
    (called : callCanary execution ready granted now = .ok call) : Calls execution now call := by
  simp only [callCanary, refuse_bind_eq_ok] at called
  obtain ⟨_, left, _, _, made⟩ := called
  cases made
  refine ⟨rfl, rfl, rfl, rfl, rfl, ?_⟩
  rw [shiftInstant]
  by_cases later : 0 ≤ execution.approval.expiresAt - now
  · rw [Int.tdiv_eq_ediv_of_nonneg later] at left
    omega
  · -- what is left is truncated towards zero
    have opposite : Int.tdiv (execution.approval.expiresAt - now) 1000000 =
        -((now - execution.approval.expiresAt) / 1000000) := by
      rw [← Int.tdiv_eq_ediv_of_nonneg (by omega), ← Int.neg_tdiv, neg_sub]
    omega

end Sections

/-! ## The invariant -/

def CanaryCall.deploymentId (call : CanaryCall) : String :=
  call.execution.deploymentId

/-- An execution that claimed a staged deployment on an approval of its own request, which had not
expired. -/
structure Proper (execution : Execution) : Prop where
  staged : execution.staged.status = .staged
  approval : execution.staged.approval = some execution.approval
  approved : ApprovalOf execution.staged execution.approval
  approvedAt : execution.approval.approvedAt ≤ execution.claimedAt
  unexpired : execution.claimedAt < execution.approval.expiresAt
  request : execution.claimed.request = execution.staged.request
  sha256 : execution.claimed.requestSha256 = execution.staged.requestSha256
  sameApproval : execution.claimed.approval = some execution.approval
  status : execution.claimed.status = .recoveryRequired
  unreleased : execution.claimed.reservationReleased = false

/-- A call of the runtime for a proper execution, with the order that was approved and a minute
before the approval expires. -/
structure ProperCall (call : CanaryCall) : Prop where
  execution : Proper call.execution
  symbol : call.symbol = call.execution.approval.symbol
  quantity : call.quantity = call.execution.approval.quantity
  limit : call.limit = call.execution.approval.limit
  claimedAt : call.execution.claimedAt ≤ call.at_
  left : shiftInstant call.at_ 60 ≤ call.execution.approval.expiresAt

structure Once (state : State) : Prop where
  funded : Funded state.files
  named : Named state.files
  approved : ∀ deploymentId record approval,
    state.files.deployments.get deploymentId = some record → record.approval = some approval →
    ApprovalOf record approval
  unreleased : ∀ deploymentId record, state.files.deployments.get deploymentId = some record →
    record.Waiting → record.reservationReleased = false
  running : ∀ execution, state.running = some execution → Proper execution ∧
    execution.claimed.deploymentId = execution.deploymentId ∧
    state.files.deployments.get execution.deploymentId = some execution.claimed ∧
    execution.claimedAt ≤ state.clock ∧
    (execution.called = false →
      ∀ call ∈ state.calls, call.deploymentId ≠ execution.deploymentId)
  called : ∀ call ∈ state.calls, ProperCall call ∧
    ∃ record, state.files.deployments.get call.deploymentId = some record ∧
      record.request = call.execution.staged.request ∧ ¬ record.Waiting ∧
      record.reservationReleased = false
  once : (state.calls.map CanaryCall.deploymentId).Nodup

namespace Once

variable {hashes : Hashes} {state next : State}

theorem initially (clock : ℤ) : Once ⟨Files.empty, clock, none, [], [], []⟩ := by
  refine ⟨Funded.initially, ?_, ?_, ?_, ?_, ?_, List.nodup_nil⟩
  · intro deploymentId record found
    cases found
  · intro deploymentId record approval found
    cases found
  · intro deploymentId record found
    cases found
  · intro execution running
    cases running
  · intro call member
    cases member

section

variable (before : Once state)

include before

/-- The plan and the halts are not looked at. -/
theorem of_deployments {files : Files} (funded : Funded files)
    (same : files.deployments = state.files.deployments) : Once { state with files } := by
  refine ⟨funded, ?_, ?_, ?_, ?_, ?_, before.once⟩
  all_goals
    simp only [Named, same]
  · exact before.named
  · exact before.approved
  · exact before.unreleased
  · exact before.running
  · exact before.called

/-- A new deployment has no calls. -/
theorem of_added (free : state.running = none) {record : Deployment}
    (fresh : state.files.deployments.get record.deploymentId = none)
    (unapproved : record.approval = none) (unreleased : record.reservationReleased = false)
    (funded : Funded (state.files.put record)) :
    Once { state with files := state.files.put record } := by
  refine ⟨funded, ?_, ?_, ?_, ?_, ?_, before.once⟩
  · intro deploymentId other found
    rw [get_put] at found
    split at found
    case isTrue same =>
      cases found
      exact same.symm
    case isFalse => exact before.named deploymentId other found
  · intro deploymentId other approval found approved
    rw [get_put] at found
    split at found
    case isTrue =>
      cases found
      rw [unapproved] at approved
      cases approved
    case isFalse => exact before.approved deploymentId other approval found approved
  · intro deploymentId other found waits
    rw [get_put] at found
    split at found
    case isTrue =>
      cases found
      exact unreleased
    case isFalse => exact before.unreleased deploymentId other found waits
  · intro execution running
    rw [free] at running
    cases running
  · intro call member
    obtain ⟨proper, other, found, rest⟩ := before.called call member
    refine ⟨proper, other, ?_, rest⟩
    rw [get_put, if_neg]
    · exact found
    · intro same
      rw [same, fresh] at found
      cases found

theorem of_rewritten (free : state.running = none) {record changed : Deployment}
    (found : state.files.deployments.get record.deploymentId = some record)
    (rewrites : Rewrites record changed) :
    Once { state with files := state.files.put changed } := by
  have looked : ∀ {deploymentId other},
      (state.files.put changed).deployments.get deploymentId = some other →
      deploymentId = record.deploymentId ∧ other = changed ∨
        state.files.deployments.get deploymentId = some other := by
    intro deploymentId other found'
    rw [get_put, rewrites.deploymentId] at found'
    split at found'
    case isTrue same =>
      cases found'
      exact .inl ⟨same, rfl⟩
    case isFalse => exact .inr found'
  refine ⟨?_, ?_, ?_, ?_, ?_, ?_, before.once⟩
  · apply before.funded.of_rewritten found rewrites.deploymentId rewrites.request
    intro unreleased
    by_contra released
    rw [Bool.not_eq_false] at released
    rw [rewrites.released released] at unreleased
    cases unreleased
  · intro deploymentId other found'
    rcases looked found' with ⟨rfl, rfl⟩ | same
    · exact rewrites.deploymentId
    · exact before.named deploymentId other same
  · intro deploymentId other approval found' approved
    rcases looked found' with ⟨rfl, rfl⟩ | same
    · rcases rewrites.approval approval approved with kept | made
      · obtain ⟨own, quantity, limit⟩ := before.approved _ record approval found kept
        exact ⟨own.trans rewrites.requestSha256.symm, quantity, by rwa [rewrites.request]⟩
      · exact made
    · exact before.approved deploymentId other approval same approved
  · intro deploymentId other found' waits
    rcases looked found' with ⟨rfl, rfl⟩ | same
    · rw [rewrites.ended waits]
      apply before.unreleased _ record found
      by_contra concluded
      exact rewrites.onward concluded waits
    · exact before.unreleased deploymentId other same waits
  · intro execution running
    rw [free] at running
    cases running
  · intro call member
    obtain ⟨proper, other, found', request, concluded, unreleased⟩ := before.called call member
    refine ⟨proper, ?_⟩
    by_cases same : call.deploymentId = record.deploymentId
    · rw [same, found] at found'
      cases found'
      refine ⟨changed, ?_, rewrites.request.trans request, rewrites.onward concluded, ?_⟩
      · rw [get_put, rewrites.deploymentId, if_pos same]
      · rw [rewrites.kept concluded, unreleased]
    · refine ⟨other, ?_, request, concluded, unreleased⟩
      rw [get_put, rewrites.deploymentId, if_neg same, found']

/-- **What a section does to the files keeps the invariant**, while no execution runs. -/
theorem of_change (free : state.running = none) {files : Files} (change : Change state.files files)
    (funded : Funded files) : Once { state with files } := by
  cases change with
  | none deployments => exact before.of_deployments funded deployments
  | halt _ _ deployments => exact before.of_deployments funded deployments
  | added record fresh unapproved unreleased put =>
    subst put
    exact before.of_added free fresh unapproved unreleased funded
  | rewritten record changed found rewrites put =>
    subst put
    exact before.of_rewritten free found rewrites

theorem of_clock {clock : ℤ} (le : state.clock ≤ clock) (halting claims : List String) :
    Once { state with clock, halting, claims } := by
  refine ⟨before.funded, before.named, before.approved, before.unreleased, ?_, before.called,
    before.once⟩
  intro execution running
  obtain ⟨proper, own, found, claimedAt, uncalled⟩ := before.running execution running
  exact ⟨proper, own, found, claimedAt.trans le, uncalled⟩

/-- An execution may end at any time. -/
theorem of_ended : Once { state with running := none } := by
  refine ⟨before.funded, before.named, before.approved, before.unreleased, ?_, before.called,
    before.once⟩
  intro execution running
  cases running

theorem of_claims (free : state.running = none) {deploymentId : String} {now : ℤ}
    {execution : Execution} (clock : state.clock ≤ now)
    (claims : Claims state.files deploymentId now execution) :
    Once { state with
      files := state.files.put execution.claimed, clock := now, running := some execution } := by
  have ownId := before.named deploymentId _ claims.found
  have claimedId : execution.claimed.deploymentId = deploymentId := by
    rw [claims.claimed]
    exact ownId
  have waits : execution.staged.Waiting := .inr claims.staged
  have unreleased := before.unreleased deploymentId _ claims.found waits
  have rewrites : Rewrites execution.staged execution.claimed := by
    rw [claims.claimed]
    refine ⟨rfl, rfl, rfl, fun approval same => .inl same, fun concluded => absurd waits concluded,
      fun released => released, fun _ => rfl, ?_⟩
    rintro (review | staged)
    · cases review
    · cases staged
  have written := (before.of_clock clock state.halting state.claims).of_rewritten free
    (by rw [ownId]; exact claims.found) rewrites
  refine ⟨written.funded, written.named, written.approved, written.unreleased, ?_, written.called,
    written.once⟩
  intro other running
  cases running
  refine ⟨?_, ?_, ?_, ?_, ?_⟩
  · refine ⟨claims.staged, claims.approval, before.approved _ _ _ claims.found claims.approval, ?_,
      ?_, ?_, ?_, ?_, ?_, ?_⟩
    · rw [claims.claimedAt]
      exact claims.approvedAt
    · rw [claims.claimedAt]
      exact claims.unexpired
    all_goals rw [claims.claimed]
    · exact claims.approval
    · exact unreleased
  · rw [claimedId, claims.own]
  · rw [get_put, claimedId, claims.own, if_pos rfl]
  · exact claims.claimedAt.le
  · intro _ call member same
    obtain ⟨_, record, found, _, concluded, _⟩ := before.called call member
    rw [same, claims.own, claims.found] at found
    cases found
    exact concluded waits

/-- A call is the first of its deployment. -/
theorem of_called {execution : Execution} (running : state.running = some execution)
    (uncalled : execution.called = false) {now : ℤ} (clock : state.clock ≤ now) {call : CanaryCall}
    (calls : Calls execution now call) :
    Once { state with
      clock := now, running := some { execution with called := true }
      calls := call :: state.calls } := by
  obtain ⟨proper, own, found, claimedAt, fresh⟩ := before.running execution running
  refine ⟨before.funded, before.named, before.approved, before.unreleased, ?_, ?_, ?_⟩
  · intro other same
    cases same
    refine ⟨⟨proper.staged, proper.approval, proper.approved, proper.approvedAt, proper.unexpired,
      proper.request, proper.sha256, proper.sameApproval, proper.status, proper.unreleased⟩, own,
      found, claimedAt.trans clock, ?_⟩
    intro called
    cases called
  · intro other member
    rcases List.mem_cons.mp member with rfl | earlier
    · refine ⟨?_, execution.claimed, ?_, ?_, ?_, proper.unreleased⟩
      · refine ⟨?_, ?_, ?_, ?_, ?_, ?_⟩
        all_goals rw [calls.made]
        · exact proper
        · exact calls.symbol
        · exact calls.quantity
        · exact calls.limit
        · rw [calls.at_]
          exact claimedAt.trans clock
        · rw [calls.at_]
          exact calls.left
      · rw [CanaryCall.deploymentId, calls.made]
        exact found
      · rw [calls.made]
        exact proper.request
      · rintro (review | staged)
        · cases proper.status.symm.trans review
        · cases proper.status.symm.trans staged
    · exact before.called other earlier
  · rw [List.map_cons, List.nodup_cons]
    refine ⟨?_, before.once⟩
    intro member
    obtain ⟨other, earlier, same⟩ := List.mem_map.mp member
    apply fresh uncalled other earlier
    rw [same, CanaryCall.deploymentId, calls.made]

/-- The end of an execution is written over what it claimed. -/
theorem of_finished {execution : Execution} (running : state.running = some execution)
    (outcome : String) :
    Once { state with
      files := state.files.put (finished execution outcome), running := none } := by
  obtain ⟨proper, own, found, _, _⟩ := before.running execution running
  have rewrites : Rewrites execution.claimed (finished execution outcome) := by
    have concluded : ¬ execution.claimed.Waiting := by
      rintro (review | staged)
      · cases proper.status.symm.trans review
      · cases proper.status.symm.trans staged
    have still : ¬ (finished execution outcome).Waiting := by
      rw [finished, Deployment.Waiting]
      dsimp only
      split <;> simp
    exact ⟨rfl, rfl, rfl, fun approval same => .inl same, fun _ => still,
      fun released => released, fun _ => rfl, fun waits => absurd waits still⟩
  exact before.of_ended.of_rewritten rfl (by rw [own]; exact found) rewrites

end

end Once

/-! ## Steps and runs -/

section Runs

variable {hashes : Hashes} {state next : State} {action : Action}
  {body : Except WorkspaceRefused Files}

theorem locked_eq_some (taken : state.locked body = some next) :
    state.running = none ∧ ∃ files, body = .ok files ∧
      next = { state with files } := by
  rw [State.locked] at taken
  split at taken
  case h_1 => cases taken
  case h_2 free =>
    obtain ⟨files, written, rfl⟩ := Option.map_eq_some_iff.mp taken
    exact ⟨free, files, mem_toOption.mp written, rfl⟩

/-- **What a step does**, besides the clock. -/
inductive Stepped (state : State) (now : ℤ) : State → Prop where
  | locked (free : state.running = none) (files : Files) (change : Change state.files files)
      (funded : Funded files) (halting : List String) :
      Stepped state now { state with files, halting }
  | halted (files : Files) (change : Change state.files files)
      (plan : files.plan = state.files.plan)
      (deployments : files.deployments = state.files.deployments) (halting : List String) :
      Stepped state now { state with files, halting }
  | haltEnds (halting : List String) : Stepped state now { state with halting }
  | claimed (free : state.running = none) (deploymentId : String) (execution : Execution)
      (claims : Claims state.files deploymentId now execution) :
      Stepped state now { state with
        files := state.files.put execution.claimed, running := some execution
        claims := deploymentId :: state.claims }
  | called (execution : Execution) (running : state.running = some execution)
      (uncalled : execution.called = false) (call : CanaryCall) (calls : Calls execution now call) :
      Stepped state now { state with
        running := some { execution with called := true }, calls := call :: state.calls }
  | finished (execution : Execution) (running : state.running = some execution)
      (outcome : String) :
      Stepped state now { state with
        files := state.files.put (finished execution outcome), running := none }
  | ended : Stepped state now { state with running := none }

theorem stepped_of_locked {now : ℤ} (taken : state.locked body = some next)
    (changes : ∀ files, body = .ok files → Change state.files files ∧ Funded files) :
    Stepped state now next := by
  obtain ⟨free, files, written, rfl⟩ := locked_eq_some taken
  obtain ⟨change, funded⟩ := changes files written
  exact .locked free files change funded state.halting

theorem stepped (before : Once state) {call : Call} {now : ℤ}
    (taken : state.take hashes call now = some next) : Stepped state now next := by
  cases call with
  | createAllocation idempotencyKey accountAlias =>
    exact stepped_of_locked taken fun files created =>
      ⟨createAllocation_change created, before.funded.of_created created⟩
  | bindSleeve planId sleeveId accountAlias =>
    exact stepped_of_locked taken fun files bound =>
      ⟨bindSleeve_change bound, before.funded.of_bound bound⟩
  | propose request =>
    exact stepped_of_locked taken fun files proposed =>
      ⟨propose_change proposed, before.funded.of_proposed proposed⟩
  | haltFile deploymentId =>
    obtain ⟨files, written, rfl⟩ := Option.map_eq_some_iff.mp taken
    obtain ⟨change, plan, deployments⟩ := haltFile_change (mem_toOption.mp written)
    exact .halted files change plan deployments _
  | haltRecord deploymentId =>
    rw [State.take] at taken
    split at taken
    case isFalse => cases taken
    case isTrue =>
      obtain ⟨middle, body, rfl⟩ := Option.map_eq_some_iff.mp taken
      obtain ⟨free, files, halted, rfl⟩ := locked_eq_some body
      obtain ⟨record, changed, found, rewrites, rfl⟩ := haltRecord_change before.named halted
      exact .locked free _ (.rewritten record changed found rewrites rfl)
        (before.of_rewritten free found rewrites).funded _
  | haltEnds deploymentId =>
    cases taken
    exact .haltEnds _
  | stageCanary outside deploymentId symbol limit operatorApproved approvedAt =>
    rw [State.take] at taken
    split at taken
    case isFalse => cases taken
    case isTrue =>
      obtain ⟨free, files, staged, rfl⟩ := locked_eq_some taken
      rcases stageCanary_change before.named staged with
        rfl | ⟨record, changed, found, rewrites, rfl⟩
      · exact .locked free _ (.none rfl rfl) before.funded state.halting
      · exact .locked free _ (.rewritten record changed found rewrites rfl)
          (before.of_rewritten free found rewrites).funded state.halting
  | claim outside deploymentId runtime =>
    rw [State.take] at taken
    split at taken
    case h_1 => cases taken
    case h_2 free =>
      obtain ⟨⟨files, execution⟩, written, rfl⟩ := Option.map_eq_some_iff.mp taken
      obtain ⟨claims, rfl⟩ := claim_eq_ok (mem_toOption.mp written)
      exact .claimed free deploymentId execution claims
  | canary ready granted =>
    rw [State.take] at taken
    split at taken
    case h_1 => cases taken
    case h_2 execution running =>
      split at taken
      case isTrue => cases taken
      case isFalse uncalled =>
        obtain ⟨call, written, rfl⟩ := Option.map_eq_some_iff.mp taken
        exact .called execution running (Bool.not_eq_true _ ▸ uncalled) call
          (callCanary_eq_ok (mem_toOption.mp written))
  | finish outcome =>
    rw [State.take] at taken
    split at taken
    case h_1 => cases taken
    case h_2 execution running =>
      split at taken
      case isFalse => cases taken
      case isTrue =>
        cases taken
        exact .finished execution running outcome
  | executionEnds =>
    cases taken
    exact .ended

theorem system_step (taken : (system hashes).step state action = some next) :
    state.clock ≤ action.now ∧ ∃ after, state.take hashes action.call action.now = some after ∧
      next = { after with clock := action.now } := by
  change (if state.clock ≤ action.now then _ else none) = some next at taken
  split at taken
  case isFalse => cases taken
  case isTrue le =>
    obtain ⟨after, took, rfl⟩ := Option.map_eq_some_iff.mp taken
    exact ⟨le, after, took, rfl⟩

/-- One step keeps the invariant. -/
theorem Once.step (before : Once state)
    (taken : (system hashes).step state action = some next) : Once next := by
  obtain ⟨le, after, took, rfl⟩ := system_step taken
  cases stepped before took with
  | locked free files change funded halting =>
    exact (before.of_change free change funded).of_clock le halting state.claims
  | halted files change plan deployments halting =>
    exact (before.of_deployments (before.funded.of_same plan deployments) deployments).of_clock le
      halting state.claims
  | haltEnds halting => exact before.of_clock le halting state.claims
  | claimed free deploymentId execution claims =>
    exact (before.of_claims free le claims).of_clock le_rfl state.halting _
  | called execution running uncalled call calls => exact before.of_called running uncalled le calls
  | finished execution running outcome =>
    exact (before.of_finished running outcome).of_clock le state.halting state.claims
  | ended => exact before.of_ended.of_clock le state.halting state.claims

theorem Once.of_reachable (reached : (system hashes).Reachable state) : Once state := by
  apply reached.invariant
  · intro first starts
    rw [starts]
    exact Once.initially first.clock
  · intro state action next before taken
    exact before.step taken

/-- What a run keeps: what is released stays so, a halt stays, and what is halted is not claimed
any more. -/
structure Onward (state later : State) : Prop where
  released : ∀ deploymentId record, state.files.deployments.get deploymentId = some record →
    record.reservationReleased = true → ∃ record',
      later.files.deployments.get deploymentId = some record' ∧
      record'.reservationReleased = true
  halted : ∀ deploymentId, (state.files.halts.get deploymentId).isSome →
    (later.files.halts.get deploymentId).isSome
  claims : ∀ deploymentId, (state.files.halts.get deploymentId).isSome →
    later.claims.count deploymentId = state.claims.count deploymentId

namespace Onward

theorem refl (state : State) : Onward state state :=
  ⟨fun _ record found released => ⟨record, found, released⟩, fun _ halted => halted,
    fun _ _ => rfl⟩

theorem trans {first second third : State} (before : Onward first second)
    (after : Onward second third) : Onward first third := by
  refine ⟨?_, ?_, ?_⟩
  · intro deploymentId record found released
    obtain ⟨record', found', released'⟩ := before.released deploymentId record found released
    exact after.released deploymentId record' found' released'
  · intro deploymentId halted
    exact after.halted deploymentId (before.halted deploymentId halted)
  · intro deploymentId halted
    rw [after.claims deploymentId (before.halted deploymentId halted),
      before.claims deploymentId halted]

theorem released_of_rewritten {files : Files} {record changed : Deployment}
    (found : files.deployments.get record.deploymentId = some record)
    (rewrites : Rewrites record changed) {deploymentId : String} {other : Deployment}
    (found' : files.deployments.get deploymentId = some other)
    (released : other.reservationReleased = true) : ∃ record',
      (files.put changed).deployments.get deploymentId = some record' ∧
      record'.reservationReleased = true := by
  by_cases same : deploymentId = record.deploymentId
  · rw [same, found] at found'
    cases found'
    refine ⟨changed, ?_, rewrites.released released⟩
    rw [get_put, rewrites.deploymentId, if_pos same]
  · refine ⟨other, ?_, released⟩
    rw [get_put, rewrites.deploymentId, if_neg same, found']

theorem of_change {files : Files} (change : Change state.files files) (clock : ℤ)
    (running : Option Execution) (halting : List String) (calls : List CanaryCall) :
    Onward state ⟨files, clock, running, halting, state.claims, calls⟩ := by
  cases change with
  | none deployments halts =>
    refine ⟨?_, ?_, fun _ _ => rfl⟩
    · intro deploymentId record found released
      exact ⟨record, by rw [deployments, found], released⟩
    · intro deploymentId halted
      rwa [halts]
  | halt other now deployments halts =>
    refine ⟨?_, ?_, fun _ _ => rfl⟩
    · intro deploymentId record found released
      exact ⟨record, by rw [deployments, found], released⟩
    · intro deploymentId halted
      rw [halts]
      exact Directory.isSome_get_write halted
  | added record fresh _ _ put =>
    subst put
    refine ⟨?_, fun _ halted => halted, fun _ _ => rfl⟩
    intro deploymentId other found released
    refine ⟨other, ?_, released⟩
    rw [get_put, if_neg]
    · exact found
    · intro same
      rw [same, fresh] at found
      cases found
  | rewritten record changed found rewrites put =>
    subst put
    exact ⟨fun _ _ found' released => released_of_rewritten found rewrites found' released,
      fun _ halted => halted, fun _ _ => rfl⟩

theorem of_step (before : Once state)
    (taken : (system hashes).step state action = some next) : Onward state next := by
  obtain ⟨_, after, took, rfl⟩ := system_step taken
  cases stepped before took with
  | locked _ files change _ halting =>
    exact of_change change action.now state.running halting state.calls
  | halted files change _ _ halting =>
    exact of_change change action.now state.running halting state.calls
  | haltEnds halting =>
    exact of_change (.none rfl rfl) action.now state.running halting state.calls
  | claimed free deploymentId execution claims =>
    -- the claimed deployment has no halt, and its reservation is not released
    have waits : execution.staged.Waiting := .inr claims.staged
    have unreleased := before.unreleased deploymentId _ claims.found waits
    have ownId := before.named deploymentId _ claims.found
    have claimedId : execution.claimed.deploymentId = deploymentId := by
      rw [claims.claimed]
      exact ownId
    refine ⟨?_, fun _ halted => halted, ?_⟩
    · intro other record found released
      refine ⟨record, ?_, released⟩
      change (state.files.put execution.claimed).deployments.get other = some record
      rw [get_put, claimedId, if_neg]
      · exact found
      · intro same
        rw [same, claims.found] at found
        cases found
        rw [unreleased] at released
        cases released
    · intro other halted
      apply List.count_cons_of_ne
      intro same
      rw [← same, claims.unhalted] at halted
      cases halted
  | called execution _ _ call _ =>
    exact of_change (.none rfl rfl) action.now _ state.halting (call :: state.calls)
  | finished execution running outcome =>
    obtain ⟨proper, own, found, _, _⟩ := before.running execution running
    refine ⟨?_, fun _ halted => halted, fun _ _ => rfl⟩
    intro other record found' released
    refine ⟨record, ?_, released⟩
    change (state.files.put (finished execution outcome)).deployments.get other = some record
    have ownId : (finished execution outcome).deploymentId = execution.deploymentId := own
    rw [get_put, ownId, if_neg]
    · exact found'
    · intro same
      rw [same, found] at found'
      cases found'
      rw [proper.unreleased] at released
      cases released
  | ended => exact of_change (.none rfl rfl) action.now none state.halting state.calls

theorem of_leads {later : State} (before : Once state)
    (leads : (system hashes).Leads state later) : Once later ∧ Onward state later := by
  apply leads.relates Once Onward refl
  · intro first second third early late
    exact early.trans late
  · intro state action next before taken
    exact before.step taken
  · intro state action next before taken
    exact of_step before taken
  · exact before

end Onward

/-- A call of the runtime was made for a deployment that was staged when it was claimed, on the
approval of its own request. The approval had not expired at the claim, a minute of it was left at
the call, and the deployment reserves what the order costs at most. -/
structure OwnApproval (files : Files) (call : CanaryCall) : Prop where
  staged : call.execution.staged.status = .staged
  approval : call.execution.staged.approval = some call.execution.approval
  own : call.execution.approval.requestSha256 = call.execution.staged.requestSha256
  order : call.symbol = call.execution.approval.symbol ∧
    call.quantity = call.execution.approval.quantity ∧ call.limit = call.execution.approval.limit
  unexpired : call.execution.approval.approvedAt ≤ call.execution.claimedAt ∧
    call.execution.claimedAt < call.execution.approval.expiresAt
  left : call.execution.claimedAt ≤ call.at_ ∧
    shiftInstant call.at_ 60 ≤ call.execution.approval.expiresAt
  covered : ∃ record, files.deployments.get call.deploymentId = some record ∧
    record.request = call.execution.staged.request ∧ record.reservationReleased = false ∧
    call.quantity * call.limit ≤ record.request.maxGrossNotional

theorem Once.ownApproval (before : Once state) {call : CanaryCall} (member : call ∈ state.calls) :
    OwnApproval state.files call := by
  obtain ⟨proper, record, found, request, _, unreleased⟩ := before.called call member
  have execution := proper.execution
  refine ⟨execution.staged, execution.approval, execution.approved.request,
    ⟨proper.symbol, proper.quantity, proper.limit⟩, ⟨execution.approvedAt, execution.unexpired⟩,
    ⟨proper.claimedAt, proper.left⟩, record, found, request, unreleased, ?_⟩
  rw [proper.quantity, proper.limit, execution.approved.quantity, Nat.cast_one, one_mul, request]
  exact execution.approved.limit.2

/-- **In every state of every run the reservations are funded, a deployment is called once at most
and on its own approval, what is released has not been called and is not called later, and
what is halted is not claimed any more.** -/
theorem capital_conserved (reached : (system hashes).Reachable state) :
    Funded state.files ∧
      (∀ deploymentId, (state.calls.map CanaryCall.deploymentId).count deploymentId ≤ 1) ∧
      (∀ call ∈ state.calls, OwnApproval state.files call) ∧
      ∀ later, (system hashes).Leads state later →
        (∀ deploymentId record, state.files.deployments.get deploymentId = some record →
          record.reservationReleased = true →
          ∀ call ∈ later.calls, call.deploymentId ≠ deploymentId) ∧
        ∀ deploymentId, (state.files.halts.get deploymentId).isSome →
          later.claims.count deploymentId = state.claims.count deploymentId := by
  have once := Once.of_reachable reached
  refine ⟨once.funded, ?_, fun call member => once.ownApproval member, ?_⟩
  · intro deploymentId
    exact List.nodup_iff_count_le_one.mp once.once deploymentId
  · intro later leads
    obtain ⟨onceLater, onward⟩ := Onward.of_leads once leads
    refine ⟨?_, onward.claims⟩
    intro deploymentId record found released call member same
    obtain ⟨record', found', released'⟩ := onward.released deploymentId record found released
    obtain ⟨_, other, foundCall, _, _, unreleased⟩ := onceLater.called call member
    rw [same, found'] at foundCall
    cases foundCall
    rw [released'] at unreleased
    cases unreleased

end Runs

/-! ## One deployment from its proposal to its halt -/

def sampleId : String :=
  String.ofList (List.replicate 64 'a')

def sampleHashes : Hashes where
  key _ := sampleId
  allocation _ := "plan"
  request _ := "request"

theorem hundred_mem_cents : (100 : ℚ) ∈ cents := by
  decide +kernel

theorem hundred_pos : (0 : ℚ) < 100 := by
  norm_num

theorem hundred_le : (100 : ℚ) ≤ 100 :=
  le_rfl

theorem hundred_digits : (100 : ℚ) < 10 ^ 16 := by
  norm_num

def sampleRequest : DeploymentRequest where
  idempotencyKey := "first"
  accountAlias := "paper"
  strategyVersion := operationalCanary
  researchJobId := none
  sleeveId := some "sleeve-01"
  intendedCapital := 100
  maxGrossNotional := 100
  maxOrders := 1
  ttlSeconds := 900
  key_bounds := by decide
  alias_valid := by decide
  version_bounds := by decide
  notional_pos := hundred_pos
  notional_cents := hundred_mem_cents
  intended_cents := hundred_mem_cents
  intended_digits := hundred_digits
  order_bounds := by decide
  ttl_bounds := by decide
  capital_bounds := hundred_le

def sampleBinding : PaperAccountBinding :=
  ⟨"paper", "account", "ALPACA-PAPER", "operator", "credential"⟩

def sampleOutside : Outside where
  entry _ := .ok ⟨.snaptrade, "paper", "/binding", "/state"⟩
  loadBinding _ := .ok sampleBinding

/-- The deployment is proposed, approved, executed and halted. -/
def sampleRun : List Action :=
  [⟨.createAllocation "plan" none, 1⟩, ⟨.propose sampleRequest, 2⟩,
    ⟨.stageCanary sampleOutside sampleId "SPY" (some 50) true 3, 3⟩,
    ⟨.claim sampleOutside sampleId ⟨sampleBinding, "/state", true⟩, 4⟩,
    ⟨.haltFile sampleId, 5⟩, ⟨.canary true true, 6⟩, ⟨.finish "acknowledged", 7⟩,
    ⟨.haltRecord sampleId, 8⟩]

def sampleStart : State :=
  ⟨Files.empty, 0, none, [], [], []⟩

theorem capital_conserved_sample :
    ∃ state, (system sampleHashes).run sampleStart sampleRun = some state ∧
      state.calls.length = 1 ∧ Funded state.files ∧
      ∀ call ∈ state.calls, OwnApproval state.files call := by
  have ran : ((system sampleHashes).run sampleStart sampleRun).any
      fun state => state.calls.length = 1 := by
    decide +kernel
  obtain ⟨state, run, called⟩ := (Option.any_eq_true _ _).mp ran
  have starts : (system sampleHashes).Initial sampleStart := rfl
  have reached : (system sampleHashes).Reachable state :=
    System.ReachableUnder.run (.initial starts) (fun _ _ _ => trivial) run
  obtain ⟨funded, _, own, _⟩ := capital_conserved reached
  exact ⟨state, run, of_decide_eq_true called, funded, own⟩

end TreeOptions.Workspace
