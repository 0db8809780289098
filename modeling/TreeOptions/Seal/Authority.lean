import TreeOptions.Seal.Ledger

/-!
# One-shot authority

Two loops over the records of a view. `checkAuthority` decides whether a sealed
run may spend: no spend of the same run, no more spends of the same content than
the owner re-armed, and an approval that recomputes to the run. `checkOutstanding`
decides whether the owner may re-arm: the identity was spent, and a spend of its
content is not re-armed yet.

Both loops recompute the ids from a record's own identity and refuse a record
whose stored ids differ. What they count is what the records hold
(`countSpends_ok`, `countOutstanding_ok`), and over records whose ids recompute,
each re-arm behind a spend, the first loop reports no corruption
(`not_corrupt_of_countSpends`).
-/

set_option autoImplicit false

namespace TreeOptions.Seal

variable (env : Environment)

/-- The ids a record stores are those of its identity. -/
def Identified (record : LedgerRecord) : Prop :=
  record.sealedRunId = sealedRunId env.sha256Hex record.identity ∧
    record.contentIdentity = contentIdentity env.sha256Hex record.identity

instance (record : LedgerRecord) : Decidable (Identified env record) :=
  inferInstanceAs (Decidable (_ ∧ _))

/-! ## Counting -/

/-- The spends of a content. -/
def consumptions (content : String) (records : List LedgerRecord) : ℕ :=
  records.countP fun record => record.kind = .consumption ∧ record.contentIdentity = content

/-- The re-arms of a content. -/
def reconciliations (content : String) (records : List LedgerRecord) : ℕ :=
  records.countP fun record => record.kind = .reconciliation ∧ record.contentIdentity = content

/-- The spends of one exact run. -/
def executions (runId : String) (records : List LedgerRecord) : ℕ :=
  records.countP fun record => record.kind = .consumption ∧ record.sealedRunId = runId

section Counts

variable (content runId : String) (record : LedgerRecord) (records : List LedgerRecord)

theorem consumptions_cons : consumptions content (record :: records) =
    consumptions content records +
      if record.kind = .consumption ∧ record.contentIdentity = content then 1 else 0 := by
  simp [consumptions, List.countP_cons]

theorem reconciliations_cons : reconciliations content (record :: records) =
    reconciliations content records +
      if record.kind = .reconciliation ∧ record.contentIdentity = content then 1 else 0 := by
  simp [reconciliations, List.countP_cons]

theorem executions_cons : executions runId (record :: records) =
    executions runId records +
      if record.kind = .consumption ∧ record.sealedRunId = runId then 1 else 0 := by
  simp [executions, List.countP_cons]

/-- What a record adds does not depend on its hash. -/
theorem consumptions_signed : consumptions content (records ++ [signed env record]) =
    consumptions content records +
      if record.kind = .consumption ∧ record.contentIdentity = content then 1 else 0 := by
  simp [consumptions, signed, List.countP_cons]

theorem reconciliations_signed : reconciliations content (records ++ [signed env record]) =
    reconciliations content records +
      if record.kind = .reconciliation ∧ record.contentIdentity = content then 1 else 0 := by
  simp [reconciliations, signed, List.countP_cons]

theorem executions_signed : executions runId (records ++ [signed env record]) =
    executions runId records +
      if record.kind = .consumption ∧ record.sealedRunId = runId then 1 else 0 := by
  simp [executions, signed, List.countP_cons]

end Counts

/-! ## Spending -/

/-- Why a run may not spend. -/
inductive AuthorityError where
  | reconciliationIds (recordSha256 : String)
  | aheadOfSpend (recordSha256 : String) (reconciliations consumptions : ℕ)
  | consumptionIds (recordSha256 : String)
  | sameRun (runId : String)
  | contentSpent (runId : String) (consumptions reconciliations : ℕ)
  | noApproval (runId : String)

/-- The refusals that say the ledger is corrupt. -/
def AuthorityError.Corrupt : AuthorityError → Prop
  | reconciliationIds _ | aheadOfSpend _ _ _ | consumptionIds _ => True
  | sameRun _ | contentSpent _ _ _ | noApproval _ => False

/-- The loop over the records: spends and re-arms of the run's content so far. -/
def countSpends (identity : SealedIdentity) (contentConsumptions reconciliations : ℕ) :
    List LedgerRecord → Except AuthorityError (ℕ × ℕ)
  | [] => .ok (contentConsumptions, reconciliations)
  | record :: rest =>
    match record.kind with
    | .reconciliation =>
      if ¬Identified env record then .error (.reconciliationIds record.recordSha256)
      else if record.contentIdentity = contentIdentity env.sha256Hex identity then
        if contentConsumptions < reconciliations + 1 then
          .error (.aheadOfSpend record.recordSha256 (reconciliations + 1)
            contentConsumptions)
        else countSpends identity contentConsumptions (reconciliations + 1) rest
      else countSpends identity contentConsumptions reconciliations rest
    | .consumption =>
      if ¬Identified env record then .error (.consumptionIds record.recordSha256)
      else if record.sealedRunId = sealedRunId env.sha256Hex identity then
        .error (.sameRun (sealedRunId env.sha256Hex identity))
      else if record.contentIdentity = contentIdentity env.sha256Hex identity then
        countSpends identity (contentConsumptions + 1) reconciliations rest
      else countSpends identity contentConsumptions reconciliations rest
    | .approval | .reconciliationNote =>
      countSpends identity contentConsumptions reconciliations rest

/-- An approval that recomputes to the run and its verified packet. -/
def Approves (identity : SealedIdentity) (record : LedgerRecord) : Prop :=
  record.kind = .approval ∧ record.sealedRunId = sealedRunId env.sha256Hex identity ∧
    record.contentIdentity = contentIdentity env.sha256Hex identity ∧
    sealedRunId env.sha256Hex record.identity = sealedRunId env.sha256Hex identity ∧
    contentIdentity env.sha256Hex record.identity = contentIdentity env.sha256Hex identity ∧
    record.identity.verifiedPacketSha256 = identity.verifiedPacketSha256

instance (identity : SealedIdentity) (record : LedgerRecord) :
    Decidable (Approves env identity record) :=
  inferInstanceAs (Decidable (_ ∧ _))

/-- Refuse a duplicate and require an exact approval. -/
def checkAuthority (view : LedgerView) (identity : SealedIdentity) :
    Except AuthorityError Unit :=
  match countSpends env identity 0 0 view.records with
  | .error refusal => .error refusal
  | .ok (contentConsumptions, reconciliations) =>
    if reconciliations < contentConsumptions then
      .error (.contentSpent (sealedRunId env.sha256Hex identity) contentConsumptions
        reconciliations)
    else if ∃ record ∈ view.records, Approves env identity record then .ok ()
    else .error (.noApproval (sealedRunId env.sha256Hex identity))

/-! ## Re-arming -/

/-- Why a spend may not be re-armed. -/
inductive ReconciliationError where
  | reconciliationIds (recordSha256 : String)
  | consumptionIds (recordSha256 : String)
  | notConsumed (runId : String)
  | covered (runId : String) (consumptions reconciliations : ℕ)

/-- The loop over the records: whether the identity was spent, and the spends and
re-arms of its content so far. -/
def countOutstanding (identity : SealedIdentity) (consumedHere : Bool)
    (consumptions reconciliations : ℕ) :
    List LedgerRecord → Except ReconciliationError (Bool × ℕ × ℕ)
  | [] => .ok (consumedHere, consumptions, reconciliations)
  | record :: rest =>
    match record.kind with
    | .reconciliation =>
      if record.contentIdentity ≠ contentIdentity env.sha256Hex record.identity then
        .error (.reconciliationIds record.recordSha256)
      else if record.contentIdentity = contentIdentity env.sha256Hex identity then
        countOutstanding identity consumedHere consumptions (reconciliations + 1) rest
      else countOutstanding identity consumedHere consumptions reconciliations rest
    | .consumption =>
      if ¬Identified env record then .error (.consumptionIds record.recordSha256)
      else if record.contentIdentity ≠ contentIdentity env.sha256Hex identity then
        countOutstanding identity consumedHere consumptions reconciliations rest
      else countOutstanding identity (consumedHere || record.identity = identity)
        (consumptions + 1) reconciliations rest
    | .approval | .reconciliationNote =>
      countOutstanding identity consumedHere consumptions reconciliations rest

/-- Require a spend of the identity, and one of its content that is not re-armed. -/
def checkOutstanding (view : LedgerView) (identity : SealedIdentity) :
    Except ReconciliationError Unit :=
  match countOutstanding env identity false 0 0 view.records with
  | .error refusal => .error refusal
  | .ok (consumedHere, consumptions, reconciliations) =>
    if consumedHere = false then
      .error (.notConsumed (sealedRunId env.sha256Hex identity))
    else if consumptions ≤ reconciliations then
      .error (.covered (sealedRunId env.sha256Hex identity) consumptions reconciliations)
    else .ok ()

/-! ## What the loops find -/

section Found

variable {env} {identity : SealedIdentity} {records : List LedgerRecord}

/-- **The first loop counts what the records hold**, and lets no spend of the run
pass. -/
theorem countSpends_ok {spent rearmed spent' rearmed' : ℕ}
    (counted : countSpends env identity spent rearmed records = .ok (spent', rearmed')) :
    spent' = spent + consumptions (contentIdentity env.sha256Hex identity) records ∧
      rearmed' = rearmed + reconciliations (contentIdentity env.sha256Hex identity) records ∧
      executions (sealedRunId env.sha256Hex identity) records = 0 := by
  fun_induction countSpends env identity spent rearmed records with
  | case1 =>
    cases counted
    exact ⟨rfl, rfl, rfl⟩
  | case4 _ _ record _ kind _ content _ ih =>
    have := ih counted
    simp [consumptions_cons, reconciliations_cons, executions_cons, kind, content]
    omega
  | case8 _ _ record _ kind _ run content ih =>
    have := ih counted
    simp [consumptions_cons, reconciliations_cons, executions_cons, kind, run, content]
    omega
  | case5 _ _ record _ kind _ content ih =>
    simpa [consumptions_cons, reconciliations_cons, executions_cons, kind, content] using ih counted
  | case9 _ _ record _ kind _ run content ih =>
    simpa [consumptions_cons, reconciliations_cons, executions_cons, kind, run, content]
      using ih counted
  | case10 _ _ record _ kind ih | case11 _ _ record _ kind ih =>
    simpa [consumptions_cons, reconciliations_cons, executions_cons, kind] using ih counted
  | _ => cases counted

theorem checkAuthority_ok {tailHash : String} {tailDamaged : Bool}
    (checked : checkAuthority env ⟨records, tailHash, tailDamaged⟩ identity = .ok ()) :
    executions (sealedRunId env.sha256Hex identity) records = 0 ∧
      consumptions (contentIdentity env.sha256Hex identity) records ≤
        reconciliations (contentIdentity env.sha256Hex identity) records := by
  rw [checkAuthority] at checked
  split at checked
  case h_1 => cases checked
  case h_2 spent rearmed counted =>
    split at checked
    case isTrue => cases checked
    case isFalse covered =>
      obtain ⟨rfl, rfl, none'⟩ := countSpends_ok counted
      exact ⟨none', Nat.le_of_not_lt (by simpa using covered)⟩

/-- **Over records whose ids recompute, each re-arm behind a spend, the first loop
reports no corruption.** -/
theorem not_corrupt_of_countSpends (identified : ∀ record ∈ records, Identified env record)
    {spent rearmed : ℕ}
    (causal : ∀ earlier, earlier <+: records →
      rearmed + reconciliations (contentIdentity env.sha256Hex identity) earlier ≤
        spent + consumptions (contentIdentity env.sha256Hex identity) earlier)
    {refusal : AuthorityError}
    (refused : countSpends env identity spent rearmed records = .error refusal) :
    ¬refusal.Corrupt := by
  induction records generalizing spent rearmed with
  | nil => cases refused
  | cons record rest ih =>
    obtain ⟨known, restKnown⟩ := List.forall_mem_cons.mp identified
    have first := causal [record] ⟨rest, rfl⟩
    have later : ∀ earlier, earlier <+: rest →
        rearmed + reconciliations (contentIdentity env.sha256Hex identity) (record :: earlier) ≤
          spent + consumptions (contentIdentity env.sha256Hex identity) (record :: earlier) :=
      fun earlier starts => causal _ ((List.prefix_cons_inj record).mpr starts)
    simp only [consumptions_cons, reconciliations_cons] at first later
    rw [countSpends] at refused
    split at refused
    case h_1 kind =>
      rw [if_neg (not_not.mpr known)] at refused
      split at refused
      case isTrue content =>
        simp only [kind, content] at first later
        rw [if_neg (by simp [consumptions, reconciliations] at first; omega)] at refused
        refine ih restKnown (fun earlier starts => ?_) refused
        have := later earlier starts
        simp at this
        omega
      case isFalse content =>
        simp only [kind, content] at later
        exact ih restKnown (by simpa using later) refused
    case h_2 kind =>
      rw [if_neg (not_not.mpr known)] at refused
      split at refused
      case isTrue =>
        cases refused
        exact not_false
      case isFalse =>
        split at refused
        case isTrue content =>
          simp only [kind, content] at later
          refine ih restKnown (fun earlier starts => ?_) refused
          have := later earlier starts
          simp at this
          omega
        case isFalse content =>
          simp only [kind, content] at later
          exact ih restKnown (by simpa using later) refused
    case h_3 kind =>
      simp only [kind] at later
      exact ih restKnown (by simpa using later) refused
    case h_4 kind =>
      simp only [kind] at later
      exact ih restKnown (by simpa using later) refused

theorem not_corrupt_of_checkAuthority {view : LedgerView}
    (identified : ∀ record ∈ view.records, Identified env record)
    (causal : ∀ earlier, earlier <+: view.records → ∀ content,
      reconciliations content earlier ≤ consumptions content earlier)
    {refusal : AuthorityError} (refused : checkAuthority env view identity = .error refusal) :
    ¬refusal.Corrupt := by
  revert refused
  fun_cases checkAuthority env view identity with
  | case1 corrupt counted =>
    rintro ⟨⟩
    refine not_corrupt_of_countSpends identified ?_ counted
    intro earlier starts
    have := causal earlier starts (contentIdentity env.sha256Hex identity)
    omega
  | case3 => exact nofun
  | _ =>
    rintro ⟨⟩
    exact not_false

/-- **The second loop counts what the records hold.** -/
theorem countOutstanding_ok {consumed consumed' : Bool} {spent rearmed spent' rearmed' : ℕ}
    (counted : countOutstanding env identity consumed spent rearmed records =
      .ok (consumed', spent', rearmed')) :
    spent' = spent + consumptions (contentIdentity env.sha256Hex identity) records ∧
      rearmed' = rearmed + reconciliations (contentIdentity env.sha256Hex identity) records := by
  fun_induction countOutstanding env identity consumed spent rearmed records with
  | case1 =>
    cases counted
    exact ⟨rfl, rfl⟩
  | case3 _ _ _ record _ kind _ content ih =>
    have := ih counted
    simp [consumptions_cons, reconciliations_cons, kind, content]
    omega
  | case7 _ _ _ record _ kind _ content ih =>
    have := ih counted
    simp [consumptions_cons, reconciliations_cons, kind, not_not.mp content]
    omega
  | case4 _ _ _ record _ kind _ content ih | case6 _ _ _ record _ kind _ content ih =>
    simpa [consumptions_cons, reconciliations_cons, kind, content] using ih counted
  | case8 _ _ _ record _ kind ih | case9 _ _ _ record _ kind ih =>
    simpa [consumptions_cons, reconciliations_cons, kind] using ih counted
  | _ => cases counted

/-- What the owner found in the records: a spend of the content that is not re-armed. -/
theorem checkOutstanding_ok {tailHash : String} {tailDamaged : Bool}
    (checked : checkOutstanding env ⟨records, tailHash, tailDamaged⟩ identity = .ok ()) :
    reconciliations (contentIdentity env.sha256Hex identity) records <
      consumptions (contentIdentity env.sha256Hex identity) records := by
  revert checked
  fun_cases checkOutstanding env ⟨records, tailHash, tailDamaged⟩ identity with
  | case4 consumed spent rearmed counted _ outstanding =>
    obtain ⟨rfl, rfl⟩ := countOutstanding_ok counted
    exact fun _ => Nat.lt_of_not_le (by simpa using outstanding)
  | _ => exact nofun

end Found

end TreeOptions.Seal
