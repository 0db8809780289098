import TreeOptions.Seal.Parties

/-!
# The seal is one-shot

However the calls on a ledger interleave, every prefix of the ledger holds at most
one consumption of each sealed run, and of each content at most one consumption
more than reconciliations (`oneShot_of_reachable`).

A consumption is decided on a view in which the run was not spent and the content
not more often than it was re-armed, and it is appended to that very view.
-/

set_option autoImplicit false

namespace TreeOptions.Seal

/-- A record stores the ids of its identity, and a consumption was granted. -/
def Granted (env : Environment) (records : List LedgerRecord) (record : LedgerRecord) : Prop :=
  Identified env record ∧ (record.kind = .consumption →
    executions record.sealedRunId records = 0 ∧
      consumptions record.contentIdentity records ≤
        reconciliations record.contentIdentity records)

/-- Every prefix holds at most one consumption of a run, and of a content at most one
more than reconciliations. -/
def OneShot (records : List LedgerRecord) : Prop :=
  ∀ earlier, earlier <+: records → (∀ runId, executions runId earlier ≤ 1) ∧
    ∀ content, consumptions content earlier ≤ reconciliations content earlier + 1

variable {env : Environment}

theorem oneShot_nil : OneShot [] := by
  intro earlier starts
  obtain rfl := List.prefix_nil.mp starts
  exact ⟨fun _ => Nat.zero_le _, fun _ => Nat.zero_le _⟩

theorem granted_of_decides {state : Parties} {action : SealAction}
    {records : List LedgerRecord} {record : LedgerRecord}
    (decided : Decides env state records action record) : Granted env records record := by
  cases decided with
  | consumption granted => exact ⟨⟨rfl, rfl⟩, fun _ => checkAuthority_ok granted⟩
  | approval => exact ⟨⟨rfl, rfl⟩, nofun⟩
  | note => exact ⟨⟨rfl, rfl⟩, nofun⟩
  | reconciliation _ => exact ⟨⟨rfl, rfl⟩, nofun⟩

/-- **A granted record keeps the ledger one-shot.** -/
theorem oneShot_concat {records : List LedgerRecord} {record : LedgerRecord}
    (oneShot : OneShot records) (granted : Granted env records record) :
    OneShot (records ++ [signed env record]) := by
  intro earlier starts
  rcases List.prefix_concat_iff.mp starts with rfl | before
  · obtain ⟨runs, contents⟩ := oneShot records List.prefix_rfl
    refine ⟨?_, ?_⟩
    · intro runId
      rw [executions_signed]
      split_ifs with spends
      · obtain ⟨kind, rfl⟩ := spends
        have unspent := (granted.2 kind).1
        omega
      · exact runs runId
    · intro content
      rw [consumptions_signed, reconciliations_signed]
      have before := contents content
      by_cases spends : record.kind = .consumption ∧ record.contentIdentity = content
      · obtain ⟨kind, rfl⟩ := spends
        have covered := (granted.2 kind).2
        rw [if_pos ⟨kind, rfl⟩]
        omega
      · rw [if_neg spends]
        omega
  · exact oneShot earlier before

/-- **The seal is one-shot**, whatever the parties do. -/
theorem oneShot_of_reachable (lawful : env.Lawful) (free : (ledgerFormat env).CollisionFree)
    {state : Parties} (reached : (sealSystem env).Reachable state) :
    ∃ records, readLedger env state.store =
        .ok ⟨records, (ledgerFormat env).tail records, false⟩ ∧ OneShot records := by
  obtain ⟨records, ⟨finished, intact⟩, oneShot⟩ :=
    exists_history lawful free oneShot_nil (fun _ _ => oneShot_concat)
      (fun _ _ _ _ _ _ _ => granted_of_decides) reached
  exact ⟨records, intact.readLedger_eq, oneShot⟩

theorem oneShot_of_executed :
    ∃ state, (sealSystem plainEnvironment).Reachable state ∧
      ∃ records, readLedger plainEnvironment state.store =
        .ok ⟨records, (ledgerFormat plainEnvironment).tail records, false⟩ ∧
        OneShot records := by
  obtain ⟨tail, state, finished, -, intact, reached⟩ :=
    Reaches.executed onRereads_true lawful_plainEnvironment sampleIdentity "owner" 1756000000
  exact ⟨state, reached, oneShot_of_reachable lawful_plainEnvironment
    collisionFree_plainEnvironment reached⟩

end TreeOptions.Seal
