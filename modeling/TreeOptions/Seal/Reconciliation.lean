import TreeOptions.Seal.Parties

/-!
# A reconciliation behind its spend

A reconciliation counts the outstanding spends on one read and names the tail of
another. When every second read still finds a spend outstanding, each prefix of the
ledger holds no more reconciliations of a content than consumptions, and authority
is never refused as corrupt (`causal_of_reachable`).

When another reconciliation was appended between the two reads, the second read
takes its tail and not its count. Two owners who re-arm one spend then both append,
and the ledger holds a reconciliation ahead of any spend (`Reaches.ahead`).
-/

set_option autoImplicit false

namespace TreeOptions.Seal

variable (env : Environment)

/-- The second read of a reconciliation still finds the spend it counted on the
first. -/
def OutstandingAtReread (state : Parties) : SealAction → Prop
  | .reread party => ∀ identity reason atEpoch view,
      state.calls party = .reconciling identity reason atEpoch →
      readLedger env state.store = .ok view → checkOutstanding env view identity = .ok ()
  | _ => True

/-- A record stores the ids of its identity, and a reconciliation has an outstanding
spend before it. -/
def Owed (records : List LedgerRecord) (record : LedgerRecord) : Prop :=
  Identified env record ∧ (record.kind = .reconciliation →
    reconciliations record.contentIdentity records < consumptions record.contentIdentity records)

/-- Every prefix holds at most as many reconciliations of a content as
consumptions. -/
def Causal (records : List LedgerRecord) : Prop :=
  ∀ earlier, earlier <+: records → ∀ content,
    reconciliations content earlier ≤ consumptions content earlier

variable {env} {records : List LedgerRecord} {record : LedgerRecord}

theorem owed_of_decides {state : Parties} {action : SealAction} {finished : List UInt8}
    (meets : OutstandingAtReread env state action)
    (intact : Intact env state.store finished [] records)
    (decided : Decides env state records action record) : Owed env records record := by
  cases decided with
  | consumption _ => exact ⟨⟨rfl, rfl⟩, nofun⟩
  | approval => exact ⟨⟨rfl, rfl⟩, nofun⟩
  | note => exact ⟨⟨rfl, rfl⟩, nofun⟩
  | reconciliation waits =>
    exact ⟨⟨rfl, rfl⟩, fun _ =>
      checkOutstanding_ok (meets _ _ _ _ waits intact.readLedger_eq)⟩

/-- **An owed record keeps every reconciliation behind its spend.** -/
theorem causal_concat (causal : Causal records) (owed : Owed env records record) :
    Causal (records ++ [signed env record]) := by
  intro earlier starts content
  rcases List.prefix_concat_iff.mp starts with rfl | before
  · have before := causal records List.prefix_rfl content
    rw [reconciliations_signed, consumptions_signed]
    by_cases rearms : record.kind = .reconciliation ∧ record.contentIdentity = content
    · obtain ⟨kind, rfl⟩ := rearms
      have outstanding := owed.2 kind
      rw [if_pos ⟨kind, rfl⟩]
      omega
    · rw [if_neg rearms]
      omega
  · exact causal earlier before content

theorem history_concat (history : (∀ other ∈ records, Identified env other) ∧ Causal records)
    (owed : Owed env records record) :
    (∀ other ∈ records ++ [signed env record], Identified env other) ∧
      Causal (records ++ [signed env record]) := by
  refine ⟨?_, causal_concat history.2 owed⟩
  simp only [List.forall_mem_append, List.forall_mem_singleton]
  exact ⟨history.1, owed.1⟩

/-- **Every reconciliation stays behind the spend it names**, as long as every second
read still finds one outstanding, and authority is never refused as corrupt. -/
theorem causal_of_reachable (lawful : env.Lawful) (free : (ledgerFormat env).CollisionFree)
    {state : Parties}
    (reached : (sealSystem env).ReachableUnder (OutstandingAtReread env) state) :
    ∃ records, readLedger env state.store =
        .ok ⟨records, (ledgerFormat env).tail records, false⟩ ∧ Causal records ∧
      ∀ identity refusal, checkAuthority env
        ⟨records, (ledgerFormat env).tail records, false⟩ identity = .error refusal →
        ¬refusal.Corrupt := by
  have nil : (∀ other ∈ ([] : List LedgerRecord), Identified env other) ∧ Causal [] := by
    refine ⟨by simp, ?_⟩
    intro earlier starts content
    obtain rfl := List.prefix_nil.mp starts
    exact Nat.le_refl 0
  obtain ⟨records, ⟨finished, intact⟩, identified, causal⟩ :=
    exists_history lawful free nil (fun _ _ => history_concat)
      (fun _ _ _ _ _ => owed_of_decides) reached
  refine ⟨records, intact.readLedger_eq, causal, ?_⟩
  intro identity refusal refused
  refine not_corrupt_of_checkAuthority ?_ ?_ refused
  · exact identified
  · exact causal

theorem onRereads_outstandingAtReread : OnRereads (OutstandingAtReread env) := by
  intro state action other
  cases action with
  | reread party => exact absurd rfl (other party)
  | _ => trivial

theorem checkOutstanding_executedRecords (identity : SealedIdentity) (reason : String)
    (atEpoch : ℤ) (tail tailHash : String) :
    checkOutstanding env ⟨executedRecords env identity reason atEpoch tail, tailHash, false⟩
      identity = .ok () := by
  simp [executedRecords, checkOutstanding, countOutstanding, signed, recordOf, Identified]

theorem Reaches.rearmed (lawful : env.Lawful) (identity : SealedIdentity) (reason : String)
    (atEpoch : ℤ) :
    ∃ records calls, Reaches env (OutstandingAtReread env) records calls ∧
      0 < reconciliations (contentIdentity env.sha256Hex identity) records := by
  obtain ⟨tail, spent⟩ :=
    Reaches.executed onRereads_outstandingAtReread lawful identity reason atEpoch
  have counted : Reaches env (OutstandingAtReread env)
      (executedRecords env identity reason atEpoch tail)
      (Function.update (fun _ => .idle) 0 (.reconciling identity reason atEpoch)) :=
    spent.reconcile onRereads_outstandingAtReread rfl
      (checkOutstanding_executedRecords identity reason atEpoch tail _)
  refine ⟨_, _, counted.reread onRereads_outstandingAtReread lawful (Function.update_self ..)
    ?_, ?_⟩
  · intro state finished same intact identity' reason' atEpoch' view waits read
    rw [same, Function.update_self] at waits
    obtain ⟨rfl, -, -⟩ := Call.reconciling.inj waits
    rw [intact.readLedger_eq] at read
    cases read
    exact checkOutstanding_executedRecords identity reason atEpoch tail _
  · rw [reconciliations_signed, if_pos ⟨rfl, rfl⟩]
    omega

/-- **Two reconciliations of one spend.** Both count before either appends. -/
theorem Reaches.ahead (lawful : env.Lawful) (identity : SealedIdentity) (reason : String)
    (atEpoch : ℤ) :
    ∃ records calls, Reaches env (fun _ _ => True) records calls ∧
      consumptions (contentIdentity env.sha256Hex identity) records <
        reconciliations (contentIdentity env.sha256Hex identity) records := by
  obtain ⟨tail, spent⟩ := Reaches.executed onRereads_true lawful identity reason atEpoch
  have outstanding : ∀ tailHash, checkOutstanding env
      ⟨executedRecords env identity reason atEpoch tail, tailHash, false⟩ identity = .ok () :=
    checkOutstanding_executedRecords identity reason atEpoch tail
  have counted : Reaches env (fun _ _ => True) _ (Function.update (fun _ => .idle) 0
      (.reconciling identity reason atEpoch)) :=
    spent.reconcile onRereads_true rfl (outstanding _)
  obtain ⟨calls, first, second, countedTwice⟩ : ∃ calls : ℕ → Call,
      calls 0 = .reconciling identity reason atEpoch ∧
      calls 1 = .reconciling identity reason atEpoch ∧
      Reaches env (fun _ _ => True) (executedRecords env identity reason atEpoch tail) calls :=
    ⟨_, rfl, Function.update_self .., counted.reconcile onRereads_true rfl (outstanding _)⟩
  have rearmed := countedTwice.reread onRereads_true lawful second fun _ _ _ _ => trivial
  have waits : Function.update calls 1 .idle 0 = .reconciling identity reason atEpoch :=
    (Function.update_of_ne (by decide) _ _).trans first
  have rearmedTwice := rearmed.reread onRereads_true lawful waits fun _ _ _ _ => trivial
  refine ⟨_, _, rearmedTwice, ?_⟩
  simp [executedRecords, consumptions, reconciliations, signed, recordOf]

theorem causal_of_rearmed :
    ∃ state, (sealSystem plainEnvironment).ReachableUnder
        (OutstandingAtReread plainEnvironment) state ∧
      ∃ records, readLedger plainEnvironment state.store =
        .ok ⟨records, (ledgerFormat plainEnvironment).tail records, false⟩ ∧ Causal records ∧
        ∀ identity refusal, checkAuthority plainEnvironment
          ⟨records, (ledgerFormat plainEnvironment).tail records, false⟩ identity =
            .error refusal → ¬refusal.Corrupt := by
  obtain ⟨records, calls, ⟨state, finished, -, -, reached⟩, -⟩ :=
    Reaches.rearmed lawful_plainEnvironment sampleIdentity "owner" 1756000000
  exact ⟨state, reached, causal_of_reachable lawful_plainEnvironment
    collisionFree_plainEnvironment reached⟩

/-- Two owners re-arm one spend. -/
theorem exists_not_causal :
    ¬∀ (env : Environment) (state : Parties) (view : LedgerView), env.Lawful →
      (ledgerFormat env).CollisionFree → (sealSystem env).Reachable state →
      readLedger env state.store = .ok view → Causal view.records := by
  intro always
  obtain ⟨records, calls, ⟨state, finished, -, intact, reached⟩, ahead⟩ :=
    Reaches.ahead lawful_plainEnvironment sampleIdentity "owner" 1756000000
  have causal := always plainEnvironment state _ lawful_plainEnvironment
    collisionFree_plainEnvironment reached intact.readLedger_eq
  exact absurd (causal records List.prefix_rfl _) (Nat.not_le_of_lt ahead)

end TreeOptions.Seal
