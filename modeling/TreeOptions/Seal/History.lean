import TreeOptions.Seal.Parties

/-!
# What the ledger says of the past

Records that were read once stay at their places (`records_stay`), and before every consumption
stands an approval of its identity (`approved_of_reachable`), however the calls interleave.
-/

set_option autoImplicit false

namespace TreeOptions.Seal

/-- A read returns these records. -/
def SealStore.Holds (env : Environment) (store : SealStore) (records : List LedgerRecord) : Prop :=
  readLedger env store = .ok ⟨records, (ledgerFormat env).tail records, false⟩

/-- Before every consumption stands an approval that recomputes to its identity. -/
def Approved (env : Environment) (records : List LedgerRecord) : Prop :=
  ∀ before record, before ++ [record] <+: records → record.kind = .consumption →
    ∃ approval ∈ before, Approves env record.identity approval

/-- What a consumption needs of the records it was decided on. -/
def Allowed (env : Environment) (records : List LedgerRecord) (record : LedgerRecord) : Prop :=
  record.kind = .consumption → ∃ approval ∈ records, Approves env record.identity approval

variable {env : Environment} {state next first last : Parties} {finished : List UInt8}
  {records : List LedgerRecord} {record : LedgerRecord} {action : SealAction}

/-! ## Approvals -/

theorem allowed_of_decides (decided : Decides env state records action record) :
    Allowed env records record := by
  intro consumed
  cases decided with
  | consumption granted =>
    revert granted
    fun_cases checkAuthority env ⟨records, (ledgerFormat env).tail records, false⟩ _ with
    | case3 _ _ _ _ approved => exact fun _ => approved
    | _ =>
      intro granted
      cases granted
  | _ => cases consumed

theorem approved_concat (approved : Approved env records) (allowed : Allowed env records record) :
    Approved env (records ++ [signed env record]) := by
  intro before other starts
  rcases List.prefix_concat_iff.mp starts with whole | earlier
  · obtain ⟨rfl, isLast⟩ := List.append_inj' whole rfl
    obtain rfl := List.singleton_inj.mp isLast
    exact allowed
  · exact approved before other earlier

/-- **Nothing is consumed that was not approved.** -/
theorem approved_of_reachable (lawful : env.Lawful) (free : (ledgerFormat env).CollisionFree)
    (reached : (sealSystem env).Reachable state) :
    ∃ records, state.store.Holds env records ∧ Approved env records := by
  obtain ⟨records, ⟨finished, intact⟩, approved⟩ :=
    exists_history lawful free (fun _ _ starts => by simp at starts) (fun _ _ => approved_concat)
      (fun _ _ _ _ _ _ _ => allowed_of_decides) reached
  exact ⟨records, intact.readLedger_eq, approved⟩

theorem approved_of_executed : ∃ state, (sealSystem plainEnvironment).Reachable state ∧
    ∃ records, state.store.Holds plainEnvironment records ∧ Approved plainEnvironment records := by
  obtain ⟨tail, state, finished, -, intact, reached⟩ :=
    Reaches.executed onRereads_true lawful_plainEnvironment sampleIdentity "owner" 1756000000
  exact ⟨state, reached, approved_of_reachable lawful_plainEnvironment
    collisionFree_plainEnvironment reached⟩

/-! ## Records that stay -/

theorem Intact.extended (lawful : env.Lawful) (intact : Intact env state.store finished [] records)
    (taken : (sealSystem env).step state action = some next) :
    ∃ finished' added, Intact env next.store finished' [] (records ++ added) := by
  have same : records ++ [] = records := List.append_nil records
  rcases intact.step_cases taken with ⟨party, record, -, rfl⟩ | ⟨party, call, rfl, -⟩
  · by_cases named : record.prevRecordSha256 = (ledgerFormat env).tail records
    · exact ⟨_, _, intact.next lawful named⟩
    · exact ⟨finished, [], by rw [same]; exact (intact.refused fun _ => named).1⟩
  · exact ⟨finished, [], by rw [same]; exact intact⟩

theorem Intact.leads (lawful : env.Lawful) (intact : Intact env first.store finished [] records)
    (leads : (sealSystem env).Leads first last) :
    ∃ finished' added, Intact env last.store finished' [] (records ++ added) := by
  induction leads with
  | refl => exact ⟨finished, [], by rwa [List.append_nil]⟩
  | step before taken ih =>
    obtain ⟨_, added, intact'⟩ := ih
    obtain ⟨finished', added', intact'⟩ := intact'.extended lawful taken
    exact ⟨finished', added ++ added', by rwa [← List.append_assoc]⟩

end TreeOptions.Seal
