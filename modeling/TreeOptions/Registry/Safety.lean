import Mathlib.Logic.Relation
import TreeOptions.Registry.Connections

/-!
# Safety of the trial registry

However the connections interleave, and whatever budgets they were opened with
(`safe_of_reachable`):

* a scope never holds more trials than the cap that its first registration
  committed;
* a status moves along `REGISTERED`, `RUNNING`, `COMPLETED` or `FAILED` only, by at
  most one place in a step;
* a trial is completed or failed exactly when it has one outcome of that kind;
* outcomes, metrics and failure reasons stay as they were set.

The steps keep `Sound`, and `Persists` relates the tables before a step to those
after it.
-/

set_option autoImplicit false

namespace TreeOptions.Registry

/-! ## The invariant -/

/-- What the tables satisfy between two steps. -/
structure Sound (db : Database) : Prop where
  claimed : ∀ id outcome, db.outcomes.find? id = some outcome →
    ∃ trial, db.trials.find? id = some trial ∧ trial.status = outcome.kind.status
  recorded : ∀ id trial kind, db.trials.find? id = some trial → trial.status = kind.status →
    ∃ outcome, db.outcomes.find? id = some outcome ∧ outcome.kind = kind
  blank : ∀ id trial, db.trials.find? id = some trial →
    trial.status = .registered ∨ trial.status = .running →
    trial.metricsUri = none ∧ trial.failureReason = none
  capped : ∀ scopeKey, 0 < db.countScope scopeKey →
    ∃ commitment, db.scopeCommitments.find? scopeKey = some commitment ∧
      (db.countScope scopeKey : ℤ) ≤ commitment.cap
  committed : ∀ scopeKey commitment, db.scopeCommitments.find? scopeKey = some commitment →
    0 < db.countScope scopeKey

/-- One place further. -/
def Edge (source target : TrialStatus) : Prop :=
  source ∈ transitions target

/-- A trial later on: its status moved by the relation, and what was set is as it was. -/
structure Later (moves : TrialStatus → TrialStatus → Prop) (trial trial' : Trial) : Prop where
  status : moves trial.status trial'.status
  metricsUri : ∀ uri, trial.metricsUri = some uri → trial'.metricsUri = some uri
  failureReason : ∀ reason, trial.failureReason = some reason →
    trial'.failureReason = some reason

/-- The tables later on: no row was lost, outcomes and commitments are as they were,
and the trials are the later ones. -/
structure Persists (moves : TrialStatus → TrialStatus → Prop) (db later : Database) : Prop where
  trials : ∀ id trial, db.trials.find? id = some trial →
    ∃ trial', later.trials.find? id = some trial' ∧ Later moves trial trial'
  outcomes : ∀ id outcome, db.outcomes.find? id = some outcome →
    later.outcomes.find? id = some outcome
  commitments : ∀ scopeKey commitment, db.scopeCommitments.find? scopeKey = some commitment →
    later.scopeCommitments.find? scopeKey = some commitment

variable {env : Environment} {state next : Shared} {db : Database}

theorem OutcomeKind.status_injective : Function.Injective OutcomeKind.status := by
  intro first second
  cases first <;> cases second <;> decide

theorem Later.refl (trial : Trial) : Later (Relation.ReflGen Edge) trial trial :=
  ⟨.refl, fun _ => id, fun _ => id⟩

theorem Persists.refl (db : Database) : Persists (Relation.ReflGen Edge) db db :=
  ⟨fun _ trial found => ⟨trial, found, .refl trial⟩, fun _ _ => id, fun _ _ => id⟩

theorem Persists.mono {moves moves' : TrialStatus → TrialStatus → Prop} {later : Database}
    (persists : Persists moves db later)
    (weaker : ∀ source target, moves source target → moves' source target) :
    Persists moves' db later := by
  refine ⟨?_, persists.outcomes, persists.commitments⟩
  intro id trial found
  obtain ⟨trial', found', status, metricsUri, failureReason⟩ := persists.trials id trial found
  exact ⟨trial', found', weaker _ _ status, metricsUri, failureReason⟩

theorem Persists.trans {second third : Database}
    (first' : Persists (Relation.ReflTransGen Edge) db second)
    (second' : Persists (Relation.ReflTransGen Edge) second third) :
    Persists (Relation.ReflTransGen Edge) db third := by
  refine ⟨?_, fun id outcome found => second'.outcomes _ _
    (first'.outcomes _ _ found), fun scopeKey commitment found => second'.commitments _ _
    (first'.commitments _ _ found)⟩
  intro id trial found
  obtain ⟨trial', found', before⟩ := first'.trials id trial found
  obtain ⟨trial'', found'', after⟩ := second'.trials id trial' found'
  exact ⟨trial'', found'', before.status.trans after.status,
    fun uri set => after.metricsUri uri (before.metricsUri uri set),
    fun reason set => after.failureReason reason (before.failureReason reason set)⟩

/-! ## The scopes of the migration -/

theorem find?_foldl_insertOrIgnore (commit : String → ScopeCommitment)
    (keys : ∀ scopeKey, (commit scopeKey).scopeKey = scopeKey) (scopeKeys : List String)
    (commitments : Table ScopeCommitment.scopeKey) (scopeKey : String) :
    (scopeKeys.foldl (fun table k => table.insertOrIgnore (commit k)) commitments).find?
        scopeKey =
      (commitments.find? scopeKey).or
        (if scopeKey ∈ scopeKeys then some (commit scopeKey) else none) := by
  induction scopeKeys generalizing commitments with
  | nil => simp
  | cons first rest ih =>
    rw [List.foldl_cons, ih, Table.find?_insertOrIgnore, keys, Option.or_assoc]
    by_cases same : first = scopeKey
    · subst same
      simp
    · simp [same, Ne.symm same]

theorem countScope_pos {scopeKey : String} :
    0 < db.countScope scopeKey ↔ scopeKey ∈ db.trials.rows.map Trial.scopeKey := by
  rw [Database.countScope, Table.count, List.countP_pos_iff, List.mem_map]
  simp

/-- **The migration commits nothing new**: every scope with trials has its commitment. -/
theorem Sound.find?_migrateCommitments (sound : Sound db) (cap : ℤ) (scopeKey : String) :
    (migrateCommitments db cap).scopeCommitments.find? scopeKey =
      db.scopeCommitments.find? scopeKey := by
  refine (find?_foldl_insertOrIgnore (fun k => ⟨k, cap, "migrated-at-open"⟩) (fun _ => rfl)
    _ _ _).trans ?_
  split_ifs with holds
  · obtain ⟨commitment, found, -⟩ := sound.capped scopeKey (countScope_pos.mpr holds)
    rw [found]
    rfl
  · rw [Option.or_none]

/-! ## What the steps keep -/

theorem Sound.migrated (sound : Sound db) (cap : ℤ) : Sound (migrateCommitments db cap) where
  claimed := sound.claimed
  recorded := sound.recorded
  blank := sound.blank
  capped scopeKey holds := by
    rw [sound.find?_migrateCommitments]
    exact sound.capped scopeKey holds
  committed scopeKey commitment found := by
    rw [sound.find?_migrateCommitments] at found
    exact sound.committed scopeKey commitment found

theorem Sound.persists_migrated (sound : Sound db) (cap : ℤ) :
    Persists (Relation.ReflGen Edge) db (migrateCommitments db cap) where
  trials _ trial found := ⟨trial, found, .refl trial⟩
  outcomes _ _ := id
  commitments scopeKey commitment found := by
    rw [sound.find?_migrateCommitments]
    exact found

section Registration

variable {trial : Trial} {cap : ℤ} {after : Database}

section

variable (registration : Registration db trial cap after)

include registration

theorem Registration.find?_commitment (scopeKey : String) :
    ∃ committedAt, after.scopeCommitments.find? scopeKey =
      (db.scopeCommitments.find? scopeKey).or
        (if trial.scopeKey = scopeKey then some ⟨trial.scopeKey, cap, committedAt⟩ else none) := by
  obtain ⟨committedAt, inserted⟩ := registration.commitments
  exact ⟨committedAt, by rw [inserted, Table.find?_insertOrIgnore]⟩

theorem Registration.countScope (scopeKey : String) :
    after.countScope scopeKey =
      db.countScope scopeKey + if trial.scopeKey = scopeKey then 1 else 0 := by
  rw [Database.countScope, Table.count_insert registration.trials, Database.countScope]
  simp

theorem Registration.find?_own :
    ∃ commitment, after.scopeCommitments.find? trial.scopeKey = some commitment ∧
      commitment.cap = cap := by
  obtain ⟨committedAt, found⟩ := registration.find?_commitment trial.scopeKey
  cases before : db.scopeCommitments.find? trial.scopeKey with
  | none => exact ⟨_, by rw [found, before, if_pos rfl, Option.none_or], rfl⟩
  | some commitment =>
    exact ⟨commitment, by rw [found, before, Option.some_or],
      registration.agrees commitment before⟩

end

/-- **A registration keeps the invariant.** -/
theorem Sound.registered (sound : Sound db) (registration : Registration db trial cap after) :
    Sound after where
  claimed id outcome found := by
    rw [registration.outcomes] at found
    obtain ⟨trial', found', status⟩ := sound.claimed id outcome found
    refine ⟨trial', ?_, status⟩
    rw [Table.find?_insert registration.trials, if_neg, found']
    rintro rfl
    rw [(Table.insert_eq_some.mp registration.trials).1] at found'
    cases found'
  recorded id trial' kind found status := by
    rw [Table.find?_insert registration.trials] at found
    rw [registration.outcomes]
    split_ifs at found with same
    · cases found
      rw [registration.new.1] at status
      cases kind <;> cases status
    · exact sound.recorded id trial' kind found status
  blank id trial' found status := by
    rw [Table.find?_insert registration.trials] at found
    split_ifs at found with same
    · cases found
      exact registration.new.2
    · exact sound.blank id trial' found status
  capped scopeKey holds := by
    rw [registration.countScope] at holds ⊢
    split_ifs with same
    · subst same
      obtain ⟨commitment, found, rfl⟩ := registration.find?_own
      have room := registration.room
      exact ⟨commitment, found, by push_cast; omega⟩
    · rw [if_neg same, Nat.add_zero] at holds
      obtain ⟨commitment, found, within⟩ := sound.capped scopeKey holds
      obtain ⟨committedAt, found'⟩ := registration.find?_commitment scopeKey
      exact ⟨commitment, by rw [found', found, Option.some_or], by simpa using within⟩
  committed scopeKey commitment found := by
    rw [registration.countScope]
    obtain ⟨committedAt, found'⟩ := registration.find?_commitment scopeKey
    split_ifs with same
    · omega
    · rw [found', if_neg same, Option.or_none] at found
      have := sound.committed scopeKey commitment found
      omega

theorem Registration.persists (registration : Registration db trial cap after) :
    Persists (Relation.ReflGen Edge) db after where
  trials id trial' found := by
    refine ⟨trial', ?_, .refl trial'⟩
    rw [Table.find?_insert registration.trials, if_neg, found]
    rintro rfl
    rw [(Table.insert_eq_some.mp registration.trials).1] at found
    cases found
  outcomes id outcome found := by rwa [registration.outcomes]
  commitments scopeKey commitment found := by
    obtain ⟨committedAt, found'⟩ := registration.find?_commitment scopeKey
    rw [found', found, Option.some_or]

end Registration

section Recorded

variable {trialId : String} {kind : OutcomeKind} {columns : OutcomeColumns} {after : Database}

theorem Recorded.find?_outcomes (recorded : Recorded db trialId kind columns after) (id : String) :
    ∃ detail ts, after.outcomes.find? id =
      if trialId = id then some ⟨trialId, kind, detail, ts⟩ else db.outcomes.find? id := by
  obtain ⟨detail, ts, inserted⟩ := recorded.outcomes
  exact ⟨detail, ts, Table.find?_insert inserted id⟩

/-- **An outcome keeps the invariant.** -/
theorem Sound.recorded' (sound : Sound db) (recorded : Recorded db trialId kind columns after) :
    Sound after := by
  obtain ⟨trial, found, running, moved⟩ := recorded.trials
  refine ⟨?_, ?_,
    ?_, ?_,
    ?_⟩
  · intro id outcome claimed
    obtain ⟨detail, ts, outcomes⟩ := recorded.find?_outcomes id
    rw [outcomes] at claimed
    rw [moved]
    split_ifs at claimed with same
    · cases claimed
      exact ⟨_, if_pos same.symm, rfl⟩
    · rw [if_neg (Ne.symm same)]
      exact sound.claimed id outcome claimed
  · intro id trial' kind' found' status
    obtain ⟨detail, ts, outcomes⟩ := recorded.find?_outcomes id
    rw [moved] at found'
    rw [outcomes]
    split_ifs at found' with same
    · cases found'
      exact ⟨_, if_pos same.symm, OutcomeKind.status_injective status⟩
    · rw [if_neg (Ne.symm same)]
      exact sound.recorded id trial' kind' found' status
  · intro id trial' found' status
    rw [moved] at found'
    split_ifs at found' with same
    · cases found'
      cases kind <;> rcases status with status | status <;> cases status
    · exact sound.blank id trial' found' status
  · intro scopeKey holds
    rw [recorded.scopes] at holds ⊢
    rw [recorded.commitments]
    exact sound.capped scopeKey holds
  · intro scopeKey commitment found'
    rw [recorded.scopes]
    rw [recorded.commitments] at found'
    exact sound.committed scopeKey commitment found'

theorem Sound.persists_recorded (sound : Sound db)
    (recorded : Recorded db trialId kind columns after) :
    Persists (Relation.ReflGen Edge) db after := by
  obtain ⟨trial, found, running, moved⟩ := recorded.trials
  refine ⟨?_, ?_, ?_⟩
  · intro id trial' found'
    rw [moved]
    split_ifs with same
    · subst same
      cases found'.symm.trans found
      obtain ⟨noUri, noReason⟩ := sound.blank id trial found (.inr running)
      refine ⟨_, rfl, .single ?_, ?_, ?_⟩
      · rw [running]
        cases kind <;> exact List.mem_singleton_self _
      · intro uri set
        rw [noUri] at set
        cases set
      · intro reason set
        rw [noReason] at set
        cases set
    · exact ⟨trial', found', .refl trial'⟩
  · intro id outcome found'
    obtain ⟨detail, ts, outcomes⟩ := recorded.find?_outcomes id
    rw [outcomes, if_neg, found']
    rintro rfl
    obtain ⟨detail, ts, inserted⟩ := recorded.outcomes
    rw [(Table.insert_eq_some.mp inserted).1] at found'
    cases found'
  · intro scopeKey commitment
    rw [recorded.commitments]
    exact id

end Recorded

section Started

variable {trialId : String}

theorem find?_updateRunning (id : String) :
    (updateRunning db trialId).trials.find? id = (db.trials.find? id).map fun trial =>
      if mayMove trialId .running trial then { trial with status := .running } else trial :=
  find?_updateStatus db.trials .running id

theorem updateRunning_cases (trialId : String) {id : String} {trial : Trial}
    (found : db.trials.find? id = some trial) :
    (trial.status = .registered ∧ id = trialId ∧
      (updateRunning db trialId).trials.find? id = some { trial with status := .running }) ∨
    ((id = trialId → trial.status ≠ .registered) ∧
      (updateRunning db trialId).trials.find? id = some trial) := by
  rw [find?_updateRunning, found, Option.map_some]
  by_cases moves : mayMove trialId .running trial = true
  · have moves' := moves
    simp only [mayMove, transitions, Table.key_of_find? found, Bool.and_eq_true,
      decide_eq_true_eq, List.mem_singleton] at moves'
    exact .inl ⟨moves'.2, moves'.1, by rw [if_pos moves]⟩
  · have stays := moves
    simp only [mayMove, transitions, Table.key_of_find? found, Bool.and_eq_true,
      decide_eq_true_eq, List.mem_singleton, not_and] at stays
    exact .inr ⟨stays, by rw [if_neg moves]⟩

theorem find?_of_updateRunning {id : String} {trial' : Trial}
    (found : (updateRunning db trialId).trials.find? id = some trial') :
    ∃ trial, db.trials.find? id = some trial := by
  rw [find?_updateRunning] at found
  obtain ⟨trial, found', -⟩ := Option.map_eq_some_iff.mp found
  exact ⟨trial, found'⟩

theorem countScope_updateRunning (scopeKey : String) :
    (updateRunning db trialId).countScope scopeKey = db.countScope scopeKey :=
  countScope_updateStatus .running scopeKey

/-- **The update of a start keeps the invariant.** -/
theorem Sound.started (sound : Sound db) : Sound (updateRunning db trialId) where
  claimed id outcome found := by
    obtain ⟨trial, found', status⟩ := sound.claimed id outcome found
    rcases updateRunning_cases trialId found' with ⟨other, -, -⟩ | ⟨-, same⟩
    · rw [other] at status
      cases kind : outcome.kind <;> rw [kind] at status <;> cases status
    · exact ⟨trial, same, status⟩
  recorded id trial' kind found status := by
    obtain ⟨trial, found'⟩ := find?_of_updateRunning found
    rcases updateRunning_cases trialId found' with ⟨-, -, moved⟩ | ⟨-, same⟩
    · cases found.symm.trans moved
      cases kind <;> cases status
    · obtain rfl := Option.some.inj (same.symm.trans found)
      exact sound.recorded id trial kind found' status
  blank id trial' found status := by
    obtain ⟨trial, found'⟩ := find?_of_updateRunning found
    rcases updateRunning_cases trialId found' with ⟨was, -, moved⟩ | ⟨-, same⟩
    · cases found.symm.trans moved
      exact sound.blank id trial found' (.inl was)
    · obtain rfl := Option.some.inj (same.symm.trans found)
      exact sound.blank id trial found' status
  capped scopeKey holds := by
    rw [countScope_updateRunning] at holds ⊢
    exact sound.capped scopeKey holds
  committed scopeKey commitment found := by
    rw [countScope_updateRunning]
    exact sound.committed scopeKey commitment found

theorem persists_started :
    Persists (Relation.ReflGen Edge) db (updateRunning db trialId) where
  trials _ trial found := by
    rcases updateRunning_cases trialId found with ⟨was, -, moved⟩ | ⟨-, same⟩
    · refine ⟨_, moved, .single ?_, fun _ => id, fun _ => id⟩
      rw [was]
      exact List.mem_singleton_self _
    · exact ⟨trial, same, .refl trial⟩
  outcomes _ _ := id
  commitments _ _ := id

end Started

/-- The event of a start leaves the other tables. -/
theorem committed_insertRunning (env : Environment) (state : Shared) (trialId ts : String) :
    ∃ events, state.committed (insertRunning env state.database trialId ts) =
      { state.database with events } := by
  cases inserted : insertRunning env state.database trialId ts with
  | error refusal => exact ⟨state.database.events, rfl⟩
  | ok database => exact ⟨_, insertEvent_ok inserted⟩

/-- **What one step keeps, and how the tables move.** -/
theorem sound_step {action : RegistryAction} (sound : Sound state.database)
    (taken : state.step env action = some next) :
    Sound next.database ∧ Persists (Relation.ReflGen Edge) state.database next.database := by
  obtain ⟨connection, database, budget, call, change, rfl⟩ := step_cases taken
  show Sound database ∧ Persists (Relation.ReflGen Edge) state.database database
  cases change with
  | opened free => exact ⟨sound.migrated _, sound.persists_migrated _⟩
  | registered was registration =>
    exact ⟨sound.registered registration, registration.persists⟩
  | completed was recorded => exact ⟨sound.recorded' recorded, sound.persists_recorded recorded⟩
  | failed was recorded => exact ⟨sound.recorded' recorded, sound.persists_recorded recorded⟩
  | started was => exact ⟨sound.started, persists_started⟩
  | @logged _ trialId ts _ was inserted =>
    subst inserted
    obtain ⟨events, same⟩ := committed_insertRunning env state trialId ts
    rw [same]
    exact ⟨⟨sound.claimed, sound.recorded, sound.blank, sound.capped, sound.committed⟩,
      ⟨(Persists.refl state.database).trials, fun _ _ => id, fun _ _ => id⟩⟩
  | kept was before after => exact ⟨sound, .refl _⟩

/-! ## Safety -/

/-- The tables of a safe registry. -/
structure Safe (db : Database) : Prop where
  capped : ∀ scopeKey, db.countScope scopeKey = 0 ∨
    ∃ commitment, db.scopeCommitments.find? scopeKey = some commitment ∧
      (db.countScope scopeKey : ℤ) ≤ commitment.cap
  outcome_iff : ∀ trialId kind,
    (∃ trial ∈ db.trials.rows, trial.trialId = trialId ∧ trial.status = kind.status) ↔
      db.outcomes.count (fun outcome => outcome.trialId = trialId && outcome.kind = kind) = 1

/-- The first trial of a scope comes from a registration, and commits the scope to
the cap of the budget it was registered under. -/
def CommitsFirst (state : Shared) (action : RegistryAction) (next : Shared) : Prop :=
  ∀ scopeKey, state.database.countScope scopeKey = 0 → 0 < next.database.countScope scopeKey →
    ∃ connection record scope budget call commitment,
      action = .register connection record scope ∧
      state.connections connection = some ⟨budget, call⟩ ∧
      next.database.scopeCommitments.find? scopeKey = some commitment ∧
      commitment.cap = budget.cap

theorem Sound.safe (sound : Sound db) : Safe db where
  capped scopeKey := by
    rcases Nat.eq_zero_or_pos (db.countScope scopeKey) with none' | holds
    · exact .inl none'
    · exact .inr (sound.capped scopeKey holds)
  outcome_iff trialId kind := by
    have counted : db.outcomes.count
        (fun outcome => outcome.trialId = trialId && outcome.kind = kind) = _ :=
      Table.count_key db.outcomes trialId fun outcome => outcome.kind = kind
    rw [counted]
    constructor
    · rintro ⟨trial, member, rfl, status⟩
      obtain ⟨outcome, found, same⟩ := sound.recorded _ trial kind (Table.find?_key member) status
      simp [found, same]
    · intro one
      cases found : db.outcomes.find? trialId with
      | none => simp [found] at one
      | some outcome =>
        obtain ⟨trial, found', status⟩ := sound.claimed trialId outcome found
        obtain ⟨member, key⟩ := Table.find?_eq_some_iff.mp found'
        have same : outcome.kind = kind := by
          by_contra other
          simp [found, other] at one
        exact ⟨trial, member, key, same ▸ status⟩

theorem commitsFirst_step {action : RegistryAction} (taken : state.step env action = some next) :
    CommitsFirst state action next := by
  obtain ⟨connection, database, budget, call, change, rfl⟩ := step_cases taken
  intro scopeKey empty (holds : 0 < database.countScope scopeKey)
  have unchanged : database.countScope scopeKey = state.database.countScope scopeKey →
      CommitsFirst state action (state.put database connection budget call) := by
    intro same
    omega
  cases change with
  | opened free => exact unchanged rfl scopeKey empty holds
  | @registered _ record scope trial _ was registration =>
    rw [registration.countScope, empty, Nat.zero_add] at holds
    have same : trial.scopeKey = scopeKey := by
      by_contra other
      simp [other] at holds
    obtain ⟨commitment, found, cap⟩ := registration.find?_own
    exact ⟨connection, record, scope, budget, .idle, commitment, rfl, was, same ▸ found, cap⟩
  | completed was recorded => exact unchanged (recorded.scopes scopeKey) scopeKey empty holds
  | failed was recorded => exact unchanged (recorded.scopes scopeKey) scopeKey empty holds
  | started was => exact unchanged (countScope_updateRunning scopeKey) scopeKey empty holds
  | @logged _ trialId ts _ was inserted =>
    subst inserted
    obtain ⟨events, same⟩ := committed_insertRunning env state trialId ts
    exact unchanged (by rw [same]; rfl) scopeKey empty holds
  | kept was before after => exact unchanged rfl scopeKey empty holds

theorem sound_empty : Sound .empty where
  claimed _ _ found := by cases found
  recorded _ _ _ found := by cases found
  blank _ _ found := by cases found
  capped _ holds := by cases holds
  committed _ _ found := by cases found

/-- **The registry is safe**, whatever its connections do. -/
theorem safe_of_reachable (reached : (registrySystem env).Reachable state) :
    Safe state.database ∧
      (∀ action next, (registrySystem env).step state action = some next →
        Persists (Relation.ReflGen Edge) state.database next.database ∧
          CommitsFirst state action next) ∧
      ∀ later, (registrySystem env).Leads state later →
        Persists (Relation.ReflTransGen Edge) state.database later.database := by
  have sound : Sound state.database := by
    have initially : ∀ state, (registrySystem env).Initial state → Sound state.database := by
      rintro state rfl
      exact sound_empty
    exact System.Reachable.invariant initially
      (fun _ _ _ before taken => (sound_step before taken).1) reached
  refine ⟨sound.safe, fun action next taken =>
    ⟨(sound_step sound taken).2, commitsFirst_step taken⟩, ?_⟩
  intro later leads
  have runs : ∀ db db' : Database, Persists (Relation.ReflGen Edge) db db' →
      Persists (Relation.ReflTransGen Edge) db db' :=
    fun _ _ steps => steps.mono fun _ _ => Relation.ReflGen.to_reflTransGen
  exact (System.Leads.relates (fun state : Shared => Sound state.database)
    (fun first last : Shared =>
      Persists (Relation.ReflTransGen Edge) first.database last.database)
    (fun state => runs _ _ (.refl state.database)) (fun _ _ _ => Persists.trans)
    (fun _ _ _ before taken => (sound_step before taken).1)
    (fun _ _ _ before taken => runs _ _ (sound_step before taken).2) sound leads).2

theorem safe_of_registered :
    ∃ state : Shared, (registrySystem plainEnvironment).Reachable state ∧
      state.database.trials.rows.length = 1 ∧ Safe state.database ∧
      (∀ action next, (registrySystem plainEnvironment).step state action = some next →
        Persists (Relation.ReflGen Edge) state.database next.database ∧
          CommitsFirst state action next) ∧
      ∀ later, (registrySystem plainEnvironment).Leads state later →
        Persists (Relation.ReflTransGen Edge) state.database later.database := by
  obtain ⟨state, ran, one⟩ : ∃ state, (registrySystem plainEnvironment).run initialShared
      [.open 0 32, .register 0 sampleRecord (some sampleScope)] = some state ∧
      state.database.trials.rows.length = 1 := ⟨_, rfl, rfl⟩
  have starts : (registrySystem plainEnvironment).Reachable initialShared := .initial rfl
  have reached : (registrySystem plainEnvironment).Reachable state :=
    System.ReachableUnder.run starts (fun _ _ _ => trivial) ran
  exact ⟨state, reached, one, safe_of_reachable reached⟩

end TreeOptions.Registry
