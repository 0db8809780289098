import TreeOptions.Registry.Safety

/-!
# The audit trail of the registry

The events of a trial are meant to be its history: `REGISTERED`, `RUNNING`, and then
`COMPLETED` or `FAILED`. They are, in every run in which nothing comes between the
reads of a start and its event (`trail_of_reachable`): the update of its status still
finds the trial registered, and no outcome of the trial is recorded between that
update and the event.

The update is guarded, and its number of rows is not looked at. Two connections that
start one trial at the same time both find it registered, one of them updates it, and
both insert an event (`racedStart`).
-/

set_option autoImplicit false

namespace TreeOptions.Registry

/-! ## Histories -/

/-- The kinds of a trial's events, in order. -/
def history (events : List Event) (trialId : String) : List TrialStatus :=
  (events.filter fun event => event.trialId = trialId).map Event.kind

/-- What the events of a trial of that status are meant to be. -/
def trail : TrialStatus → List TrialStatus
  | .registered => [.registered]
  | .running => [.registered, .running]
  | .completed => [.registered, .running, .completed]
  | .failed => [.registered, .running, .failed]

theorem trail_status (kind : OutcomeKind) :
    trail kind.status = trail .running ++ [kind.status] := by
  cases kind <;> rfl

theorem trail_prefix (status : TrialStatus) :
    ∃ kind : OutcomeKind, trail status <+: [.registered, .running, kind.status] := by
  cases status with
  | registered => exact ⟨.completed, _, rfl⟩
  | running => exact ⟨.completed, _, rfl⟩
  | completed => exact ⟨.completed, List.prefix_rfl⟩
  | failed => exact ⟨.failed, List.prefix_rfl⟩

theorem getLast?_trail (status : TrialStatus) : (trail status).getLast? = some status := by
  cases status <;> rfl

theorem history_concat (events : List Event) (event : Event) (trialId : String) :
    history (events ++ [event]) trialId =
      history events trialId ++ if event.trialId = trialId then [event.kind] else [] := by
  rw [history, List.filter_append, List.map_append, history]
  by_cases same : event.trialId = trialId <;> simp [same]

/-- The connection updated the status of the trial and has not inserted the event. -/
def Updated (state : Shared) (connection : ℕ) (trialId : String) : Prop :=
  ∃ budget ts, state.connections connection = some ⟨budget, .updated trialId ts⟩

/-- Nothing comes between the reads of a start and its event. -/
def Undisturbed (state : Shared) : RegistryAction → Prop
  | .updateStatus connection => ∀ budget trialId ts,
      state.connections connection = some ⟨budget, .checked trialId ts⟩ →
      ∃ trial, state.database.trials.find? trialId = some trial ∧ trial.status = .registered
  | .complete _ trialId _ _ | .fail _ trialId _ _ => ∀ trial,
      state.database.trials.find? trialId = some trial → trial.status = .running →
      ∀ connection, ¬Updated state connection trialId
  | _ => True

/-! ## The invariant -/

/-- The events of a trial of that status, as far as they are inserted: all of its
trail, or all but the event of the one start in progress. -/
def Tells (status : TrialStatus) (events : List TrialStatus) (updated : ℕ → Prop) : Prop :=
  (events = trail status ∧ ∀ connection, ¬updated connection) ∨
    (status = .running ∧ events = [.registered] ∧
      ∃ connection, ∀ other, updated other ↔ other = connection)

def TellsRow (row : Option Trial) (events : List TrialStatus) (updated : ℕ → Prop) : Prop :=
  match row with
  | none => events = [] ∧ ∀ connection, ¬updated connection
  | some trial => Tells trial.status events updated

/-- What the tables and the connections satisfy between two steps. -/
def Told (state : Shared) : Prop :=
  ∀ trialId, TellsRow (state.database.trials.find? trialId)
    (history state.database.events trialId) fun connection => Updated state connection trialId

variable {env : Environment} {state next : Shared} {connection : ℕ} {budget : TrialBudget}
  {database : Database} {call : Call}

variable {trialId : String}

theorem updated_put {other : ℕ} :
    Updated (state.put database connection budget call) other trialId ↔
      (other = connection ∧ ∃ ts, call = .updated trialId ts) ∨
        (other ≠ connection ∧ Updated state other trialId) := by
  by_cases same : other = connection
  · subst same
    simp [Updated, Shared.put]
  · simp [Updated, Shared.put, same]

/-- A connection that is between update and event neither before nor after. -/
theorem updated_put_iff {other : ℕ} (before : ¬Updated state connection trialId)
    (after : ∀ ts, call ≠ .updated trialId ts) :
    Updated (state.put database connection budget call) other trialId ↔
      Updated state other trialId := by
  rw [updated_put]
  constructor
  · rintro (⟨-, ts, same⟩ | ⟨-, updated⟩)
    · exact absurd same (after ts)
    · exact updated
  · intro updated
    refine .inr ⟨?_, updated⟩
    rintro rfl
    exact before updated

theorem not_updated_of_call {was' : Call} (was : state.connections connection = some ⟨budget, was'⟩)
    (other : ∀ ts, was' ≠ .updated trialId ts) : ¬Updated state connection trialId := by
  rintro ⟨budget', ts, updated⟩
  rw [was] at updated
  exact other ts (congrArg TrialRegistry.call (Option.some.inj updated))

/-- A trial that a step leaves alone. -/
theorem tellsRow_congr (told : Told state)
    (row : next.database.trials.find? trialId = state.database.trials.find? trialId)
    (events : history next.database.events trialId = history state.database.events trialId)
    (same : ∀ other, Updated next other trialId ↔ Updated state other trialId) :
    TellsRow (next.database.trials.find? trialId) (history next.database.events trialId)
      fun connection => Updated next connection trialId := by
  have calls : (fun connection => Updated next connection trialId) =
      fun connection => Updated state connection trialId :=
    funext fun other => propext (same other)
  rw [row, events, calls]
  exact told trialId

theorem history_concat_of_ne {events : List Event} {event : Event}
    (other : event.trialId ≠ trialId) :
    history (events ++ [event]) trialId = history events trialId := by
  rw [history_concat, if_neg other, List.append_nil]

/-- A trial is told in full when no start of it is in progress. -/
theorem tells_of_not_updated {status : TrialStatus} {events : List TrialStatus}
    {updated : ℕ → Prop} (tells : Tells status events updated)
    (none' : ∀ connection, ¬updated connection) : events = trail status := by
  rcases tells with ⟨whole, -⟩ | ⟨-, -, connection, updated⟩
  · exact whole
  · exact absurd ((updated connection).mpr rfl) (none' connection)

theorem Told.registered (told : Told state) {trial : Trial} {cap : ℤ}
    (was : state.connections connection = some ⟨budget, .idle⟩)
    (registration : Registration state.database trial cap database) :
    Told (state.put database connection budget .idle) := by
  intro trialId
  have same' : ∀ trialId other, Updated (state.put database connection budget .idle) other
      trialId ↔ Updated state other trialId :=
    fun _ _ => updated_put_iff (not_updated_of_call was nofun) nofun
  obtain ⟨payload, ts, events⟩ := registration.events
  by_cases same : trial.trialId = trialId
  · subst same
    have before := told trial.trialId
    rw [(Table.insert_eq_some.mp registration.trials).1] at before
    obtain ⟨none', apart⟩ := before
    have found : database.trials.find? trial.trialId = some trial := by
      rw [Table.find?_insert registration.trials, if_pos rfl]
    show TellsRow (database.trials.find? trial.trialId) (history database.events trial.trialId) _
    rw [found, events, history_concat, if_pos rfl, none']
    refine .inl ⟨by rw [registration.new.1]; rfl, ?_⟩
    intro other updated
    exact apart other ((same' _ other).mp updated)
  · refine tellsRow_congr told ?_ ?_ (same' trialId)
    · show database.trials.find? trialId = _
      rw [Table.find?_insert registration.trials, if_neg same]
    · show history database.events trialId = _
      rw [events, history_concat_of_ne same]

theorem Told.recorded (told : Told state) {kind : OutcomeKind} {columns : OutcomeColumns}
    (was : state.connections connection = some ⟨budget, .idle⟩)
    (recorded : Recorded state.database trialId kind columns database)
    (alone : ∀ trial, state.database.trials.find? trialId = some trial →
      trial.status = .running → ∀ connection, ¬Updated state connection trialId) :
    Told (state.put database connection budget .idle) := by
  intro id
  have same' : ∀ trialId other, Updated (state.put database connection budget .idle) other
      trialId ↔ Updated state other trialId :=
    fun _ _ => updated_put_iff (not_updated_of_call was nofun) nofun
  obtain ⟨trial, found, running, moved⟩ := recorded.trials
  obtain ⟨payload, ts, events⟩ := recorded.events
  by_cases same : trialId = id
  · subst same
    have apart := alone trial found running
    have before := told trialId
    rw [found] at before
    have whole := tells_of_not_updated before apart
    have found' : database.trials.find? trialId =
        some (columns.set { trial with status := kind.status }) := by
      rw [moved, if_pos rfl]
    show TellsRow (database.trials.find? trialId) (history database.events trialId) _
    rw [found', events, history_concat, if_pos rfl, whole, running]
    refine .inl ⟨(trail_status kind).symm, ?_⟩
    intro other updated
    exact apart other ((same' _ other).mp updated)
  · refine tellsRow_congr told ?_ ?_ (same' id)
    · show database.trials.find? id = _
      rw [moved, if_neg (Ne.symm same)]
    · show history database.events id = _
      rw [events, history_concat_of_ne same]

theorem Told.started (told : Told state) {ts : String}
    (was : state.connections connection = some ⟨budget, .checked trialId ts⟩)
    (registered : ∃ trial, state.database.trials.find? trialId = some trial ∧
      trial.status = .registered) :
    Told (state.put (updateRunning state.database trialId) connection budget
      (.updated trialId ts)) := by
  intro id
  have apart : ∀ id, ¬Updated state connection id := fun _ => not_updated_of_call was nofun
  by_cases same : trialId = id
  · subst same
    obtain ⟨trial, found, status⟩ := registered
    have before := told trialId
    rw [found] at before
    rcases before with ⟨whole, none'⟩ | ⟨running, -⟩
    · rcases updateRunning_cases trialId found with ⟨-, -, moved⟩ | ⟨other, -⟩
      · show TellsRow ((updateRunning state.database trialId).trials.find? trialId)
          (history state.database.events trialId) _
        rw [moved, whole, status]
        refine .inr ⟨rfl, rfl, connection, fun other => updated_put.trans ?_⟩
        constructor
        · rintro (⟨same, -⟩ | ⟨-, updated⟩)
          · exact same
          · exact absurd updated (none' other)
        · rintro rfl
          exact .inl ⟨rfl, ts, rfl⟩
      · exact absurd status (other rfl)
    · rw [status] at running
      cases running
  · refine tellsRow_congr told ?_ rfl fun other => updated_put_iff (apart id) ?_
    · show (updateRunning state.database trialId).trials.find? id = _
      cases found : state.database.trials.find? id with
      | none => rw [find?_updateRunning, found, Option.map_none]
      | some trial =>
        rcases updateRunning_cases trialId found with ⟨-, own, -⟩ | ⟨-, stays⟩
        · exact absurd own.symm same
        · exact stays
    · intro ts' updated
      exact same (Call.updated.inj updated).1

theorem Told.logged (lawful : env.Lawful) (told : Told state) {trialId ts : String}
    (was : state.connections connection = some ⟨budget, .updated trialId ts⟩) :
    Told (state.put (state.committed (insertRunning env state.database trialId ts)) connection
      budget .idle) := by
  intro id
  obtain ⟨payload, inserted⟩ : ∃ payload, insertRunning env state.database trialId ts =
      .ok { state.database with
        events := state.database.events ++ [⟨trialId, .running, payload, ts⟩] } :=
    ⟨_, by rw [insertRunning, insertEvent, lawful.accepts]; rfl⟩
  rw [inserted]
  by_cases same : trialId = id
  · subst same
    have mine : Updated state connection trialId := ⟨budget, ts, was⟩
    have before := told trialId
    cases found : state.database.trials.find? trialId with
    | none =>
      rw [found] at before
      exact absurd mine (before.2 connection)
    | some trial =>
      rw [found] at before
      rcases before with ⟨-, none'⟩ | ⟨running, first, only, unique⟩
      · exact absurd mine (none' connection)
      · obtain rfl := (unique connection).mp mine
        show TellsRow (state.database.trials.find? trialId)
          (history (state.database.events ++ [⟨trialId, .running, payload, ts⟩]) trialId) _
        rw [found, history_concat, if_pos rfl, first]
        refine .inl ⟨by rw [running]; rfl, ?_⟩
        intro other updated
        rcases updated_put.mp updated with ⟨-, ts', idle⟩ | ⟨other', updated⟩
        · cases idle
        · exact other' ((unique other).mp updated)
  · refine tellsRow_congr told rfl ?_ fun other => updated_put_iff ?_ ?_
    · exact history_concat_of_ne same
    · exact not_updated_of_call was fun ts' updated => same (Call.updated.inj updated).1
    · intro ts' idle
      cases idle

/-- **What an undisturbed step keeps.** -/
theorem told_step (lawful : env.Lawful) {action : RegistryAction} (told : Told state)
    (meets : Undisturbed state action)
    (taken : state.step env action = some next) : Told next := by
  obtain ⟨connection, database, budget, call, change, rfl⟩ := step_cases taken
  cases change with
  | opened free =>
    refine fun trialId => tellsRow_congr told rfl rfl fun other => updated_put_iff ?_ nofun
    rintro ⟨budget, ts, updated⟩
    rw [free] at updated
    cases updated
  | registered was registration => exact told.registered was registration
  | completed was recorded => exact told.recorded was recorded meets
  | failed was recorded => exact told.recorded was recorded meets
  | started was => exact told.started was (meets _ _ _ was)
  | logged was inserted =>
    subst inserted
    exact told.logged lawful was
  | kept was before after =>
    exact fun trialId => tellsRow_congr told rfl rfl fun other =>
      updated_put_iff (not_updated_of_call was (before trialId)) (after trialId)

/-! ## The trail -/

theorem told_of_reachable (lawful : env.Lawful)
    (reached : (registrySystem env).ReachableUnder Undisturbed state) : Told state := by
  have initially : ∀ state, (registrySystem env).Initial state → Told state := by
    rintro state rfl trialId
    exact ⟨rfl, fun connection ⟨budget, ts, updated⟩ => by cases updated⟩
  exact System.ReachableUnder.invariant initially (fun _ _ _ => told_step lawful) reached

theorem prefix_of_tellsRow {row : Option Trial} {events : List TrialStatus}
    {updated : ℕ → Prop} (tells : TellsRow row events updated) :
    ∃ kind : OutcomeKind, events <+: [.registered, .running, kind.status] := by
  cases row with
  | none => exact ⟨.completed, tells.1 ▸ List.nil_prefix⟩
  | some trial =>
    rcases tells with ⟨whole, -⟩ | ⟨-, first, -⟩
    · exact whole ▸ trail_prefix trial.status
    · exact ⟨.completed, first ▸ ⟨_, rfl⟩⟩

/-- **The events of a trial are its history**, when nothing comes between the reads of
a start and its event. -/
theorem trail_of_reachable (lawful : env.Lawful)
    (reached : (registrySystem env).ReachableUnder Undisturbed state) :
    (∀ trialId, ∃ kind : OutcomeKind,
        history state.database.events trialId <+: [.registered, .running, kind.status]) ∧
      ((∀ connection open', state.connections connection = some open' → open'.call = .idle) →
        ∀ trial ∈ state.database.trials.rows,
          (history state.database.events trial.trialId).getLast? = some trial.status) := by
  have told := told_of_reachable lawful reached
  refine ⟨fun trialId => prefix_of_tellsRow (told trialId), ?_⟩
  intro idle trial member
  have tells := told trial.trialId
  rw [Table.find?_key member] at tells
  have none' : ∀ connection, ¬Updated state connection trial.trialId := by
    rintro connection ⟨budget, ts, updated⟩
    cases idle connection _ updated
  rw [tells_of_not_updated tells none', getLast?_trail]

theorem trail_of_registered :
    ∃ state : Shared, (registrySystem plainEnvironment).ReachableUnder Undisturbed state ∧
      state.database.trials.rows.length = 1 ∧
      (∀ trialId, ∃ kind : OutcomeKind,
        history state.database.events trialId <+: [.registered, .running, kind.status]) ∧
      ((∀ connection open', state.connections connection = some open' → open'.call = .idle) →
        ∀ trial ∈ state.database.trials.rows,
          (history state.database.events trial.trialId).getLast? = some trial.status) := by
  obtain ⟨state, ran, one⟩ : ∃ state, (registrySystem plainEnvironment).run initialShared
      [.open 0 32, .register 0 sampleRecord (some sampleScope)] = some state ∧
      state.database.trials.rows.length = 1 := ⟨_, rfl, rfl⟩
  have meets : ∀ action ∈ [.open 0 32, .register 0 sampleRecord (some sampleScope)],
      ∀ state, Undisturbed state action := by
    intro action member state
    rcases List.mem_pair.mp member with rfl | rfl <;> trivial
  have starts : (registrySystem plainEnvironment).ReachableUnder Undisturbed initialShared :=
    .initial rfl
  have reached := System.ReachableUnder.run starts meets ran
  exact ⟨state, reached, one, trail_of_reachable lawful_plainEnvironment reached⟩

/-- Two connections that start one trial at the same time. -/
def racedStart : List RegistryAction :=
  [.open 0 32, .open 1 32, .register 0 sampleRecord (some sampleScope),
    .markRunning 0 "t1" "c0de" "c0f" "da7a" "2026-08-24T00:00:01+00:00",
    .markRunning 1 "t1" "c0de" "c0f" "da7a" "2026-08-24T00:00:02+00:00",
    .readStatus 0, .readStatus 1, .updateStatus 0, .insertEvent 0, .updateStatus 1, .insertEvent 1]

theorem exists_not_trail :
    ¬∀ (env : Environment) (state : Shared) (trialId : String), env.Lawful →
      (registrySystem env).Reachable state → ∃ kind : OutcomeKind,
        history state.database.events trialId <+: [.registered, .running, kind.status] := by
  intro always
  obtain ⟨state, ran, twice⟩ : ∃ state,
      (registrySystem plainEnvironment).run initialShared racedStart = some state ∧
      history state.database.events "t1" = [.registered, .running, .running] := ⟨_, rfl, rfl⟩
  have starts : (registrySystem plainEnvironment).Reachable initialShared := .initial rfl
  have reached : (registrySystem plainEnvironment).Reachable state :=
    System.ReachableUnder.run starts (fun _ _ _ => trivial) ran
  obtain ⟨kind, starts'⟩ := always plainEnvironment state "t1" lawful_plainEnvironment reached
  rw [twice] at starts'
  cases kind <;> exact absurd starts' (by decide)

end TreeOptions.Registry
