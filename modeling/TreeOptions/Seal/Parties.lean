import TreeOptions.Foundations.TransitionSystem
import TreeOptions.Seal.Authority

/-!
# Calls on one ledger

Any number of parties run calls on one ledger. A sealed run reads the ledger and
checks its authority, verifies its inputs, reads and checks again, and appends its
consumption. An approval or a note reads and appends. A reconciliation counts the
outstanding spends on one read, reads again for the tail it names, and appends.
Every read and every append is one step, and a call may be given up between two
steps.

What an append adds was decided on the view whose tail the record names. So an
invariant of the ledger follows from one fact for each decision: over the records
decided on, the new record keeps it (`exists_history`).
-/

set_option autoImplicit false

namespace TreeOptions.Seal

/-! ## Calls and steps -/

/-- What a party is doing. -/
inductive Call where
  | idle
  | verifying (identity : SealedIdentity) (reason : String) (atEpoch : ℤ)
  | reconciling (identity : SealedIdentity) (reason : String) (atEpoch : ℤ)
  | appending (record : LedgerRecord)

/-- The ledger and the calls on it. -/
structure Parties where
  store : SealStore
  calls : ℕ → Call

def Parties.call (state : Parties) (party : ℕ) (call : Call) : Parties :=
  { state with calls := Function.update state.calls party call }

/-- The steps of the calls. The first step of a call names its arguments. -/
inductive SealAction where
  | executeSealedRun (party : ℕ) (identity : SealedIdentity) (reason : String) (atEpoch : ℤ)
  | verified (party : ℕ)
  | appendApproval (party : ℕ) (identity : SealedIdentity) (reason : String) (atEpoch : ℤ)
  | appendReconciliationNote (party : ℕ) (identity : SealedIdentity) (reason : String)
      (atEpoch : ℤ)
  | appendReconciliation (party : ℕ) (identity : SealedIdentity) (reason : String)
      (atEpoch : ℤ)
  | reread (party : ℕ)
  | append (party : ℕ)
  | giveUp (party : ℕ)

variable (env : Environment)

/-- The record of a kind that names the tail of a view. -/
def recordOf (kind : RecordKind) (identity : SealedIdentity) (reason : String) (atEpoch : ℤ)
    (tailHash : String) : LedgerRecord where
  kind := kind
  identity := identity
  sealedRunId := sealedRunId env.sha256Hex identity
  contentIdentity := contentIdentity env.sha256Hex identity
  reason := reason
  atEpoch := atEpoch
  prevRecordSha256 := tailHash
  recordSha256 := ""

/-- A read by a party, which goes on with the view or is idle again. -/
def Parties.read (state : Parties) (party : ℕ) (goesOn : LedgerView → Call) : Parties :=
  match readLedger env state.store with
  | .error _ => state.call party .idle
  | .ok view => state.call party (goesOn view)

def Parties.step (state : Parties) : SealAction → Option Parties
  | .executeSealedRun party identity reason atEpoch =>
    match state.calls party with
    | .idle =>
      some (state.read env party fun view =>
        match checkAuthority env view identity with
        | .error _ => .idle
        | .ok () => .verifying identity reason atEpoch)
    | _ => none
  | .verified party =>
    match state.calls party with
    | .verifying identity reason atEpoch =>
      some (state.read env party fun view =>
        match checkAuthority env view identity with
        | .error _ => .idle
        | .ok () =>
          .appending (recordOf env .consumption identity reason atEpoch view.tailHash))
    | _ => none
  | .appendApproval party identity reason atEpoch =>
    match state.calls party with
    | .idle =>
      some (state.read env party fun view =>
        .appending (recordOf env .approval identity reason atEpoch view.tailHash))
    | _ => none
  | .appendReconciliationNote party identity reason atEpoch =>
    match state.calls party with
    | .idle =>
      some (state.read env party fun view =>
        .appending (recordOf env .reconciliationNote identity reason atEpoch view.tailHash))
    | _ => none
  | .appendReconciliation party identity reason atEpoch =>
    match state.calls party with
    | .idle =>
      some (state.read env party fun view =>
        match checkOutstanding env view identity with
        | .error _ => .idle
        | .ok () => .reconciling identity reason atEpoch)
    | _ => none
  | .reread party =>
    match state.calls party with
    | .reconciling identity reason atEpoch =>
      some (state.read env party fun view =>
        .appending (recordOf env .reconciliation identity reason atEpoch view.tailHash))
    | _ => none
  | .append party =>
    match state.calls party with
    | .appending record =>
      some { state.call party .idle with
        store := (appendRecord env state.store record).1 }
    | _ => none
  | .giveUp party => some (state.call party .idle)

/-- The calls on one ledger, from the first. -/
def sealSystem : System Parties SealAction where
  Initial state := state = ⟨.empty, fun _ => .idle⟩
  step := Parties.step env

/-! ## What is decided on a view -/

inductive Decides (state : Parties) (records : List LedgerRecord) :
    SealAction → LedgerRecord → Prop where
  | consumption {party : ℕ} {identity : SealedIdentity} {reason : String} {atEpoch : ℤ}
      (granted : checkAuthority env ⟨records, (ledgerFormat env).tail records, false⟩ identity =
        .ok ()) :
      Decides state records (.verified party)
        (recordOf env .consumption identity reason atEpoch ((ledgerFormat env).tail records))
  | approval {party : ℕ} {identity : SealedIdentity} {reason : String} {atEpoch : ℤ} :
      Decides state records (.appendApproval party identity reason atEpoch)
        (recordOf env .approval identity reason atEpoch ((ledgerFormat env).tail records))
  | note {party : ℕ} {identity : SealedIdentity} {reason : String} {atEpoch : ℤ} :
      Decides state records (.appendReconciliationNote party identity reason atEpoch)
        (recordOf env .reconciliationNote identity reason atEpoch
          ((ledgerFormat env).tail records))
  | reconciliation {party : ℕ} {identity : SealedIdentity} {reason : String} {atEpoch : ℤ}
      (waits : state.calls party = .reconciling identity reason atEpoch) :
      Decides state records (.reread party)
        (recordOf env .reconciliation identity reason atEpoch
          ((ledgerFormat env).tail records))

variable {env} {state next : Parties} {finished : List UInt8} {records : List LedgerRecord}

section

variable (intact : Intact env state.store finished [] records)

include intact

theorem Intact.read_eq (party : ℕ) (goesOn : LedgerView → Call) :
    state.read env party goesOn =
      state.call party (goesOn ⟨records, (ledgerFormat env).tail records, false⟩) := by
  rw [Parties.read, intact.readLedger_eq]
  rfl

/-- A read moves one party on, to what it decides from the records. -/
theorem Intact.of_read {action : SealAction} {party : ℕ} {goesOn : LedgerView → Call}
    (taken : some (state.read env party goesOn) = some next)
    (decides : ∀ record, goesOn ⟨records, (ledgerFormat env).tail records, false⟩ =
      .appending record → Decides env state records action record) :
    ∃ party call, next = state.call party call ∧
      ∀ record, call = .appending record → Decides env state records action record := by
  rw [intact.read_eq] at taken
  cases taken
  exact ⟨party, _, rfl, decides⟩

/-- **What a step does**: it appends what a party was about to append, or it leaves
the ledger and moves one party on. -/
theorem Intact.step_cases {action : SealAction} (taken : state.step env action = some next) :
    (∃ party record, state.calls party = .appending record ∧
        next = ⟨(appendRecord env state.store record).1,
          Function.update state.calls party .idle⟩) ∨
      ∃ party call, next = state.call party call ∧
        ∀ record, call = .appending record → Decides env state records action record := by
  revert taken
  fun_cases Parties.step env state action with
  | case1 | case9 =>
    intro taken
    refine .inr (intact.of_read taken ?_)
    intro record offers
    split at offers <;> cases offers
  | case3 party identity reason atEpoch =>
    intro taken
    refine .inr (intact.of_read taken ?_)
    intro record offers
    split at offers
    case h_1 => cases offers
    case h_2 granted =>
      cases offers
      exact .consumption granted
  | case5 =>
    intro taken
    refine .inr (intact.of_read taken ?_)
    rintro record ⟨⟩
    exact .approval
  | case7 =>
    intro taken
    refine .inr (intact.of_read taken ?_)
    rintro record ⟨⟩
    exact .note
  | case11 party identity reason atEpoch waits =>
    intro taken
    refine .inr (intact.of_read taken ?_)
    rintro record ⟨⟩
    exact .reconciliation waits
  | case13 party record waits =>
    rintro ⟨⟩
    exact .inl ⟨party, record, waits, rfl⟩
  | case15 party =>
    rintro ⟨⟩
    exact .inr ⟨party, .idle, rfl, nofun⟩
  | _ => nofun

end

theorem Decides.prev {action : SealAction} {record : LedgerRecord}
    (decided : Decides env state records action record) :
    record.prevRecordSha256 = (ledgerFormat env).tail records := by
  cases decided <;> rfl

/-! ## Histories that decisions keep -/

section Keeps

variable {continues : List LedgerRecord → LedgerRecord → Prop}
  {history : List LedgerRecord → Prop}

/-- The ledger holds a history, and every record about to be appended continues the
view it names. -/
structure Keeps (env : Environment) (continues : List LedgerRecord → LedgerRecord → Prop)
    (history : List LedgerRecord → Prop) (state : Parties) (records : List LedgerRecord) :
    Prop where
  intact : ∃ finished, Intact env state.store finished [] records
  history : history records
  offered : ∀ party record, state.calls party = .appending record →
    (ledgerFormat env).Offered continues record

theorem Keeps.update (keeps : Keeps env continues history state records) (party : ℕ)
    (call : Call) (offers : ∀ record, call = .appending record →
      (ledgerFormat env).Offered continues record) (other : ℕ) (record : LedgerRecord)
    (waits : Function.update state.calls party call other = .appending record) :
    (ledgerFormat env).Offered continues record := by
  by_cases same : other = party
  · subst same
    rw [Function.update_self] at waits
    exact offers record waits
  · rw [Function.update_of_ne same] at waits
    exact keeps.offered other record waits

theorem keeps_step (lawful : env.Lawful) (free : (ledgerFormat env).CollisionFree)
    (concat : ∀ records record, history records → continues records record →
      history (records ++ [signed env record]))
    {action : SealAction} (keeps : Keeps env continues history state records)
    (decides : ∀ record, Decides env state records action record → continues records record)
    (taken : state.step env action = some next) :
    ∃ records', Keeps env continues history next records' := by
  obtain ⟨finished, intact⟩ := keeps.intact
  rcases intact.step_cases taken with ⟨party, record, waits, rfl⟩ | ⟨party, call, rfl, offers⟩
  · have offered := keeps.offered party record waits
    have idle := keeps.update party .idle nofun
    by_cases named : record.prevRecordSha256 = (ledgerFormat env).tail records
    · have continues' := offered.continues free intact.reads.chained named
      exact ⟨_, ⟨_, intact.next lawful named⟩, concat _ _ keeps.history continues', idle⟩
    · exact ⟨records, ⟨_, (intact.refused fun _ => named).1⟩, keeps.history, idle⟩
  · refine ⟨records, ⟨_, intact⟩, keeps.history, keeps.update party call ?_⟩
    intro record offering
    have decided := offers record offering
    exact ⟨records, intact.reads.chained, decided.prev, decides record decided⟩

/-- **What every decision keeps of the view it was made on holds of the ledger**,
however the calls interleave. -/
theorem exists_history (lawful : env.Lawful) (free : (ledgerFormat env).CollisionFree)
    (nil : history [])
    (concat : ∀ records record, history records → continues records record →
      history (records ++ [signed env record]))
    {allowed : Parties → SealAction → Prop}
    (decides : ∀ state action finished records record, allowed state action →
      Intact env state.store finished [] records →
      Decides env state records action record → continues records record)
    (reached : (sealSystem env).ReachableUnder allowed state) :
    ∃ records, (∃ finished, Intact env state.store finished [] records) ∧ history records := by
  have initially : ∀ state, (sealSystem env).Initial state →
      ∃ records, Keeps env continues history state records := by
    rintro state rfl
    exact ⟨[], ⟨[], intact_empty⟩, nil, fun _ _ waits => by cases waits⟩
  have kept : ∀ state action next, (∃ records, Keeps env continues history state records) →
      allowed state action → (sealSystem env).step state action = some next →
      ∃ records, Keeps env continues history next records := by
    rintro state action next ⟨records, keeps⟩ meets taken
    obtain ⟨finished, intact⟩ := keeps.intact
    exact keeps_step lawful free concat keeps
      (fun record => decides state action finished records record meets intact) taken
  obtain ⟨records, keeps⟩ := System.ReachableUnder.invariant initially kept reached
  exact ⟨records, keeps.intact, keeps.history⟩

end Keeps

/-! ## Runs -/

/-- A run whose steps all meet the condition reaches a ledger with these records, the
parties in these calls. -/
def Reaches (env : Environment) (allowed : Parties → SealAction → Prop)
    (records : List LedgerRecord) (calls : ℕ → Call) : Prop :=
  ∃ state finished, state.calls = calls ∧ Intact env state.store finished [] records ∧
    (sealSystem env).ReachableUnder allowed state

/-- The condition is about the second reads of reconciliations only. -/
def OnRereads (allowed : Parties → SealAction → Prop) : Prop :=
  ∀ state action, (∀ party, action ≠ .reread party) → allowed state action

/-- The ledger of a sealed run that was approved and executed. -/
def executedRecords (env : Environment) (identity : SealedIdentity) (reason : String)
    (atEpoch : ℤ) (tail : String) : List LedgerRecord :=
  [signed env (recordOf env .approval identity reason atEpoch genesisPrev),
    signed env (recordOf env .consumption identity reason atEpoch tail)]

namespace Reaches

variable {allowed : Parties → SealAction → Prop} {calls calls' : ℕ → Call} {party : ℕ}
  {identity : SealedIdentity} {reason : String} {atEpoch : ℤ}

theorem initial : Reaches env allowed [] fun _ => .idle :=
  ⟨⟨.empty, fun _ => .idle⟩, [], rfl, intact_empty, .initial rfl⟩

/-- A step that leaves the ledger. -/
theorem step (reaches : Reaches env allowed records calls) (action : SealAction)
    (taken : ∀ (state : Parties) finished, state.calls = calls →
      Intact env state.store finished [] records →
      allowed state action ∧ state.step env action = some ⟨state.store, calls'⟩) :
    Reaches env allowed records calls' := by
  obtain ⟨state, finished, same, intact, reached⟩ := reaches
  obtain ⟨meets, steps⟩ := taken state finished same intact
  exact ⟨⟨state.store, calls'⟩, finished, rfl, intact, .step reached meets steps⟩

variable (rereads : OnRereads allowed)

include rereads

theorem append (lawful : env.Lawful) (reaches : Reaches env allowed records calls)
    {record : LedgerRecord} (waits : calls party = .appending record)
    (prev : record.prevRecordSha256 = (ledgerFormat env).tail records) :
    Reaches env allowed (records ++ [signed env record])
      (Function.update calls party .idle) := by
  obtain ⟨state, finished, rfl, intact, reached⟩ := reaches
  have taken : (sealSystem env).step state (.append party) =
      some ⟨(appendRecord env state.store record).1,
        Function.update state.calls party .idle⟩ := by
    simp only [sealSystem, Parties.step, Parties.call, waits]
  exact ⟨_, _, rfl, intact.next lawful prev, .step reached (rereads _ (.append party) nofun) taken⟩

/-- An approval, with no other append in between. -/
theorem approve (lawful : env.Lawful) (reaches : Reaches env allowed records calls)
    (idle : calls party = .idle) :
    Reaches env allowed (records ++ [signed env (recordOf env .approval identity reason atEpoch
      ((ledgerFormat env).tail records))]) (Function.update calls party .idle) := by
  have read : Reaches env allowed records (Function.update calls party (.appending
      (recordOf env .approval identity reason atEpoch ((ledgerFormat env).tail records)))) := by
    refine reaches.step (.appendApproval party identity reason atEpoch) ?_
    rintro state finished rfl intact
    refine ⟨rereads _ _ nofun, ?_⟩
    simp only [Parties.step, idle]
    rw [intact.read_eq]
    rfl
  have appended := read.append rereads lawful (Function.update_self ..) rfl
  rwa [Function.update_idem] at appended

theorem execute (lawful : env.Lawful) (reaches : Reaches env allowed records calls)
    (idle : calls party = .idle)
    (granted : checkAuthority env ⟨records, (ledgerFormat env).tail records, false⟩ identity =
      .ok ()) :
    Reaches env allowed (records ++ [signed env (recordOf env .consumption identity reason
      atEpoch ((ledgerFormat env).tail records))]) (Function.update calls party .idle) := by
  have first : Reaches env allowed records
      (Function.update calls party (.verifying identity reason atEpoch)) := by
    refine reaches.step (.executeSealedRun party identity reason atEpoch) ?_
    rintro state finished rfl intact
    refine ⟨rereads _ _ nofun, ?_⟩
    simp only [Parties.step, idle]
    rw [intact.read_eq]
    simp only [granted]
    rfl
  have second : Reaches env allowed records (Function.update calls party (.appending (recordOf
      env .consumption identity reason atEpoch ((ledgerFormat env).tail records)))) := by
    refine first.step (.verified party) ?_
    rintro state finished same intact
    refine ⟨rereads _ _ nofun, ?_⟩
    simp only [Parties.step, same, Function.update_self]
    rw [intact.read_eq]
    simp [granted, Parties.call, same]
  have appended := second.append rereads lawful (Function.update_self ..) rfl
  rwa [Function.update_idem] at appended

/-- The first read of a reconciliation that finds an outstanding spend. -/
theorem reconcile (reaches : Reaches env allowed records calls) (idle : calls party = .idle)
    (outstanding : checkOutstanding env ⟨records, (ledgerFormat env).tail records, false⟩
      identity = .ok ()) :
    Reaches env allowed records
      (Function.update calls party (.reconciling identity reason atEpoch)) := by
  refine reaches.step (.appendReconciliation party identity reason atEpoch) ?_
  rintro state finished rfl intact
  refine ⟨rereads _ _ nofun, ?_⟩
  simp only [Parties.step, idle]
  rw [intact.read_eq]
  simp only [outstanding]
  rfl

/-- The second read of a reconciliation, and its append. -/
theorem reread (lawful : env.Lawful) (reaches : Reaches env allowed records calls)
    (waits : calls party = .reconciling identity reason atEpoch)
    (meets : ∀ (state : Parties) finished, state.calls = calls →
      Intact env state.store finished [] records → allowed state (.reread party)) :
    Reaches env allowed (records ++ [signed env (recordOf env .reconciliation identity reason
      atEpoch ((ledgerFormat env).tail records))]) (Function.update calls party .idle) := by
  have read : Reaches env allowed records (Function.update calls party (.appending (recordOf env
      .reconciliation identity reason atEpoch ((ledgerFormat env).tail records)))) := by
    refine reaches.step (.reread party) ?_
    rintro state finished rfl intact
    refine ⟨meets state finished rfl intact, ?_⟩
    simp only [Parties.step, waits]
    rw [intact.read_eq]
    rfl
  have appended := read.append rereads lawful (Function.update_self ..) rfl
  rwa [Function.update_idem] at appended

/-- A sealed run that was approved and executed, with no other call in between. -/
theorem executed (lawful : env.Lawful) (identity : SealedIdentity) (reason : String)
    (atEpoch : ℤ) :
    ∃ tail, Reaches env allowed (executedRecords env identity reason atEpoch tail)
      fun _ => .idle := by
  have idle : Function.update (fun _ : ℕ => Call.idle) 0 .idle = fun _ => .idle :=
    Function.update_eq_self 0 _
  have approved : Reaches env allowed ([] ++ [signed env (recordOf env .approval identity reason
      atEpoch genesisPrev)]) (Function.update (fun _ => .idle) 0 .idle) :=
    initial.approve rereads lawful rfl
  rw [List.nil_append, idle] at approved
  have consumed : Reaches env allowed ([signed env (recordOf env .approval identity reason
      atEpoch genesisPrev)] ++ [signed env (recordOf env .consumption identity reason atEpoch _)])
      (Function.update (fun _ => .idle) 0 .idle) :=
    approved.execute rereads lawful rfl
      (by simp [checkAuthority, countSpends, signed, recordOf, Approves])
  rw [idle] at consumed
  exact ⟨_, consumed⟩

end Reaches

/-- No condition at all. -/
theorem onRereads_true : OnRereads fun _ _ => True :=
  fun _ _ _ => trivial

end TreeOptions.Seal
