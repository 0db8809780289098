import TreeOptions.Research.Store

/-!
# What a verified store says

The audit row of a write holds the hash of the payload, and `verify` never compares it with
the hash that the object claims now. A payload rewritten together with its hash is therefore
not seen (`rewritten_unseen`), and a verified store is sound exactly when every object claims
the hash that was audited last and every audited key was put (`verified_sound`). A store that
is written by its own calls alone always verifies and is sound.
-/

set_option autoImplicit false

namespace TreeOptions.Research

variable {env : StoreEnvironment}

/-! ## Soundness -/

/-- The last write of a key, and the payload written with it. -/
def lastEntry (recorded : List (AuditRow × List Char)) (key : String × String) :
    Option (AuditRow × List Char) :=
  (recorded.filter fun entry => entry.1.key = key).getLast?

/-- Each object holds the payload of the last write of its key in the audit trail, and the
objects are the keys that the audit trail put. -/
structure StoreState.Sound (state : StoreState) : Prop where
  payloads : ∀ row ∈ state.database.objects.rows,
    (lastEntry state.recorded row.key).map Prod.snd = some row.payloadJson
  keys : ∀ key, key ∈ state.database.objectKeys ↔
    ∃ row ∈ state.database.audit, row.action = "put" ∧ row.key = key

def lastAudited (audit : List AuditRow) (key : String × String) : Option AuditRow :=
  (audit.filter fun row => row.key = key).getLast?

/-- What `verify` leaves open: each object claims the hash that was audited last for its key,
and no key is audited that was never put. -/
structure Database.Recorded (db : Database) : Prop where
  hashes : ∀ row ∈ db.objects.rows,
    (lastAudited db.audit row.key).bind AuditRow.nextSha256 = some row.payloadSha256
  puts : ∀ row ∈ db.audit, ∃ first ∈ db.audit, first.action = "put" ∧ first.key = row.key

/-! ## What verification checks -/

/-- The committed head is the computed one, or there is no head and no content. -/
def Committed (env : StoreEnvironment) (db : Database) : Prop :=
  match db.auditHead with
  | none => db.audit = [] ∧ db.objects.rows = []
  | some cur => cur.head = computeHead env db

/-- The three checks. -/
structure Consistent (env : StoreEnvironment) (db : Database) : Prop where
  payloads : ∀ row ∈ db.objects.rows, env.sha256Hex row.payloadJson = row.payloadSha256
  keys : ∀ key, key ∈ db.objectKeys ↔ key ∈ db.auditedKeys
  head : Committed env db

variable {db : Database}

theorem checkPayloads_eq_ok {done : Unit} :
    checkPayloads env db = .ok done ↔
      ∀ row ∈ db.objects.rows, env.sha256Hex row.payloadJson = row.payloadSha256 := by
  rw [checkPayloads]
  split
  case h_1 row found =>
    have differs := List.find?_some found
    have isMember := List.mem_of_find?_eq_some found
    simp only [ne_eq, decide_not, Bool.not_eq_true', decide_eq_false_iff_not] at differs
    constructor
    · intro failed
      cases failed
    · intro all
      exact absurd (all row isMember) differs
  case h_2 nowhere =>
    constructor
    · intro _ row isMember
      simpa using List.find?_eq_none.mp nowhere row isMember
    · intro _
      rfl

theorem checkKeys_eq_ok {done : Unit} :
    checkKeys db = .ok done ↔ ∀ key, key ∈ db.objectKeys ↔ key ∈ db.auditedKeys := by
  rw [checkKeys, Checked.refuse_bind_eq_ok, Checked.refuse_eq_ok, not_not, not_not,
    List.filter_eq_nil_iff, List.filter_eq_nil_iff]
  constructor
  · rintro ⟨audited, present⟩ key
    constructor
    · intro isObject
      simpa using audited key isObject
    · intro isAudited
      simpa using present key (List.mem_dedup.mpr isAudited)
  · intro same
    constructor
    · intro key isObject
      simpa using (same key).mp isObject
    · intro key isAudited
      simpa using (same key).mpr (List.mem_dedup.mp isAudited)

theorem checkHead_eq_ok {done : Unit} : checkHead env db = .ok done ↔ Committed env db := by
  rw [checkHead, Committed]
  cases db.auditHead with
  | none =>
    rw [Checked.refuse_eq_ok]
    simp [computeHead]
  | some cur => rw [Checked.refuse_eq_ok, not_not]

/-- **Verification succeeds exactly on a consistent database.** -/
theorem verify_eq_ok {head : Head} :
    verify env db = .ok head ↔ Consistent env db ∧ head = computeHead env db := by
  rw [verify, Checked.bind_eq_ok]
  constructor
  · rintro ⟨_, payloads, rest⟩
    obtain ⟨_, keys, rest⟩ := Checked.bind_eq_ok.mp rest
    obtain ⟨_, committed, same⟩ := Checked.bind_eq_ok.mp rest
    exact ⟨⟨checkPayloads_eq_ok.mp payloads, checkKeys_eq_ok.mp keys,
      checkHead_eq_ok.mp committed⟩, (Except.ok.inj same).symm⟩
  · rintro ⟨consistent, rfl⟩
    refine ⟨⟨⟩, checkPayloads_eq_ok.mpr consistent.payloads, Checked.bind_eq_ok.mpr ?_⟩
    refine ⟨⟨⟩, checkKeys_eq_ok.mpr consistent.keys, Checked.bind_eq_ok.mpr ?_⟩
    exact ⟨⟨⟩, checkHead_eq_ok.mpr consistent.head, rfl⟩

/-! ## The audit trail -/

/-- Beside each audit row stands the payload whose hash it holds. -/
structure Trailed (env : StoreEnvironment) (state : StoreState) : Prop where
  rows : state.recorded.map Prod.fst = state.database.audit
  hashed : ∀ entry ∈ state.recorded, entry.1.nextSha256 = some (env.sha256Hex entry.2)

variable {state : StoreState}

theorem Trailed.lastAudited (trailed : Trailed env state) (key : String × String) :
    (lastAudited state.database.audit key).bind AuditRow.nextSha256 =
      ((lastEntry state.recorded key).map Prod.snd).map env.sha256Hex := by
  have selected : (state.database.audit.filter fun row => row.key = key) =
      (state.recorded.filter fun entry => entry.1.key = key).map Prod.fst := by
    rw [← trailed.rows, List.filter_map]
    rfl
  rw [Research.lastAudited, selected, List.getLast?_map, lastEntry]
  cases isLast : (state.recorded.filter fun entry => entry.1.key = key).getLast? with
  | none => rfl
  | some entry =>
    have isMember := List.mem_of_mem_filter (List.mem_of_getLast? isLast)
    simpa using trailed.hashed entry isMember

/-- **A consistent database is sound exactly when it is as recorded.** -/
theorem sound_iff_recorded (injective : Function.Injective env.sha256Hex)
    (trailed : Trailed env state) (consistent : Consistent env state.database) :
    state.Sound ↔ state.database.Recorded := by
  have hash : ∀ row ∈ state.database.objects.rows,
      ((lastEntry state.recorded row.key).map Prod.snd = some row.payloadJson ↔
        (lastAudited state.database.audit row.key).bind AuditRow.nextSha256 =
          some row.payloadSha256) := by
    intro row isMember
    rw [trailed.lastAudited, ← consistent.payloads row isMember, ← Option.map_some]
    exact (Option.map_injective injective).eq_iff.symm
  constructor
  · intro sound
    refine ⟨fun row isMember => (hash row isMember).mp (sound.payloads row isMember), ?_⟩
    intro row isMember
    exact (sound.keys row.key).mp ((consistent.keys row.key).mpr (List.mem_map_of_mem isMember))
  · intro recorded
    refine ⟨fun row isMember => (hash row isMember).mpr (recorded.hashes row isMember), ?_⟩
    intro key
    rw [consistent.keys]
    constructor
    · intro isAudited
      obtain ⟨row, isMember, rfl⟩ := List.mem_map.mp isAudited
      exact recorded.puts row isMember
    · rintro ⟨row, isMember, -, rfl⟩
      exact List.mem_map_of_mem isMember

/-! ## Single calls -/

/-- What one write leaves. -/
def StoreState.write (env : StoreEnvironment) (now : String) (state : StoreState)
    (row : ObjectRow) (action : String) (prev : Option String) : StoreState where
  database := record env now state.database row action prev
  recorded := state.recorded ++ [(row.audited action prev, row.payloadJson)]

theorem commit_same (state : StoreState) (payload : Json.Value) (sha : String) :
    state.commit payload (.ok (state.database, sha)) = state := by
  simp [StoreState.commit]

theorem commit_record (state : StoreState) (payload : Json.Value)
    (now action kind key atIso sha : String) (prev : Option String) :
    state.commit payload (.ok (record env now state.database
        (canonicalEntry env kind key payload atIso) action prev, sha)) =
      state.write env now (canonicalEntry env kind key payload atIso) action prev := by
  simp [StoreState.commit, StoreState.write, record, refreshHead, canonicalEntry]

/-- **What a call does**: nothing, or one write under a key that is new or was there. -/
theorem storeStep_eq {next : StoreState} {action : StoreAction}
    (taken : (storeSystem env).step state action = some next) :
    next = state ∨
    (∃ objects, action = .edit objects ∧
      next = { state with database := { state.database with objects } }) ∨
    ∃ row now name prev, row.payloadSha256 = env.sha256Hex row.payloadJson ∧
      (name = "put" ∨ (state.database.objects.find? row.key).isSome) ∧
      next = state.write env now row name prev := by
  cases action with
  | put kind payload key atIso now =>
    have committed := Option.some.inj taken
    revert committed
    fun_cases put env kind payload key atIso now state.database with
    | case2 => exact fun committed => .inl (committed.symm.trans (commit_same state payload _))
    | case4 =>
      rw [commit_record]
      exact fun committed => .inr (.inr ⟨_, now, "put", none, rfl, .inl rfl, committed.symm⟩)
    | _ => exact fun committed => .inl committed.symm
  | replace kind payload key atIso now =>
    have committed := Option.some.inj taken
    revert committed
    fun_cases replace env kind payload key atIso now state.database with
    | case3 _ entry cur found =>
      rw [commit_record]
      have isThere : (state.database.objects.find? entry.key).isSome :=
        Option.isSome_iff_exists.mpr ⟨cur, found⟩
      exact fun committed =>
        .inr (.inr ⟨_, now, "replace", some cur.payloadSha256, rfl, .inr isThere, committed.symm⟩)
    | _ => exact fun committed => .inl committed.symm
  | edit objects => exact .inr (.inl ⟨objects, rfl, (Option.some.inj taken).symm⟩)

/-! ## Runs -/

theorem Trailed.write (trailed : Trailed env state) {row : ObjectRow}
    (hashed : row.payloadSha256 = env.sha256Hex row.payloadJson) (now name : String)
    (prev : Option String) : Trailed env (state.write env now row name prev) := by
  constructor
  · simp [StoreState.write, record, refreshHead, trailed.rows]
  · exact List.forall_mem_append.mpr
      ⟨trailed.hashed, List.forall_mem_singleton.mpr (congrArg some hashed)⟩

theorem trailed_of_reachable (reached : (storeSystem env).Reachable state) : Trailed env state := by
  induction reached with
  | initial starts =>
    obtain rfl := starts
    refine ⟨rfl, ?_⟩
    intro entry isMember
    cases isMember
  | step before _ taken ih =>
    rcases storeStep_eq taken with rfl | ⟨objects, -, rfl⟩ |
      ⟨row, now, name, prev, hashed, -, rfl⟩
    · exact ih
    · exact ⟨ih.rows, ih.hashed⟩
    · exact ih.write hashed now name prev

def StoreAction.isEdit : StoreAction → Bool
  | .edit _ => true
  | .put .. => false
  | .replace .. => false

theorem lastAudited_concat (audit : List AuditRow) (row : AuditRow) (key : String × String) :
    lastAudited (audit ++ [row]) key =
      if row.key = key then some row else lastAudited audit key := by
  rw [lastAudited, List.filter_append, lastAudited]
  by_cases same : row.key = key
  · simp [same]
  · simp [same]

theorem intact_write (consistent : Consistent env state.database)
    (recorded : state.database.Recorded) {row : ObjectRow}
    (hashed : row.payloadSha256 = env.sha256Hex row.payloadJson) {name : String}
    (known : name = "put" ∨ (state.database.objects.find? row.key).isSome) (now : String)
    (prev : Option String) :
    Consistent env (state.write env now row name prev).database ∧
      (state.write env now row name prev).database.Recorded := by
  have rows : ∀ other, other ∈ (state.write env now row name prev).database.objects.rows ↔
      other = row ∨ other ∈ state.database.objects.rows ∧ other.key ≠ row.key := by
    intro other
    exact Table.mem_rows_put
  have audit : (state.write env now row name prev).database.audit =
      state.database.audit ++ [row.audited name prev] := rfl
  refine ⟨⟨?_, ?_, rfl⟩, ⟨?_, ?_⟩⟩
  · intro other isMember
    rcases (rows other).mp isMember with rfl | ⟨old, -⟩
    · exact hashed.symm
    · exact consistent.payloads other old
  · intro key
    rw [Database.objectKeys, Database.auditedKeys, audit, List.map_append, List.mem_append,
      ← Database.auditedKeys, ← consistent.keys, Database.objectKeys]
    constructor
    · intro isObject
      obtain ⟨other, isMember, rfl⟩ := List.mem_map.mp isObject
      rcases (rows other).mp isMember with rfl | ⟨old, -⟩
      · exact .inr (by simp)
      · exact .inl (List.mem_map_of_mem old)
    · rintro (isObject | isNew)
      · obtain ⟨other, isMember, rfl⟩ := List.mem_map.mp isObject
        by_cases same : other.key = row.key
        · exact List.mem_map.mpr ⟨row, (rows row).mpr (.inl rfl), same.symm⟩
        · exact List.mem_map_of_mem ((rows other).mpr (.inr ⟨isMember, same⟩))
      · obtain rfl : key = row.key := by simpa using isNew
        exact List.mem_map_of_mem ((rows row).mpr (.inl rfl))
  · intro other isMember
    rw [audit, lastAudited_concat, ObjectRow.key_audited]
    rcases (rows other).mp isMember with rfl | ⟨old, differs⟩
    · rw [if_pos rfl]
      rfl
    · rw [if_neg (Ne.symm differs)]
      exact recorded.hashes other old
  · intro entry isMember
    rw [audit] at isMember ⊢
    rcases List.mem_append.mp isMember with old | new
    · obtain ⟨first, isFirst, isPut, same⟩ := recorded.puts entry old
      exact ⟨first, List.mem_append_left _ isFirst, isPut, same⟩
    · obtain rfl := List.mem_singleton.mp new
      rcases known with rfl | isThere
      · exact ⟨_, List.mem_concat_self, rfl, rfl⟩
      · obtain ⟨held, found⟩ := Option.isSome_iff_exists.mp isThere
        obtain ⟨isHeld, same⟩ := Table.find?_eq_some_iff.mp found
        have isAudited := (consistent.keys row.key).mp (List.mem_map.mpr ⟨held, isHeld, same⟩)
        obtain ⟨earlier, isEarlier, same'⟩ := List.mem_map.mp isAudited
        obtain ⟨first, isFirst, isPut, same''⟩ := recorded.puts earlier isEarlier
        exact ⟨first, List.mem_append_left _ isFirst, isPut, same''.trans same'⟩

theorem intact_empty : Consistent env Database.empty ∧ Database.empty.Recorded := by
  refine ⟨⟨?_, fun key => Iff.rfl, ⟨rfl, rfl⟩⟩, ⟨?_, ?_⟩⟩
  · intro row isMember
    cases isMember
  · intro row isMember
    cases isMember
  · intro row isMember
    cases isMember

theorem intact_of_untouched
    (reached : (storeSystem env).ReachableUnder (fun _ action => action.isEdit = false) state) :
    Consistent env state.database ∧ state.database.Recorded := by
  induction reached with
  | initial starts =>
    obtain rfl := starts
    exact intact_empty
  | step before inside taken ih =>
    rcases storeStep_eq taken with rfl | ⟨objects, rfl, -⟩ |
      ⟨row, now, name, prev, hashed, known, rfl⟩
    · exact ih
    · cases inside
    · exact intact_write ih.1 ih.2 hashed known now prev

theorem reachable_of_untouched
    (reached : (storeSystem env).ReachableUnder (fun _ action => action.isEdit = false) state) :
    (storeSystem env).Reachable state := by
  induction reached with
  | initial starts => exact .initial starts
  | step before _ taken ih => exact ih.next taken

/-- **A verified store is sound exactly when it is as recorded**, and a store that its own calls
alone have written verifies and is sound. -/
theorem verified_sound (injective : Function.Injective env.sha256Hex) :
    (∀ state head, (storeSystem env).Reachable state → verify env state.database = .ok head →
      (state.Sound ↔ state.database.Recorded)) ∧
    (∀ state, (storeSystem env).ReachableUnder (fun _ action => action.isEdit = false) state →
      verify env state.database = .ok (computeHead env state.database) ∧ state.Sound) := by
  constructor
  · intro state head reached verified
    exact sound_iff_recorded injective (trailed_of_reachable reached) (verify_eq_ok.mp verified).1
  · intro state reached
    obtain ⟨consistent, recorded⟩ := intact_of_untouched reached
    have trailed := trailed_of_reachable (reachable_of_untouched reached)
    exact ⟨verify_eq_ok.mpr ⟨consistent, rfl⟩,
      (sound_iff_recorded injective trailed consistent).mpr recorded⟩

/-! ## A rewritten payload -/

/-- The row with another payload and the hash of that payload. -/
def ObjectRow.rewritten (env : StoreEnvironment) (row : ObjectRow) (body : List Char) : ObjectRow :=
  { row with payloadJson := body, payloadSha256 := env.sha256Hex body }

/-- **A payload that is rewritten together with its hash is not seen.** -/
theorem rewritten_unseen (consistent : Consistent env db) {row : ObjectRow}
    (isMember : row ∈ db.objects.rows) (body : List Char) :
    Consistent env { db with objects := db.objects.put (row.rewritten env body) } := by
  have found : db.objects.find? (row.rewritten env body).key = some row :=
    Table.find?_key isMember
  refine ⟨?_, ?_, ?_⟩
  · intro other isOther
    rcases Table.mem_rows_put.mp isOther with rfl | ⟨old, -⟩
    · rfl
    · exact consistent.payloads other old
  · intro key
    refine Iff.trans ?_ (consistent.keys key)
    constructor
    · intro isObject
      obtain ⟨other, isOther, rfl⟩ := List.mem_map.mp isObject
      rcases Table.mem_rows_put.mp isOther with rfl | ⟨old, -⟩
      · exact List.mem_map.mpr ⟨row, isMember, rfl⟩
      · exact List.mem_map_of_mem old
    · intro isObject
      obtain ⟨other, isOther, rfl⟩ := List.mem_map.mp isObject
      by_cases same : other.key = (row.rewritten env body).key
      · exact List.mem_map.mpr ⟨_, Table.mem_rows_put.mpr (.inl rfl), same.symm⟩
      · exact List.mem_map_of_mem (Table.mem_rows_put.mpr (.inr ⟨isOther, same⟩))
  · have same : computeHead env { db with objects := db.objects.put (row.rewritten env body) } =
        computeHead env db := by
      rw [computeHead, Table.length_rows_put_of_taken found]
      rfl
    have head := consistent.head
    rw [Committed] at head ⊢
    rw [same]
    cases committed : db.auditHead with
    | none =>
      rw [committed] at head
      rw [head.2] at isMember
      cases isMember
    | some cur =>
      rw [committed] at head
      exact head

theorem step_put_of_new {kind key : String} (known : kind ∈ kinds)
    (isNew : state.database.objects.find? (kind, key) = none) (payload : Json.Value)
    (atIso now : String) :
    (storeSystem env).step state (.put kind payload key atIso now) =
      some (state.write env now (canonicalEntry env kind key payload atIso) "put" none) := by
  rw [← commit_record state payload now "put" kind key atIso
    (canonicalEntry env kind key payload atIso).payloadSha256 none]
  simp [storeSystem, put, known, isNew]

/-- A stand-in for the hash: every text is its own. -/
def sampleEnvironment : StoreEnvironment where
  sha256Hex := String.ofList

theorem sampleEnvironment_injective : Function.Injective sampleEnvironment.sha256Hex :=
  fun _ _ same => String.ofList_injective same

def sampleRow : ObjectRow :=
  canonicalEntry sampleEnvironment "run" "r1" (.obj [("status", .str "queued")])
    "2026-09-25T10:00:00"

def emptyStore : StoreState :=
  ⟨Database.empty, []⟩

/-- One run was put. -/
def sampleStore : StoreState :=
  emptyStore.write sampleEnvironment "2026-09-25T10:00:01" sampleRow "put" none

theorem sampleStore_reached :
    (storeSystem sampleEnvironment).ReachableUnder (fun _ action => action.isEdit = false)
      sampleStore := by
  have taken : (storeSystem sampleEnvironment).step emptyStore
      (.put "run" (.obj [("status", .str "queued")]) "r1" "2026-09-25T10:00:00"
        "2026-09-25T10:00:01") = some sampleStore :=
    step_put_of_new (by simp [kinds]) rfl _ _ _
  exact .step (.initial rfl) rfl taken

/-- The run says that it is completed. -/
def completedBody : List Char :=
  canonicalBody (.obj [("status", .str "completed")])

/-- The store after the row was edited: another payload, and the hash of that payload. -/
def editedStore : StoreState :=
  { sampleStore with
    database :=
      { sampleStore.database with
        objects := sampleStore.database.objects.put
          (sampleRow.rewritten sampleEnvironment completedBody) } }

theorem verified_sound_sample :
    verify sampleEnvironment sampleStore.database =
      .ok (computeHead sampleEnvironment sampleStore.database) ∧ sampleStore.Sound :=
  (verified_sound sampleEnvironment_injective).2 sampleStore sampleStore_reached

theorem edited_store_verifies :
    (storeSystem sampleEnvironment).Reachable editedStore ∧
      verify sampleEnvironment editedStore.database =
        .ok (computeHead sampleEnvironment editedStore.database) ∧
      ¬ editedStore.Sound := by
  have isMember : sampleRow ∈ sampleStore.database.objects.rows :=
    Table.mem_rows_put.mpr (.inl rfl)
  refine ⟨?_, ?_, ?_⟩
  · have taken : (storeSystem sampleEnvironment).step sampleStore
        (.edit editedStore.database.objects) = some editedStore := rfl
    exact (reachable_of_untouched sampleStore_reached).next taken
  · exact verify_eq_ok.mpr ⟨rewritten_unseen (intact_of_untouched sampleStore_reached).1
      isMember completedBody, rfl⟩
  · intro sound
    have held := sound.payloads (sampleRow.rewritten sampleEnvironment completedBody)
      (Table.mem_rows_put.mpr (.inl rfl))
    have same : canonicalBody (.obj [("status", .str "queued")]) = completedBody :=
      Option.some.inj held
    revert same
    decide +kernel

end TreeOptions.Research
