import TreeOptions.Runstate.Custody
import TreeOptions.Runstate.Record

/-!
# The transition journal

One JSON line per record, each chained to the one before it. An append works on
the bytes it finds under the lock: it refuses a torn tail, a tail other than the
one the record names and a journal that no longer holds its committed extent,
then writes the line, reads the bytes again and moves the extent forward
(`appendRecord`). A refusal after the write leaves the bytes as written.

The model keeps the bytes of the journal and the committed extent of its
companion.

An append that succeeds has done exactly what it says (`appendRecord_ok`).
Appends that succeed leave a journal whose lines are finished, read back to the
appended records and are pinned by the companion (`Built.committed`), and an
append to such a journal that names its tail succeeds (`Committed.appendRecord_eq`).
-/

set_option autoImplicit false

namespace TreeOptions.Runstate

variable (env : Environment)

/-! ## Replay -/

abbrev JournalView :=
  LogView JournalRecord

/-- Why an append or a replay is refused. -/
inductive JournalError where
  | unbound (journalBytes : ℕ)
  | vanished
  | line (number : ℕ)
  | extent (refusal : Custody.ExtentRefusal)
  | notAtTail
  | advance (refusal : Custody.AdvanceRefusal)
  | tornTail
  | concurrentWrite (prevRecordSha256 lockedTail : String)

/-- The journal's own replay verifier over decoded text. -/
def replayJournalText (text : List Char) : Except JournalError JournalView :=
  ((journalFormat env).replayText text).mapError .line

/-- The committed-extent rule applied to the journal's companion. -/
def checkJournalCommittedExtent (binding : Custody.NameBinding) (ledgerBytes : ℕ)
    (view : JournalView) (rawLedgerBytes : List UInt8) : Except JournalError Unit :=
  (Custody.checkCommittedExtent binding.extentSize binding.committedTailSha256 ledgerBytes
    view.tailHash rawLedgerBytes (replayJournalText env)).mapError .extent

/-! ## The store -/

/-- The journal file and the companion record, each absent until created. -/
structure JournalStore where
  journal : Option (List UInt8)
  companion : Option Custody.NameBinding

/-- Nothing was created yet. -/
def JournalStore.empty : JournalStore :=
  ⟨none, none⟩

def JournalStore.bytes (store : JournalStore) : List UInt8 :=
  store.journal.getD []

/-- The companion of an open journal, bound over the empty extent at creation. -/
def loadOrBindJournalName (store : JournalStore) : Except JournalError Custody.NameBinding :=
  match store.companion with
  | some binding => .ok binding
  | none =>
    if store.bytes.length ≠ 0 then .error (.unbound store.bytes.length)
    else .ok ⟨0, genesisPrev⟩

/-- Write the line, look at the tail again and move the extent. -/
def writeRecord (raw : List UInt8) (binding : Custody.NameBinding) (record : JournalRecord) :
    JournalStore × Except JournalError String :=
  let payload := Format.payload JournalRecord.line record
  let post := (journalFormat env).lockedTail (raw ++ payload)
  if post.tornTail = true ∨ post.tailHash ≠ record.recordSha256 then
    (⟨some (raw ++ payload), some binding⟩, .error .notAtTail)
  else match Custody.advanceNameBindingExtent (some binding) (raw.length + payload.length)
      record.recordSha256 with
    | .error refusal => (⟨some (raw ++ payload), some binding⟩, .error (.advance refusal))
    | .ok advanced => (⟨some (raw ++ payload), some advanced⟩, .ok record.recordSha256)

/-- Append one record: the store afterwards, and the record's hash or the refusal. -/
def appendRecord (store : JournalStore) (record : JournalRecord) :
    JournalStore × Except JournalError String :=
  let record := signed env record
  let raw := store.bytes
  match loadOrBindJournalName store with
  | .error refusal => (⟨some raw, store.companion⟩, .error refusal)
  | .ok binding =>
    let opened : JournalStore := ⟨some raw, some binding⟩
    let tailView := (journalFormat env).lockedTail raw
    if tailView.tornTail = true then (opened, .error .tornTail)
    else if tailView.tailHash ≠ record.prevRecordSha256 then
      (opened, .error (.concurrentWrite record.prevRecordSha256 tailView.tailHash))
    else match replayJournalText env (Text.decodeReplace raw) with
      | .error refusal => (opened, .error refusal)
      | .ok view =>
        match checkJournalCommittedExtent env binding raw.length view raw with
        | .error refusal => (opened, .error refusal)
        | .ok () => writeRecord env raw binding record

/-- Read the journal: an absent or unbound journal is empty, a bound one has to
hold its committed extent. -/
def replay (store : JournalStore) : Except JournalError JournalView :=
  match store.journal, store.companion with
  | none, none => .ok ⟨[], genesisPrev, false⟩
  | none, some _ => .error .vanished
  | some raw, none =>
    if raw.length ≠ 0 then .error (.unbound raw.length)
    else replayJournalText env (Text.decodeReplace [])
  | some raw, some binding => do
      let view ← replayJournalText env (Text.decodeReplace raw)
      checkJournalCommittedExtent env binding raw.length view raw
      return view

/-! ## What an append does -/

variable {env} {view : JournalView}

theorem replayJournalText_eq_ok {text : List Char} :
    replayJournalText env text = .ok view ↔ (journalFormat env).replayText text = .ok view := by
  rw [replayJournalText]
  cases (journalFormat env).replayText text <;> simp [Except.mapError]

variable {binding : Custody.NameBinding} {raw : List UInt8}

theorem checkJournalCommittedExtent_eq_ok {ledgerBytes : ℕ} :
    checkJournalCommittedExtent env binding ledgerBytes view raw = .ok () ↔
      Custody.checkCommittedExtent binding.extentSize binding.committedTailSha256 ledgerBytes
        view.tailHash raw (replayJournalText env) = .ok () := by
  rw [checkJournalCommittedExtent]
  cases Custody.checkCommittedExtent binding.extentSize binding.committedTailSha256 ledgerBytes
    view.tailHash raw (replayJournalText env) <;> simp [Except.mapError]

/-- What a successful append found and left. -/
structure Appended (env : Environment) (store : JournalStore) (record : JournalRecord)
    (next : JournalStore) (digest : String) (before after : List JournalRecord) : Prop where
  reads : (journalFormat env).Reads store.bytes before
  prev : record.prevRecordSha256 = (journalFormat env).tail before
  digest_eq : digest = recordHash env record
  next_eq : next =
    ⟨some (store.bytes ++ Format.payload JournalRecord.line (signed env record)),
      some ⟨(store.bytes ++ Format.payload JournalRecord.line (signed env record)).length,
        digest⟩⟩
  reads_after : (journalFormat env).Reads next.bytes after
  tail_after : (journalFormat env).tail after = digest

/-- What a successful write left. -/
theorem writeRecord_ok {record : JournalRecord} {next : JournalStore} {digest : String}
    (written : writeRecord env raw binding record = (next, .ok digest)) :
    digest = record.recordSha256 ∧
      next = ⟨some (raw ++ Format.payload JournalRecord.line record),
        some ⟨(raw ++ Format.payload JournalRecord.line record).length, digest⟩⟩ ∧
      ∃ after, (journalFormat env).Reads next.bytes after ∧
        (journalFormat env).tail after = digest := by
  unfold writeRecord at written
  dsimp only at written
  split at written
  case isTrue => simp at written
  case isFalse post =>
    split at written
    case h_1 => simp at written
    case h_2 advanced moved =>
      rw [not_or, not_not, Bool.not_eq_true] at post
      obtain ⟨rfl, rfl⟩ : _ = next ∧ _ = digest := by simpa using written
      obtain ⟨after, reads, tail⟩ := Format.reads_of_lockedTail post.1
      refine ⟨rfl, ?_, after, reads, ?_⟩
      · rw [Custody.advance_eq_ok moved, List.length_append]
      · rw [← tail, post.2]

theorem writeRecord_of_reads {record : JournalRecord} {records : List JournalRecord}
    (reads : (journalFormat env).Reads (raw ++ Format.payload JournalRecord.line record)
      (records ++ [record])) (within : binding.extentSize ≤ raw.length) :
    writeRecord env raw binding record =
      (⟨some (raw ++ Format.payload JournalRecord.line record),
        some ⟨(raw ++ Format.payload JournalRecord.line record).length, record.recordSha256⟩⟩,
        .ok record.recordSha256) := by
  have last : (journalFormat env).tail (records ++ [record]) = record.recordSha256 :=
    Linking.tail_concat _ _
  have forward : binding.extentSize ≤
      raw.length + (Format.payload JournalRecord.line record).length := by omega
  simp only [writeRecord, Format.lockedTail_of_reads reads, last,
    Custody.advance_of_le forward, List.length_append]
  simp

theorem writeRecord_of_readsTorn {record : JournalRecord} {records : List JournalRecord}
    (torn : (journalFormat env).ReadsTorn (raw ++ Format.payload JournalRecord.line record)
      records) :
    writeRecord env raw binding record =
      (⟨some (raw ++ Format.payload JournalRecord.line record), some binding⟩,
        .error .notAtTail) := by
  simp only [writeRecord, Format.lockedTail_of_readsTorn torn]
  simp

/-- **A successful append found a whole journal with the named tail, wrote the
record's line after it, and left a whole journal that ends in the record.** -/
theorem appendRecord_ok {store next : JournalStore} {record : JournalRecord} {digest : String}
    (appended : appendRecord env store record = (next, .ok digest)) :
    ∃ before after, Appended env store record next digest before after := by
  revert appended
  fun_cases appendRecord env store record with
  | case6 _ binding bound _ _ whole same view replayed held =>
    intro appended
    obtain ⟨digestEq, nextEq, after, readsAfter, tailAfter⟩ := writeRecord_ok appended
    obtain ⟨before, reads, tail⟩ := Format.reads_of_lockedTail (Bool.not_eq_true _ ▸ whole)
    have prev : record.prevRecordSha256 = (journalFormat env).tail before := by
      rw [← tail, not_not.mp same]
      rfl
    exact ⟨before, after, reads, prev, digestEq, nextEq, readsAfter, tailAfter⟩
  | _ => simp

/-- The locked view refuses a torn tail before it looks at anything else. -/
theorem appendRecord_of_readsTorn {store : JournalStore} {records : List JournalRecord}
    (torn : (journalFormat env).ReadsTorn store.bytes records) (record : JournalRecord)
    (bound : loadOrBindJournalName store = .ok binding) :
    appendRecord env store record = (⟨some store.bytes, some binding⟩, .error .tornTail) := by
  simp only [appendRecord, bound, Format.lockedTail_of_readsTorn torn]
  simp

/-- **An append that names the tail of a journal that holds its extent writes.** -/
theorem appendRecord_of_reads {store : JournalStore} {records : List JournalRecord}
    (reads : (journalFormat env).Reads store.bytes records) {record : JournalRecord}
    (prev : record.prevRecordSha256 = (journalFormat env).tail records)
    (bound : loadOrBindJournalName store = .ok binding)
    (held : checkJournalCommittedExtent env binding store.bytes.length
      ⟨records, (journalFormat env).tail records, false⟩ store.bytes = .ok ()) :
    appendRecord env store record =
      writeRecord env store.bytes binding (signed env record) := by
  have replayed : replayJournalText env (Text.decodeReplace store.bytes) =
      .ok ⟨records, (journalFormat env).tail records, false⟩ :=
    replayJournalText_eq_ok.mpr (Format.replay_of_reads reads)
  have named : (journalFormat env).tail records = (signed env record).prevRecordSha256 :=
    prev.symm
  rw [named] at replayed held
  simp only [appendRecord, bound, Format.lockedTail_of_reads reads, named, replayed, held]
  simp

theorem replay_of_held (replayed : (journalFormat env).replay raw = .ok view)
    (held : checkJournalCommittedExtent env binding raw.length view raw = .ok ()) :
    replay env ⟨some raw, some binding⟩ = .ok view := by
  have read : replayJournalText env (Text.decodeReplace raw) = .ok view :=
    replayJournalText_eq_ok.mpr replayed
  simp only [replay, read, bind, Except.bind, held]
  rfl

/-- **A journal that was only added to holds its extent.** -/
theorem checkJournalCommittedExtent_of_reads {pinned : List JournalRecord}
    (ends : Text.EndsLine raw) (reads : (journalFormat env).Reads raw pinned) (more : List UInt8)
    (untouched : more = [] → view.tailHash = (journalFormat env).tail pinned) :
    checkJournalCommittedExtent env ⟨raw.length, (journalFormat env).tail pinned⟩
      (raw ++ more).length view (raw ++ more) = .ok () :=
  checkJournalCommittedExtent_eq_ok.mpr
    (Custody.check_of_reads ends reads more untouched fun _ _ => replayJournalText_eq_ok.mpr)

theorem checkJournalCommittedExtent_self {records : List JournalRecord} (ends : Text.EndsLine raw)
    (reads : (journalFormat env).Reads raw records) :
    checkJournalCommittedExtent env ⟨raw.length, (journalFormat env).tail records⟩ raw.length
      ⟨records, (journalFormat env).tail records, false⟩ raw = .ok () := by
  have held := checkJournalCommittedExtent_of_reads ends reads []
    (show [] = [] → (⟨records, (journalFormat env).tail records, false⟩ : JournalView).tailHash =
      (journalFormat env).tail records from fun _ => rfl)
  rwa [List.append_nil] at held

/-! ## Journals that appends wrote -/

/-- A journal that only successful appends wrote, with its records. -/
inductive Built (env : Environment) : JournalStore → List JournalRecord → Prop where
  | empty : Built env .empty []
  | append {store next : JournalStore} {records : List JournalRecord} {record : JournalRecord}
      {digest : String} (before : Built env store records)
      (appended : appendRecord env store record = (next, .ok digest)) :
      Built env next (records ++ [signed env record])

/-- The lines of the journal are finished, they read, and the companion pins them. -/
structure Committed (env : Environment) (store : JournalStore)
    (records : List JournalRecord) : Prop where
  ends : Text.EndsLine store.bytes
  reads : (journalFormat env).Reads store.bytes records
  bound : loadOrBindJournalName store =
    .ok ⟨store.bytes.length, (journalFormat env).tail records⟩
  created : store.journal = none → store.companion = none

section Written

variable {store : JournalStore} {records : List JournalRecord}

theorem committed_empty : Committed env .empty [] where
  ends := .inl rfl
  reads := Format.reads_nil
  bound := rfl
  created _ := rfl

/-- A finished journal whose companion pins all of it. -/
theorem committed_of_reads {raw : List UInt8} (ends : Text.EndsLine raw)
    (reads : (journalFormat env).Reads raw records) :
    Committed env ⟨some raw, some ⟨raw.length, (journalFormat env).tail records⟩⟩ records :=
  ⟨ends, reads, rfl, nofun⟩

namespace Committed

variable {record : JournalRecord}

/-- **An append to a committed journal that names its tail succeeds.** -/
theorem appendRecord_eq (lawful : env.Lawful) (committed : Committed env store records)
    (prev : record.prevRecordSha256 = (journalFormat env).tail records) :
    appendRecord env store record =
      (⟨some (store.bytes ++ Format.payload JournalRecord.line (signed env record)),
        some ⟨(store.bytes ++ Format.payload JournalRecord.line (signed env record)).length,
          recordHash env record⟩⟩, .ok (recordHash env record)) := by
  have readsAfter := (writes_line lawful).reads_append committed.ends committed.reads
    (follows_signed prev)
  have held := checkJournalCommittedExtent_self committed.ends committed.reads
  rw [appendRecord_of_reads committed.reads prev committed.bound held,
    writeRecord_of_reads readsAfter (Nat.le_refl _)]
  rfl

theorem next (lawful : env.Lawful) (committed : Committed env store records)
    (prev : record.prevRecordSha256 = (journalFormat env).tail records) :
    Committed env (appendRecord env store record).1
      (records ++ [signed env record]) := by
  have readsAfter := (writes_line lawful).reads_append committed.ends committed.reads
    (follows_signed prev)
  have tail : (journalFormat env).tail (records ++ [signed env record]) =
      recordHash env record := Linking.tail_concat _ _
  rw [committed.appendRecord_eq lawful prev, ← tail]
  exact committed_of_reads (Format.endsLine_append_payload _ _ _) readsAfter

theorem stale (committed : Committed env store records)
    (prev : record.prevRecordSha256 ≠ (journalFormat env).tail records) :
    Committed env (appendRecord env store record).1 records := by
  have named : (journalFormat env).tail records ≠ (signed env record).prevRecordSha256 :=
    fun same => prev same.symm
  have refused : (appendRecord env store record).1 =
      ⟨some store.bytes, some ⟨store.bytes.length, (journalFormat env).tail records⟩⟩ := by
    simp only [appendRecord, committed.bound,
      Format.lockedTail_of_reads committed.reads, if_pos named]
    simp
  rw [refused]
  exact committed_of_reads committed.ends committed.reads

theorem replay_eq (committed : Committed env store records) :
    replay env store = .ok ⟨records, (journalFormat env).tail records, false⟩ := by
  obtain ⟨journal, companion⟩ := store
  obtain ⟨ends, reads, bound, created⟩ := committed
  cases journal with
  | none =>
    obtain rfl : companion = none := created rfl
    obtain rfl : records = [] := Format.Spells.unique reads Format.reads_nil
    rfl
  | some raw =>
    cases companion with
    | none =>
      rw [loadOrBindJournalName] at bound
      split at bound
      case h_1 _ some' => cases some'
      case h_2 =>
        split at bound
        case isTrue => cases bound
        case isFalse empty =>
          obtain rfl : raw = [] := List.eq_nil_of_length_eq_zero (not_not.mp empty)
          obtain rfl : records = [] := Format.Spells.unique reads Format.reads_nil
          rfl
    | some binding =>
      obtain rfl : binding = ⟨raw.length, (journalFormat env).tail records⟩ :=
        Except.ok.inj bound
      exact replay_of_held (Format.replay_of_reads reads)
        (checkJournalCommittedExtent_self ends reads)

end Committed

/-- **Successful appends leave a committed journal.** -/
theorem Built.committed (lawful : env.Lawful) (built : Built env store records) :
    Committed env store records := by
  induction built with
  | empty => exact committed_empty
  | @append store next records record digest before appended ih =>
    obtain ⟨found, after, done⟩ := appendRecord_ok appended
    obtain rfl : found = records := Format.Spells.unique done.reads ih.reads
    have committed := ih.next lawful done.prev
    rwa [appended] at committed

end Written

/-- The first record of a store created now. -/
def genesisRecord : JournalRecord where
  seq := 1
  kind := "GENESIS"
  fromState := none
  toState := some .planned
  reason := "store created"
  actorPid := 4242
  actorBootId := "boot-a"
  atEpoch := 1756000000
  manifestSha256 := none
  prevRecordSha256 := genesisPrev
  recordSha256 := ""

end TreeOptions.Runstate
