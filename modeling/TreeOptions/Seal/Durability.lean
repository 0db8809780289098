import TreeOptions.Foundations.TransitionSystem
import TreeOptions.Seal.Ledger

/-!
# What the ledger keeps of an acknowledged append

A history of the ledger is a list of appends, crashes and reads. A crash stops an
append at one of its steps: the file was created, the companion was bound, some
bytes of the line were written, the companion was advanced, or the anchor was
(`crashAppend`).

The history remembers the records whose append returned a hash and the records
that each read returned. The next append that returns a hash is read back at once,
last, behind all of them (`readLedger_acknowledged`), as long as no crash took the
newline of a line and nothing else.

After such a crash the ledger reads as if the line were whole, and an append
writes behind it. The two records are then one line that nothing can read, both
extents are moved past it, and the hash is returned all the same; every read
afterwards is refused (`Intact.acknowledged_unfinished`).
-/

set_option autoImplicit false

namespace TreeOptions.Seal

open Runstate.Custody

/-! ## Histories -/

/-- Where a crash stops an append. -/
inductive CrashPoint where
  | created
  | companionBound
  | writing (cut : ℕ)
  | companionAdvanced
  | anchorAdvanced

variable (env : Environment)

/-- The store when an append of the record stopped. An append that refuses before
the write does not come to the later points. -/
def crashAppend (store : SealStore) (record : LedgerRecord) : CrashPoint → Option SealStore
  | .created => some { store with ledger := some store.bytes }
  | .companionBound =>
    match store.companion with
    | some _ => some { store with ledger := some store.bytes }
    | none =>
      if store.bytes.length ≠ 0 then none
      else some { store with ledger := some store.bytes, companion := some emptyExtent }
  | .writing cut =>
    match prepareAppend env store record with
    | (_, .error _) => none
    | (bound, .ok record) => some (bound.write record cut)
  | .companionAdvanced =>
    match prepareAppend env store record with
    | (_, .error _) => none
    | (bound, .ok record) =>
      let written := bound.writeAll record
      match advanceNameBindingExtent written.companion written.bytes.length
          record.recordSha256 with
      | .error _ => none
      | .ok companion => some { written with companion := some companion }
  | .anchorAdvanced =>
    match appendRecord env store record with
    | (_, .error _) => none
    | (done, .ok _) => some done

inductive HistoryAction where
  | append (record : LedgerRecord)
  | crash (record : LedgerRecord) (point : CrashPoint)
  | read

/-- The store, the records whose append returned their hash, in order, and what
each read returned. -/
structure History where
  store : SealStore
  acknowledged : List LedgerRecord
  viewed : List (List LedgerRecord)

def History.step (history : History) : HistoryAction → Option History
  | .append record =>
    match appendRecord env history.store record with
    | (next, .error _) => some { history with store := next }
    | (next, .ok _) =>
      some { history with
        store := next
        acknowledged := history.acknowledged ++ [signed env record] }
  | .crash record point =>
    (crashAppend env history.store record point).map fun next =>
      { history with store := next }
  | .read =>
    match readLedger env history.store with
    | .error _ => some history
    | .ok view => some { history with viewed := history.viewed ++ [view.records] }

def ledgerSystem : System History HistoryAction where
  Initial history := history = ⟨.empty, [], []⟩
  step := History.step env

/-- The write of a line does not stop between its text and its newline. -/
def NewlineKept (_ : History) : HistoryAction → Prop
  | .crash record (.writing cut) =>
    cut + 1 ≠ (Format.payload LedgerRecord.encode (signed env record)).length
  | _ => True

/-! ## What a crash leaves -/

variable {env}

namespace Intact

variable {store next : SealStore} {finished torn : List UInt8} {records : List LedgerRecord}
  {record : LedgerRecord}

/-- A store with its file created. -/
theorem opened (intact : Intact env store finished torn records) :
    Intact env { store with ledger := some store.bytes } finished torn records :=
  { intact with created := nofun }

theorem companionBound (intact : Intact env store finished torn records)
    (unbound : store.companion = none) :
    Intact env { store with ledger := some store.bytes, companion := some emptyExtent }
      finished torn records where
  split := intact.split
  ends := intact.ends
  reads := intact.reads
  tornReads := intact.tornReads
  companion _ found := Option.some.inj found ▸ pins_genesis finished
  anchor := intact.anchor
  created := nofun
  bound := nofun
  anchored _ := intact.anchored (intact.bound unbound)

/-- What a crash after the checks leaves, in terms of the bytes written. -/
theorem crash_write (lawful : env.Lawful) (intact : Intact env store finished [] records)
    (prev : record.prevRecordSha256 = (ledgerFormat env).tail records)
    {companion anchor : NameBinding} (companionPins : Pins (ledgerFormat env) finished companion)
    (anchorPins : Pins (ledgerFormat env) finished anchor) {cut : ℕ}
    (kept : cut + 1 ≠ (Format.payload LedgerRecord.encode (signed env record)).length) :
    ∃ finished' torn' records',
      Intact env (SealStore.write ⟨some finished, some companion, some anchor⟩
        (signed env record) cut) finished' torn' records' ∧ records <+: records' := by
  have writes := writes_encode lawful
  have size := writes.length_payload (signed env record)
  rcases Nat.eq_zero_or_pos cut with rfl | some'
  · -- no byte was written
    refine ⟨finished, [], records, ?_, List.prefix_rfl⟩
    rw [SealStore.write, List.take_zero, List.append_nil]
    exact of_pins_whole intact.ends intact.reads companionPins anchorPins
  · by_cases short : cut < (signed env record).encode.length
    · -- the line is torn
      refine ⟨finished, (Format.payload LedgerRecord.encode (signed env record)).take cut,
        records, ?_, List.prefix_rfl⟩
      exact of_pins intact.ends intact.reads
        (fun _ => writes.readsTorn_append_cut intact.ends intact.reads some' short)
        companionPins anchorPins
    · -- the line is whole, with its newline
      have whole : (Format.payload LedgerRecord.encode (signed env record)).take cut =
          Format.payload LedgerRecord.encode (signed env record) :=
        List.take_of_length_le (by omega)
      refine ⟨finished ++ Format.payload LedgerRecord.encode (signed env record), [],
        records ++ [signed env record], ?_, List.prefix_append _ _⟩
      rw [SealStore.write, whole]
      exact of_pins_whole (Format.endsLine_append_payload _ _ _)
        (intact.reads_append lawful prev) (companionPins.append _) (anchorPins.append _)

/-- **A crash that keeps the newline leaves a ledger the next step can go on
from.** -/
theorem crash (lawful : env.Lawful) (intact : Intact env store finished torn records)
    {point : CrashPoint}
    (kept : ∀ cut, point = .writing cut →
      cut + 1 ≠ (Format.payload LedgerRecord.encode (signed env record)).length)
    (crashed : crashAppend env store record point = some next) :
    ∃ finished' torn' records', Intact env next finished' torn' records' ∧
      records <+: records' := by
  obtain ⟨companion, anchor, companionPins, anchorPins, outcome⟩ :=
    intact.prepareAppend_cases record
  cases point with
  | created =>
    cases crashed
    exact ⟨_, _, _, intact.opened, List.prefix_rfl⟩
  | companionBound =>
    rw [crashAppend] at crashed
    split at crashed
    case h_1 =>
      cases crashed
      exact ⟨_, _, _, intact.opened, List.prefix_rfl⟩
    case h_2 unbound =>
      split at crashed
      case isTrue => cases crashed
      case isFalse =>
        cases crashed
        exact ⟨_, _, _, intact.companionBound unbound, List.prefix_rfl⟩
  | writing cut =>
    rcases outcome with ⟨rfl, prev, prepared⟩ | ⟨-, refusal, prepared⟩
    · rw [crashAppend, prepared] at crashed
      cases crashed
      exact intact.crash_write lawful prev companionPins anchorPins (kept cut rfl)
    · rw [crashAppend, prepared] at crashed
      cases crashed
  | companionAdvanced =>
    rcases outcome with ⟨rfl, prev, prepared⟩ | ⟨-, refusal, prepared⟩
    · have ends := Format.endsLine_append_payload finished LedgerRecord.encode
        (signed env record)
      have reads := intact.reads_append lawful prev
      have whole := pins_whole ends reads
      rw [Linking.tail_concat] at whole
      rw [crashAppend, prepared] at crashed
      dsimp only at crashed
      split at crashed
      case h_1 => cases crashed
      case h_2 advanced moved =>
        cases crashed
        obtain rfl := advance_eq_ok moved
        exact ⟨_, [], _, of_pins_whole ends reads whole (anchorPins.append _),
          List.prefix_append _ _⟩
    · rw [crashAppend, prepared] at crashed
      cases crashed
  | anchorAdvanced =>
    rw [crashAppend] at crashed
    split at crashed
    case h_1 => cases crashed
    case h_2 done digest appended =>
      cases crashed
      obtain ⟨rfl, prev⟩ := intact.of_appendRecord_ok appended
      have after := intact.next lawful prev
      rw [appended] at after
      exact ⟨_, _, _, after, List.prefix_append _ _⟩

end Intact

/-! ## Acknowledged records -/

/-- What every history that keeps its newlines satisfies: the ledger is intact, and
its records hold the acknowledged ones and start with whatever was read. -/
structure Durable (env : Environment) (history : History) (records : List LedgerRecord) :
    Prop where
  intact : ∃ finished torn, Intact env history.store finished torn records
  acknowledged : history.acknowledged.Sublist records
  viewed : ∀ view ∈ history.viewed, view <+: records

theorem Durable.grow {history : History} {records records' : List LedgerRecord}
    (durable : Durable env history records) (grown : records <+: records')
    {store : SealStore} (intact : ∃ finished torn, Intact env store finished torn records') :
    Durable env { history with store } records' :=
  ⟨intact, durable.acknowledged.trans grown.sublist,
    fun view member => (durable.viewed view member).trans grown⟩

theorem durable_step (lawful : env.Lawful) {history next : History} {action : HistoryAction}
    (durable : ∃ records, Durable env history records) (kept : NewlineKept env history action)
    (taken : history.step env action = some next) : ∃ records, Durable env next records := by
  obtain ⟨records, durable⟩ := durable
  obtain ⟨finished, torn, intact⟩ := durable.intact
  cases action with
  | append record =>
    rw [History.step] at taken
    by_cases goes : torn = [] ∧ record.prevRecordSha256 = (ledgerFormat env).tail records
    · obtain ⟨rfl, prev⟩ := goes
      have after := intact.next lawful prev
      have grown := durable.grow (List.prefix_append records [signed env record])
        ⟨_, _, after⟩
      rw [intact.appendRecord_eq prev] at taken grown
      cases taken
      exact ⟨_, grown.intact, durable.acknowledged.append_right _, grown.viewed⟩
    · obtain ⟨after, refusal, refused⟩ :=
        intact.refused fun whole prev => goes ⟨whole, prev⟩
      generalize appendRecord env history.store record = appended at taken after refused
      obtain ⟨store, _⟩ := appended
      subst refused
      cases taken
      exact ⟨_, durable.grow List.prefix_rfl ⟨_, _, after⟩⟩
  | crash record point =>
    obtain ⟨store, crashed, rfl⟩ := Option.map_eq_some_iff.mp taken
    obtain ⟨finished', torn', records', after, grown⟩ :=
      intact.crash lawful (fun cut at' => by rw [at'] at kept; exact kept) crashed
    exact ⟨_, durable.grow grown ⟨_, _, after⟩⟩
  | read =>
    rw [History.step, intact.readLedger_eq] at taken
    cases taken
    refine ⟨records, ⟨_, _, intact⟩, durable.acknowledged, ?_⟩
    simp only [List.forall_mem_append, List.forall_mem_singleton]
    exact ⟨durable.viewed, List.prefix_rfl⟩

theorem durable_of_reachable (lawful : env.Lawful) {history : History}
    (reached : (ledgerSystem env).ReachableUnder (NewlineKept env) history) :
    ∃ records, Durable env history records := by
  have initially : ∀ history, (ledgerSystem env).Initial history →
      ∃ records, Durable env history records := by
    rintro history rfl
    exact ⟨[], ⟨_, _, intact_empty⟩, List.Sublist.refl _, by simp⟩
  exact System.ReachableUnder.invariant initially (fun _ _ _ => durable_step lawful) reached

/-- **An acknowledged record is read back at once**, last, behind every record that
was acknowledged or read before. -/
theorem readLedger_acknowledged (lawful : env.Lawful) {history : History}
    (reached : (ledgerSystem env).ReachableUnder (NewlineKept env) history)
    {record : LedgerRecord} {next : SealStore} {digest : String}
    (appended : appendRecord env history.store record = (next, .ok digest)) :
    ∃ earlier, readLedger env next = .ok ⟨earlier ++ [signed env record], digest, false⟩ ∧
      history.acknowledged.Sublist earlier ∧ ∀ view ∈ history.viewed, view <+: earlier := by
  obtain ⟨records, durable⟩ := durable_of_reachable lawful reached
  obtain ⟨finished, torn, intact⟩ := durable.intact
  obtain ⟨rfl, prev⟩ := intact.of_appendRecord_ok appended
  have after := (intact.next lawful prev).readLedger_eq
  rw [intact.appendRecord_eq prev, Prod.mk.injEq, Except.ok.injEq] at appended
  obtain ⟨rfl, rfl⟩ := appended
  rw [intact.appendRecord_eq prev, Linking.tail_concat] at after
  exact ⟨records, after, durable.acknowledged, durable.viewed⟩

theorem readLedger_acknowledged_first :
    ∃ earlier, readLedger plainEnvironment
        (appendRecord plainEnvironment .empty (sampleRecord .approval genesisPrev)).1 =
        .ok ⟨earlier ++ [signed plainEnvironment (sampleRecord .approval genesisPrev)],
          recordHash plainEnvironment (sampleRecord .approval genesisPrev), false⟩ ∧
      [].Sublist earlier ∧ ∀ view ∈ ([] : List (List LedgerRecord)), view <+: earlier := by
  have prev : (sampleRecord .approval genesisPrev).prevRecordSha256 =
      (ledgerFormat plainEnvironment).tail [] := rfl
  have appended := intact_empty.appendRecord_eq prev
  have starts : (ledgerSystem plainEnvironment).ReachableUnder
      (NewlineKept plainEnvironment) ⟨.empty, [], []⟩ := .initial rfl
  rw [appended]
  exact readLedger_acknowledged lawful_plainEnvironment starts appended

/-! ## A lost newline -/

section Unfinished

variable {store : SealStore} {finished bytes : List UInt8} {records : List LedgerRecord}
  {companion anchor : NameBinding} {record last : LedgerRecord}

/-- The checks pass on every ledger that reads and holds what is pinned, also on
one whose last line lacks its newline. -/
theorem prepareAppend_of_reads (reads : (ledgerFormat env).Reads bytes records)
    (companionPins : Pins (ledgerFormat env) bytes companion)
    (anchorPins : Pins (ledgerFormat env) bytes anchor)
    (prev : record.prevRecordSha256 = (ledgerFormat env).tail records) :
    prepareAppend env ⟨some bytes, some companion, some anchor⟩ record =
      (⟨some bytes, some companion, some anchor⟩, .ok (signed env record)) := by
  have replayed : replayText env (Text.decodeReplace bytes) =
      .ok ⟨records, (ledgerFormat env).tail records, false⟩ :=
    replayText_eq_ok.mpr (Format.replay_of_reads reads)
  have held : ∀ binding, Pins (ledgerFormat env) bytes binding →
      checkCommittedExtent binding.extentSize binding.committedTailSha256 bytes.length
        ((ledgerFormat env).tail records) bytes (replayText env) = .ok () :=
    fun binding pins => pins.check reads fun _ _ => replayText_eq_ok.mpr
  simp only [prepareAppend, verifyOrBindLedgerName, SealStore.bytes, Option.getD_some, replayed,
    refuseAnchorExtentRollback, held companion companionPins, held anchor anchorPins, prev]
  simp [Except.mapError, bind, Except.bind]

theorem readLedger_of_readsTorn (torn : (ledgerFormat env).ReadsTorn bytes records)
    {tail : String} (other : (ledgerFormat env).tail records ≠ tail) :
    readLedger env ⟨some bytes, some companion, some ⟨bytes.length, tail⟩⟩ =
      .error (.anchorExtent (.rewritten bytes.length ((ledgerFormat env).tail records) tail)) := by
  have replayed : replayText env (Text.decodeReplace bytes) =
      .ok ⟨records, (ledgerFormat env).tail records, true⟩ :=
    replayText_eq_ok.mpr (Format.replay_of_readsTorn torn)
  have rewritten : checkCommittedExtent bytes.length tail bytes.length
      ((ledgerFormat env).tail records) bytes (replayText env) =
      .error (.rewritten bytes.length ((ledgerFormat env).tail records) tail) := by
    rw [checkCommittedExtent, if_neg (Nat.lt_irrefl _), if_pos rfl, if_pos other]
  simp only [readLedger, verifyBoundLedgerName, replayed, refuseAnchorExtentRollback, rewritten,
    bind, Except.bind, Except.mapError]

/-- The tail does not come back. -/
theorem tail_ne_recordHash (free : (ledgerFormat env).CollisionFree)
    (chained : (ledgerFormat env).Chained records)
    (prev : last.prevRecordSha256 = (ledgerFormat env).tail records)
    (prev' : record.prevRecordSha256 = recordHash env last) :
    (ledgerFormat env).tail records ≠ recordHash env record := by
  intro same
  have chainedLast : (ledgerFormat env).Chained (records ++ [signed env last]) :=
    Linking.chained_concat.mpr ⟨chained, follows_signed prev⟩
  have follows : (ledgerFormat env).Follows
      ((ledgerFormat env).tail (records ++ [signed env last])) (signed env record) := by
    rw [Linking.tail_concat]
    exact follows_signed prev'
  have tail : (ledgerFormat env).tail (records ++ [signed env last] ++ [signed env record]) =
      recordHash env record := Linking.tail_concat _ _
  have whole := Linking.eq_of_tail_eq free chained
    (Linking.chained_concat.mpr ⟨chainedLast, follows⟩) (same.trans tail.symm)
  have size := congrArg List.length whole
  simp only [List.length_append, List.length_singleton] at size
  omega

/-- **Behind a line that lost its newline an append is acknowledged, and no read
returns its record**: the two lines run together, and both extents cover them. -/
theorem Intact.acknowledged_unfinished (lawful : env.Lawful)
    (free : (ledgerFormat env).CollisionFree) (intact : Intact env store finished [] records)
    (prev : last.prevRecordSha256 = (ledgerFormat env).tail records) {cut : ℕ}
    (unfinished : cut + 1 =
      (Format.payload LedgerRecord.encode (signed env last)).length)
    (prev' : record.prevRecordSha256 = recordHash env last) :
    ∃ crashed next refusal, crashAppend env store last (.writing cut) = some crashed ∧
      appendRecord env crashed record = (next, .ok (recordHash env record)) ∧
      readLedger env next = .error refusal := by
  obtain ⟨companion, anchor, companionPins, anchorPins, ⟨-, -, prepared⟩ | ⟨other, -⟩⟩ :=
    intact.prepareAppend_cases last
  · have writes := writes_encode lawful
    obtain rfl : cut = (signed env last).encode.length := by
      rw [writes.length_payload] at unfinished
      omega
    have readsLast := writes.reads_append_whole intact.ends intact.reads (follows_signed prev)
      (Nat.le_refl (signed env last).encode.length)
    rw [writes.take_length_payload] at readsLast
    have named : record.prevRecordSha256 =
        (ledgerFormat env).tail (records ++ [signed env last]) := by
      rw [Linking.tail_concat]
      exact prev'
    have appended := appendRecord_of_prepared
      (prepareAppend_of_reads readsLast (companionPins.append _) (anchorPins.append _) named)
      (companionPins.append _).extentSize_le (anchorPins.append _).extentSize_le
    have merged := writes.readsTorn_append_merged intact.ends intact.reads (signed env last)
      (signed env record)
    rw [← List.append_assoc] at merged
    refine ⟨_, _, _, ?_, appended, readLedger_of_readsTorn merged
      (tail_ne_recordHash free intact.reads.chained prev prev')⟩
    rw [crashAppend, prepared, ← writes.take_length_payload]
    rfl
  · exact absurd prev (other rfl)

end Unfinished

theorem exists_not_readLedger_acknowledged :
    ¬∀ (env : Environment) (history : History) (record : LedgerRecord) (next : SealStore)
      (digest : String), env.Lawful → (ledgerFormat env).CollisionFree →
        (ledgerSystem env).Reachable history →
        appendRecord env history.store record = (next, .ok digest) →
        ∃ earlier, readLedger env next =
            .ok ⟨earlier ++ [signed env record], digest, false⟩ ∧
          history.acknowledged.Sublist earlier ∧
          ∀ view ∈ history.viewed, view <+: earlier := by
  intro always
  have prev : (sampleRecord .approval genesisPrev).prevRecordSha256 =
      (ledgerFormat plainEnvironment).tail [] := rfl
  obtain ⟨cut, unfinished⟩ : ∃ cut, cut + 1 = (Format.payload LedgerRecord.encode
      (signed plainEnvironment (sampleRecord .approval genesisPrev))).length :=
    ⟨_, ((writes_encode lawful_plainEnvironment).length_payload _).symm⟩
  obtain ⟨record, prev'⟩ : ∃ record : LedgerRecord, record.prevRecordSha256 =
      recordHash plainEnvironment (sampleRecord .approval genesisPrev) :=
    ⟨sampleRecord .approval _, rfl⟩
  obtain ⟨crashed, next, refusal, crash, appended, refused⟩ :=
    intact_empty.acknowledged_unfinished lawful_plainEnvironment
      collisionFree_plainEnvironment prev unfinished prev'
  have starts : (ledgerSystem plainEnvironment).Reachable ⟨.empty, [], []⟩ := .initial rfl
  have taken : (ledgerSystem plainEnvironment).step ⟨.empty, [], []⟩
      (.crash (sampleRecord .approval genesisPrev) (.writing cut)) =
        some ⟨crashed, [], []⟩ := by
    simp [ledgerSystem, History.step, crash]
  obtain ⟨earlier, read, -⟩ := always plainEnvironment ⟨crashed, [], []⟩ record next _
    lawful_plainEnvironment collisionFree_plainEnvironment (starts.next taken) appended
  rw [refused] at read
  cases read

end TreeOptions.Seal
