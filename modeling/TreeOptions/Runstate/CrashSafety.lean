import TreeOptions.Runstate.Journal

/-!
# The journal after a crash

An append whose write was cut leaves the earlier lines and the first bytes of the
new one, and the companion still pins the earlier lines (`crashAppend`). What the
next append does depends on where the cut fell.

* No byte, or the whole line with its newline: the journal is finished, and the
  append succeeds.
* Some bytes, but not the whole line: the tail is torn, and the append refuses.
* The whole line without its newline: replay accepts the record, so the caller is
  told to chain to it. The append passes every check before the write, writes its
  line behind the unfinished one, and refuses only when it looks again. The bytes
  of both records are then one line that nothing can read.

So an append after a crash is safe exactly when the cut did not take the newline
alone (`appendSafe_crashAppend_iff`).
-/

set_option autoImplicit false

namespace TreeOptions.Runstate

/-- The store when the write of the line was cut: the first bytes of the line are
in the journal, and the extent was not advanced. -/
def crashAppend (env : Environment) (store : JournalStore) (record : JournalRecord)
    (cut : ℕ) : JournalStore :=
  match loadOrBindJournalName store with
  | .error _ => store
  | .ok binding =>
    ⟨some (store.bytes ++ (Format.payload JournalRecord.line (signed env record)).take cut),
      some binding⟩

/-- An append that refuses leaves the bytes as they were; one that succeeds adds
its record to the replayed ones, undamaged. -/
def AppendSafe (env : Environment) (store : JournalStore) (view : JournalView)
    (record : JournalRecord) : Prop :=
  match appendRecord env store record with
  | (next, .error _) => next.bytes = store.bytes
  | (next, .ok digest) =>
    replay env next = .ok ⟨view.records ++ [signed env record], digest, false⟩

variable {env : Environment} {store : JournalStore} {records : List JournalRecord}
  {raw : List UInt8} {pinned : List JournalRecord}

/-- A journal that was only added to holds what its companion pins. -/
theorem held_of_append {more : List UInt8} (pinnedEnds : Text.EndsLine raw)
    (pinnedReads : (journalFormat env).Reads raw pinned)
    (reads : (journalFormat env).Reads (raw ++ more) records) :
    checkJournalCommittedExtent env ⟨raw.length, (journalFormat env).tail pinned⟩
      (raw ++ more).length ⟨records, (journalFormat env).tail records, false⟩
      (raw ++ more) = .ok () := by
  refine checkJournalCommittedExtent_of_reads pinnedEnds pinnedReads more ?_
  rintro rfl
  rw [List.append_nil] at reads
  rw [Format.Spells.unique reads pinnedReads]

/-- **An append to a finished journal that was only added to is safe.** -/
theorem appendSafe_of_reads (lawful : env.Lawful) {more : List UInt8}
    (pinnedEnds : Text.EndsLine raw) (pinnedReads : (journalFormat env).Reads raw pinned)
    (ends : Text.EndsLine (raw ++ more)) (reads : (journalFormat env).Reads (raw ++ more) records)
    {record : JournalRecord} (prev : record.prevRecordSha256 = (journalFormat env).tail records) :
    AppendSafe env
      ⟨some (raw ++ more), some ⟨raw.length, (journalFormat env).tail pinned⟩⟩
      ⟨records, (journalFormat env).tail records, false⟩ record := by
  have readsAfter := (writes_line lawful).reads_append ends reads (follows_signed prev)
  have held := held_of_append pinnedEnds pinnedReads reads
  have within : raw.length ≤ (raw ++ more).length := by simp
  have written : appendRecord env
      ⟨some (raw ++ more), some ⟨raw.length, (journalFormat env).tail pinned⟩⟩ record = _ :=
    (appendRecord_of_reads reads prev rfl held).trans (writeRecord_of_reads readsAfter within)
  have tail : (journalFormat env).tail (records ++ [signed env record]) =
      (signed env record).recordSha256 := Linking.tail_concat _ _
  have replayed := Format.replay_of_reads readsAfter
  have heldAfter := checkJournalCommittedExtent_self
    (Format.endsLine_append_payload (raw ++ more) JournalRecord.line (signed env record))
    readsAfter
  rw [tail] at replayed heldAfter
  rw [AppendSafe, written]
  exact replay_of_held replayed heldAfter

/-- An append past a torn tail refuses and writes nothing. -/
theorem appendSafe_of_readsTorn {binding : Custody.NameBinding}
    (torn : (journalFormat env).ReadsTorn raw records) (view : JournalView) (record : JournalRecord)
    : AppendSafe env ⟨some raw, some binding⟩ view record := by
  have refused : appendRecord env ⟨some raw, some binding⟩ record = _ :=
    appendRecord_of_readsTorn torn record rfl
  rw [AppendSafe, refused]
  rfl

/-- **Behind a line that lacks its newline an append writes, and then refuses.** -/
theorem not_appendSafe_unfinished (lawful : env.Lawful) (ends : Text.EndsLine raw)
    (reads : (journalFormat env).Reads raw records) {last : JournalRecord}
    (follows : (journalFormat env).Follows
      ((journalFormat env).tail records) last) {record : JournalRecord}
    (prev : record.prevRecordSha256 = (journalFormat env).tail (records ++ [last]))
    (view : JournalView) : ¬AppendSafe env
      ⟨some (raw ++ Text.encode last.line),
        some ⟨raw.length, (journalFormat env).tail records⟩⟩ view record := by
  have writes := writes_line lawful
  have readsLast : (journalFormat env).Reads (raw ++ Text.encode last.line)
      (records ++ [last]) := by
    have unfinished := writes.reads_append_whole ends reads follows (Nat.le_refl _)
    rwa [writes.take_length_payload] at unfinished
  have merged := writes.readsTorn_append_merged ends reads last (signed env record)
  rw [← List.append_assoc] at merged
  have held := held_of_append ends reads readsLast
  have written : appendRecord env ⟨some (raw ++ Text.encode last.line),
      some ⟨raw.length, (journalFormat env).tail records⟩⟩ record = _ :=
    (appendRecord_of_reads readsLast prev rfl held).trans (writeRecord_of_readsTorn merged)
  rw [AppendSafe, written]
  intro unchanged
  have longer := congrArg List.length unchanged
  have size := writes.length_payload (signed env record)
  simp only [JournalStore.bytes, Option.getD_some, List.length_append] at longer
  omega

section Crash

variable {last : JournalRecord}

theorem Committed.crashAppend_eq (committed : Committed env store records) (cut : ℕ) :
    crashAppend env store last cut =
      ⟨some (store.bytes ++ (Format.payload JournalRecord.line (signed env last)).take cut),
        some ⟨store.bytes.length, (journalFormat env).tail records⟩⟩ := by
  rw [crashAppend, committed.bound]

theorem Committed.crash_unfinished (lawful : env.Lawful)
    (committed : Committed env store records)
    (prev : last.prevRecordSha256 = (journalFormat env).tail records) {cut : ℕ}
    (unfinished : cut + 1 = (Format.payload JournalRecord.line (signed env last)).length) :
    ∃ view, replay env (crashAppend env store last cut) = .ok view ∧
      ∀ record : JournalRecord, record.prevRecordSha256 = view.tailHash →
        ¬AppendSafe env (crashAppend env store last cut) view record := by
  have follows : (journalFormat env).Follows ((journalFormat env).tail records)
      (signed env last) := follows_signed prev
  have writes := writes_line lawful
  obtain rfl : cut = (signed env last).line.length := by
    rw [writes.length_payload] at unfinished
    omega
  have readsLast := writes.reads_append_whole committed.ends committed.reads follows
    (Nat.le_refl _)
  rw [committed.crashAppend_eq]
  refine ⟨_, replay_of_held (Format.replay_of_reads readsLast)
    (held_of_append committed.ends committed.reads readsLast), ?_⟩
  intro record prev'
  rw [writes.take_length_payload]
  exact not_appendSafe_unfinished lawful committed.ends committed.reads follows prev' _

theorem Committed.crash_safe (lawful : env.Lawful) (committed : Committed env store records)
    (prev : last.prevRecordSha256 = (journalFormat env).tail records) {cut : ℕ}
    (other : cut + 1 ≠ (Format.payload JournalRecord.line (signed env last)).length) :
    ∃ view, replay env (crashAppend env store last cut) = .ok view ∧
      ∀ record : JournalRecord, record.prevRecordSha256 = view.tailHash →
        AppendSafe env (crashAppend env store last cut) view record := by
  obtain ⟨ends, reads, bound, created⟩ := committed
  have writes := writes_line lawful
  have size := writes.length_payload (signed env last)
  rw [Committed.crashAppend_eq ⟨ends, reads, bound, created⟩]
  rcases Nat.eq_zero_or_pos cut with rfl | some'
  · -- no byte was written
    have reads' : (journalFormat env).Reads (store.bytes ++ []) records := by
      rwa [List.append_nil]
    refine ⟨_, replay_of_held (Format.replay_of_reads reads')
      (held_of_append ends reads reads'), ?_⟩
    intro record prev'
    exact appendSafe_of_reads lawful ends reads (by rwa [List.append_nil]) reads' prev'
  · by_cases short : cut < (signed env last).line.length
    · -- the line is not complete
      have torn := writes.readsTorn_append_cut ends reads some' short
      have held := checkJournalCommittedExtent_of_reads ends reads
        ((Format.payload JournalRecord.line (signed env last)).take cut)
        (show _ → (⟨records, (journalFormat env).tail records, true⟩ : JournalView).tailHash =
          (journalFormat env).tail records from fun _ => rfl)
      exact ⟨_, replay_of_held (Format.replay_of_readsTorn torn) held,
        fun record _ => appendSafe_of_readsTorn torn _ record⟩
    · -- the whole line was written, with its newline
      have whole : (Format.payload JournalRecord.line (signed env last)).take cut =
          Format.payload JournalRecord.line (signed env last) :=
        List.take_of_length_le (by omega)
      have readsLast := writes.reads_append ends reads (follows_signed prev)
      rw [whole]
      refine ⟨_, replay_of_held (Format.replay_of_reads readsLast)
        (held_of_append ends reads readsLast), ?_⟩
      intro record prev'
      exact appendSafe_of_reads lawful ends reads (Format.endsLine_append_payload _ _ _)
        readsLast prev'

end Crash

/-- **Replay of a crashed journal, and what the next append does to it.** Replay
accepts every cut, and the append that names the replayed tail is safe exactly
when the cut did not take the newline alone. -/
theorem appendSafe_crashAppend_iff (lawful : env.Lawful) (built : Built env store records)
    {last : JournalRecord} {done : JournalStore} {digest : String}
    (appended : appendRecord env store last = (done, .ok digest)) (cut : ℕ) :
    ∃ view, replay env (crashAppend env store last cut) = .ok view ∧
      ∀ record : JournalRecord, record.prevRecordSha256 = view.tailHash →
        (AppendSafe env (crashAppend env store last cut) view record ↔
          cut + 1 ≠ (Format.payload JournalRecord.line (signed env last)).length) := by
  have committed := built.committed lawful
  obtain ⟨found, after, found'⟩ := appendRecord_ok appended
  obtain rfl : found = records := Format.Spells.unique found'.reads committed.reads
  by_cases unfinished : cut + 1 = (Format.payload JournalRecord.line (signed env last)).length
  · obtain ⟨view, replayed, unsafe'⟩ :=
      committed.crash_unfinished lawful found'.prev unfinished
    exact ⟨view, replayed, fun record prev =>
      ⟨fun safe => absurd safe (unsafe' record prev), fun other => absurd unfinished other⟩⟩
  · obtain ⟨view, replayed, safe⟩ := committed.crash_safe lawful found'.prev unfinished
    exact ⟨view, replayed, fun record prev => ⟨fun _ => unfinished, fun _ => safe record prev⟩⟩

theorem appendSafe_crashAppend_iff_genesis :
    ∃ view, replay plainEnvironment (crashAppend plainEnvironment .empty genesisRecord 7) =
        .ok view ∧
      ∀ record : JournalRecord, record.prevRecordSha256 = view.tailHash →
        (AppendSafe plainEnvironment (crashAppend plainEnvironment .empty genesisRecord 7)
            view record ↔
          7 + 1 ≠ (Format.payload JournalRecord.line
            (signed plainEnvironment genesisRecord)).length) :=
  appendSafe_crashAppend_iff lawful_plainEnvironment .empty
    (committed_empty.appendRecord_eq lawful_plainEnvironment rfl) 7

theorem exists_not_appendSafe_crashAppend :
    ¬∀ (env : Environment) (store : JournalStore) (records : List JournalRecord)
      (last : JournalRecord) (done : JournalStore) (digest : String) (cut : ℕ)
      (view : JournalView) (record : JournalRecord), env.Lawful → Built env store records →
        appendRecord env store last = (done, .ok digest) →
        replay env (crashAppend env store last cut) = .ok view →
        record.prevRecordSha256 = view.tailHash →
        AppendSafe env (crashAppend env store last cut) view record := by
  intro always
  have prev : genesisRecord.prevRecordSha256 = (journalFormat plainEnvironment).tail [] := rfl
  obtain ⟨cut, unfinished⟩ : ∃ cut, cut + 1 =
      (Format.payload JournalRecord.line (signed plainEnvironment genesisRecord)).length :=
    ⟨_, ((writes_line lawful_plainEnvironment).length_payload _).symm⟩
  obtain ⟨done, digest, appended⟩ : ∃ done digest,
      appendRecord plainEnvironment .empty genesisRecord = (done, .ok digest) :=
    ⟨_, _, committed_empty.appendRecord_eq lawful_plainEnvironment prev⟩
  obtain ⟨view, replayed, unsafe'⟩ :=
    committed_empty.crash_unfinished lawful_plainEnvironment prev unfinished
  obtain ⟨record, named⟩ : ∃ record : JournalRecord, record.prevRecordSha256 = view.tailHash :=
    ⟨{ genesisRecord with prevRecordSha256 := view.tailHash }, rfl⟩
  exact unsafe' record named (always plainEnvironment .empty [] genesisRecord done digest cut
    view record lawful_plainEnvironment .empty appended replayed named)

end TreeOptions.Runstate
