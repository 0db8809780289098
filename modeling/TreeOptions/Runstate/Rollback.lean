import TreeOptions.Runstate.Journal

/-!
# Committed history is not taken back

A successful append pins the size of the journal and its last hash in the
companion. Whatever bytes are found in the journal later, if they replay and the
committed-extent rule lets them pass, the pinned records are the first records
read (`isPrefix_of_committed`). The bytes may be cut, rewritten in place, chained
anew, padded or extended, and need not be text: nothing is assumed about where
they come from.

The argument needs that no two records share a hash and that no record has the
genesis value for its hash.
-/

set_option autoImplicit false

namespace TreeOptions.Runstate

variable {env : Environment}

/-- **No rollback or rewrite of committed history is accepted.** -/
theorem isPrefix_of_committed (free : (journalFormat env).CollisionFree)
    {store next : JournalStore} {record : JournalRecord} {digest : String}
    (appended : appendRecord env store record = (next, .ok digest)) :
    ∃ pinned binding, next.companion = some binding ∧
      replay env next = .ok ⟨pinned, digest, false⟩ ∧
      ∀ (bytes : List UInt8) (view : JournalView),
        replayJournalText env (Text.decodeReplace bytes) = .ok view →
        checkJournalCommittedExtent env binding bytes.length view bytes = .ok () →
        pinned <+: view.records := by
  obtain ⟨before, after, done⟩ := appendRecord_ok appended
  obtain ⟨bytes, bytesEq⟩ : ∃ bytes, bytes = store.bytes ++
      Format.payload JournalRecord.line (signed env record) := ⟨_, rfl⟩
  have nextEq : next = ⟨some bytes, some ⟨bytes.length, digest⟩⟩ := by
    rw [done.next_eq, bytesEq]
  have reads : (journalFormat env).Reads bytes after := by
    have := done.reads_after
    rwa [nextEq] at this
  refine ⟨after, ⟨bytes.length, digest⟩, by rw [nextEq], ?_, ?_⟩
  · have replayed := Format.replay_of_reads reads
    rw [done.tail_after] at replayed
    have held : checkJournalCommittedExtent env ⟨bytes.length, digest⟩ bytes.length
        ⟨after, digest, false⟩ bytes = .ok () := by
      simp [checkJournalCommittedExtent, Custody.checkCommittedExtent, Except.mapError]
    rw [nextEq]
    exact replay_of_held replayed held
  · intro later view replayed held
    rw [← done.tail_after] at held
    exact Custody.isPrefix_of_check free reads.chained (replayJournalText_eq_ok.mp replayed)
      (fun _ _ => replayJournalText_eq_ok.mp) (checkJournalCommittedExtent_eq_ok.mp held)

theorem isPrefix_of_committed_genesis :
    ∃ pinned binding,
      (appendRecord plainEnvironment .empty genesisRecord).1.companion = some binding ∧
      replay plainEnvironment (appendRecord plainEnvironment .empty genesisRecord).1 =
        .ok ⟨pinned, recordHash plainEnvironment genesisRecord, false⟩ ∧
      ∀ (bytes : List UInt8) (view : JournalView),
        replayJournalText plainEnvironment (Text.decodeReplace bytes) = .ok view →
        checkJournalCommittedExtent plainEnvironment binding bytes.length view bytes = .ok () →
        pinned <+: view.records := by
  have appended := committed_empty.appendRecord_eq lawful_plainEnvironment
    (show genesisRecord.prevRecordSha256 = (journalFormat plainEnvironment).tail [] from rfl)
  rw [appended]
  exact isPrefix_of_committed collisionFree_plainEnvironment appended

end TreeOptions.Runstate
