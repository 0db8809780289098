import TreeOptions.Foundations.ChainedLog

/-!
# The committed extent of a ledger

Beside an append-only ledger stands a record of how much of it was acknowledged:
a number of bytes and the hash of the last record in them. The model keeps these
two fields of the record and leaves out the inode it names, since no step of the
model renames or replaces a file.

`checkCommittedExtent` compares the record with the bytes found. Fewer bytes are
a rollback; as many bytes must have the same tail; more bytes are accepted when
the pinned ones end at a newline and replay, alone, to the pinned tail.

The check is sound for a collision-free chain: whatever bytes pass it, the
records that were pinned are the first records read (`isPrefix_of_check`). It is
also complete: a ledger that was only added to passes (`check_of_reads`,
`Pins.check`).
-/

set_option autoImplicit false

namespace TreeOptions.Runstate.Custody

universe u v

structure NameBinding where
  extentSize : ℕ
  committedTailSha256 : String

/-- Why a ledger is refused, with what the refusal reports. -/
inductive ExtentRefusal where
  | smaller (ledgerBytes extentSize : ℕ) (committedTail : String)
  | rewritten (extentSize : ℕ) (viewTail committedTail : String)
  | offBoundary (ledgerBytes extentSize : ℕ)
  | unreplayable (ledgerBytes extentSize : ℕ)
  | unproven (ledgerBytes extentSize : ℕ) (committedTail prefixTail : String)
      (tailDamaged : Bool)

/-- The three branches of the committed-extent rule. -/
def checkCommittedExtent {Failure : Type u} {Record : Type v} (extentSize : ℕ)
    (committedTailSha256 : String) (ledgerBytes : ℕ) (viewTailSha256 : String)
    (rawLedgerBytes : List UInt8)
    (replayPrefix : List Char → Except Failure (LogView Record)) :
    Except ExtentRefusal Unit :=
  if ledgerBytes < extentSize then
    .error (.smaller ledgerBytes extentSize committedTailSha256)
  else if ledgerBytes = extentSize then
    if viewTailSha256 ≠ committedTailSha256 then
      .error (.rewritten extentSize viewTailSha256 committedTailSha256)
    else .ok ()
  else if 0 < extentSize ∧ (rawLedgerBytes.take extentSize).getLast? ≠ some Text.newline then
    .error (.offBoundary ledgerBytes extentSize)
  else match replayPrefix (Text.decodeReplace (rawLedgerBytes.take extentSize)) with
    | .error _ => .error (.unreplayable ledgerBytes extentSize)
    | .ok prefixView =>
      if prefixView.tailDamaged = true ∨ prefixView.tailHash ≠ committedTailSha256 then
        .error (.unproven ledgerBytes extentSize committedTailSha256 prefixView.tailHash
          prefixView.tailDamaged)
      else .ok ()

/-- Why the extent is not advanced. -/
inductive AdvanceRefusal where
  | vanished
  | backwards (newExtentSize extentSize : ℕ)

/-- Move the committed extent forward. An extent already there is left as it is. -/
def advanceNameBindingExtent (binding : Option NameBinding) (newExtentSize : ℕ)
    (newCommittedTailSha256 : String) : Except AdvanceRefusal NameBinding :=
  match binding with
  | none => .error .vanished
  | some binding =>
    if binding.extentSize = newExtentSize ∧
        binding.committedTailSha256 = newCommittedTailSha256 then .ok binding
    else if newExtentSize < binding.extentSize then
      .error (.backwards newExtentSize binding.extentSize)
    else .ok ⟨newExtentSize, newCommittedTailSha256⟩

theorem advance_eq_ok {binding : Option NameBinding} {size : ℕ} {tail : String}
    {advanced : NameBinding} (moved : advanceNameBindingExtent binding size tail = .ok advanced) :
    advanced = ⟨size, tail⟩ := by
  cases binding with
  | none => cases moved
  | some binding =>
    rw [advanceNameBindingExtent] at moved
    split_ifs at moved with same backwards
    · cases moved
      rw [← same.1, ← same.2]
    · exact (Except.ok.inj moved).symm

theorem advance_of_le {binding : NameBinding} {size : ℕ} (forward : binding.extentSize ≤ size)
    (tail : String) :
    advanceNameBindingExtent (some binding) size tail = .ok ⟨size, tail⟩ := by
  rw [advanceNameBindingExtent]
  split_ifs with same backwards
  · rw [← same.1, ← same.2]
  · omega
  · rfl

section Extent

variable {Record : Type u} {format : Format Record} {Failure : Type v} {bytes : List UInt8}

theorem endsLine_take {size : ℕ}
    (boundary : ¬(0 < size ∧ (bytes.take size).getLast? ≠ some Text.newline)) :
    Text.EndsLine (bytes.take size) := by
  by_cases positive : 0 < size
  · have last : (bytes.take size).getLast? = some Text.newline := by
      by_contra other
      exact boundary ⟨positive, other⟩
    obtain ⟨start, split⟩ := List.getLast?_eq_some_iff.mp last
    exact .inr ⟨start, split⟩
  · obtain rfl : size = 0 := by omega
    exact .inl List.take_zero

variable {replayPrefix : List Char → Except Failure (LogView Record)}

/-- **Bytes that pass the check still start with the pinned records.** The pinned
records are any chain with the pinned tail; the bytes are any bytes that replay. -/
theorem isPrefix_of_check (free : format.CollisionFree) {pinned : List Record}
    (chained : format.Chained pinned) {extentSize : ℕ} {view : LogView Record}
    (replayed : format.replay bytes = .ok view)
    (agrees : ∀ text prefixView, replayPrefix text = .ok prefixView →
      format.replayText text = .ok prefixView)
    (passed : checkCommittedExtent extentSize (format.tail pinned) bytes.length view.tailHash
      bytes replayPrefix = .ok ()) : pinned <+: view.records := by
  obtain ⟨tailHash, _⟩ := Format.reads_of_replay replayed
  rw [checkCommittedExtent] at passed
  split_ifs at passed with smaller equal rewritten boundary
  · -- as many bytes: the tail alone pins down the history
    have same : format.tail view.records = format.tail pinned := by
      rw [← tailHash]
      exact not_not.mp rewritten
    have whole : pinned = view.records :=
      Linking.eq_of_tail_eq free chained (Format.chained_of_replay replayed) same.symm
    exact whole ▸ List.prefix_rfl
  · -- more bytes: the pinned ones end a line and replay to the pinned tail
    split at passed
    case h_1 => cases passed
    case h_2 prefixView read =>
      split_ifs at passed with unproven
      rw [not_or, not_not, Bool.not_eq_true] at unproven
      obtain ⟨prefixTail, sound | torn⟩ := Format.reads_of_replay (agrees _ _ read)
      · have same : format.tail prefixView.records = format.tail pinned := by
          rw [← prefixTail]
          exact unproven.2
        have whole : prefixView.records = pinned :=
          Linking.eq_of_tail_eq free sound.2.chained chained same
        have reads : format.Reads (bytes.take extentSize) pinned := whole ▸ sound.2
        have replayed' : format.replay (bytes.take extentSize ++ bytes.drop extentSize) =
            .ok view := by
          rw [List.take_append_drop]
          exact replayed
        exact Format.isPrefix_of_replay_append (endsLine_take boundary) reads replayed'
      · rw [unproven.1] at torn
        exact absurd torn.1 (by decide)

variable {records : List Record}

/-- **A ledger that was only added to passes.** -/
theorem check_of_reads {first : List UInt8} (ends : Text.EndsLine first)
    (reads : format.Reads first records) (more : List UInt8) {viewTail : String}
    (untouched : more = [] → viewTail = format.tail records)
    (agrees : ∀ text prefixView, format.replayText text = .ok prefixView →
      replayPrefix text = .ok prefixView) :
    checkCommittedExtent first.length (format.tail records) (first ++ more).length viewTail
      (first ++ more) replayPrefix = .ok () := by
  have cut : (first ++ more).take first.length = first := List.take_left
  rw [checkCommittedExtent, cut]
  split_ifs with smaller equal rewritten boundary
  · simp only [List.length_append] at smaller
    omega
  · have empty : more = [] := by
      apply List.eq_nil_of_length_eq_zero
      simp only [List.length_append] at equal
      omega
    exact absurd (untouched empty) rewritten
  · rfl
  · rcases ends with rfl | ⟨start, rfl⟩
    · simp at boundary
    · simp at boundary
  · rw [agrees _ _ (Format.replay_of_reads reads)]
    simp

/-- An extent that pins finished lines at the start of some bytes. -/
def Pins (format : Format Record) (bytes : List UInt8) (binding : NameBinding) : Prop :=
  ∃ first more pinned, bytes = first ++ more ∧ Text.EndsLine first ∧
    format.Reads first pinned ∧ binding = ⟨first.length, format.tail pinned⟩

theorem Pins.append {bytes : List UInt8} {binding : NameBinding}
    (pins : Pins format bytes binding) (added : List UInt8) :
    Pins format (bytes ++ added) binding := by
  obtain ⟨first, more, pinned, rfl, ends, reads, rfl⟩ := pins
  exact ⟨first, more ++ added, pinned, List.append_assoc _ _ _, ends, reads, rfl⟩

/-- An extent over all of a finished ledger. -/
theorem pins_whole (ends : Text.EndsLine bytes) (reads : format.Reads bytes records) :
    Pins format bytes ⟨bytes.length, format.tail records⟩ :=
  ⟨bytes, [], records, (List.append_nil _).symm, ends, reads, rfl⟩

/-- The empty extent. -/
theorem pins_genesis (bytes : List UInt8) : Pins format bytes ⟨0, format.genesis⟩ :=
  ⟨[], bytes, [], rfl, .inl rfl, Format.reads_nil, rfl⟩

variable {binding : NameBinding}

section

variable (pins : Pins format bytes binding)

include pins

theorem Pins.extentSize_le : binding.extentSize ≤ bytes.length := by
  obtain ⟨first, more, pinned, rfl, ends, reads, rfl⟩ := pins
  simp

/-- **A ledger that reads holds what is pinned in it.** -/
theorem Pins.check (reads : format.Reads bytes records)
    (agrees : ∀ text prefixView,
      format.replayText text = .ok prefixView → replayPrefix text = .ok prefixView) :
    checkCommittedExtent binding.extentSize binding.committedTailSha256 bytes.length
      (format.tail records) bytes replayPrefix = .ok () := by
  obtain ⟨first, more, pinned, rfl, ends, pinnedReads, rfl⟩ := pins
  refine check_of_reads ends pinnedReads more ?_ agrees
  rintro rfl
  rw [List.append_nil] at reads
  rw [Format.Spells.unique reads pinnedReads]

/-- A ledger with a torn tail behind what is pinned holds it too. -/
theorem Pins.check_torn {torn : List UInt8} (written : torn ≠ []) (viewTail : String)
    (agrees : ∀ text prefixView,
      format.replayText text = .ok prefixView → replayPrefix text = .ok prefixView) :
    checkCommittedExtent binding.extentSize binding.committedTailSha256
      (bytes ++ torn).length viewTail (bytes ++ torn) replayPrefix = .ok () := by
  obtain ⟨first, more, pinned, rfl, ends, pinnedReads, rfl⟩ := pins
  rw [List.append_assoc]
  refine check_of_reads ends pinnedReads (more ++ torn) ?_ agrees
  intro empty
  exact absurd (List.append_eq_nil_iff.mp empty).2 written

end

end Extent

end TreeOptions.Runstate.Custody
