import TreeOptions.Runstate.Custody
import TreeOptions.Seal.Record

/-!
# The authority ledger

The seal ledger is a hash-chained log like the run journal, under its own domain,
and its committed extent is pinned twice: in the companion record beside it and
in the anchor record of a second tree. An append checks both, writes the line and
advances the companion first and the anchor second (`appendRecord`). Unlike the
journal it does not look at the bytes again after the write.

The model keeps the bytes of the ledger and the two extents. The inode that both
records name is left out, since no step of the model renames or replaces a file,
and with it the digest of the companion in the anchor, which on a mismatch is
tolerated for the same inode.

`Intact` is what the steps of the ledger keep: finished lines that read, perhaps
a torn tail behind them, and two extents that pin finished lines. From it follow
what a read returns (`Intact.readLedger_eq`) and what an append does
(`Intact.prepareAppend_cases`).
-/

set_option autoImplicit false

namespace TreeOptions.Seal

open Runstate.Custody

abbrev LedgerView :=
  LogView LedgerRecord

/-- The ledger file and the extents its companion and its anchor pin, each absent
until created. -/
structure SealStore where
  ledger : Option (List UInt8)
  companion : Option NameBinding
  anchor : Option NameBinding

/-- Nothing was created yet. -/
def SealStore.empty : SealStore :=
  ⟨none, none, none⟩

/-- The bytes of the ledger. -/
def SealStore.bytes (store : SealStore) : List UInt8 :=
  store.ledger.getD []

/-- The reasons of a corruption refusal. -/
inductive LedgerCorruptError where
  | line (number : ℕ)
  | absentButBound
  | absentButAnchored
  | unbound (ledgerBytes : ℕ)
  | unanchored (ledgerBytes : ℕ)
  | anchorExists
  | companionMissing
  | tornTail
  | anchorExtent (refusal : ExtentRefusal)
  | companionExtent (refusal : ExtentRefusal)
  | prevMismatch
  | advance (refusal : AdvanceRefusal)
  | commit (refusal : AdvanceRefusal)

/-- The extent of a record at creation. -/
def emptyExtent : NameBinding :=
  ⟨0, genesisPrev⟩

variable (env : Environment)

/-- Verify and decode: a torn last line is tolerated and flagged. -/
def replayText (text : List Char) : Except LedgerCorruptError LedgerView :=
  ((ledgerFormat env).replayText text).mapError .line

/-- The extents of the anchor and of the companion, checked in this order. -/
def refuseAnchorExtentRollback (anchor binding : Option NameBinding) (ledgerBytes : ℕ)
    (view : LedgerView) (rawLedgerBytes : List UInt8) : Except LedgerCorruptError Unit :=
  match anchor with
  | none => .ok ()
  | some record => do
      (checkCommittedExtent record.extentSize record.committedTailSha256 ledgerBytes
        view.tailHash rawLedgerBytes (replayText env)).mapError .anchorExtent
      match binding with
      | none => .ok ()
      | some binding =>
        (checkCommittedExtent binding.extentSize binding.committedTailSha256 ledgerBytes
          view.tailHash rawLedgerBytes (replayText env)).mapError .companionExtent

/-! ## Reading -/

/-- The read side of both identity records: the companion, none for an empty
ledger that was never bound. -/
def verifyBoundLedgerName (store : SealStore) :
    Except LedgerCorruptError (Option NameBinding) :=
  match store.companion with
  | none =>
    if store.bytes.length ≠ 0 then .error (.unbound store.bytes.length)
    else match store.anchor with
      | none => .ok none
      | some _ => .error .companionMissing
  | some binding =>
    match store.anchor with
    | none =>
      if store.bytes.length ≠ 0 then .error (.unanchored store.bytes.length)
      else .ok (some binding)
    | some _ => .ok (some binding)

def readLedger (store : SealStore) : Except LedgerCorruptError LedgerView :=
  match store.ledger with
  | none =>
    if store.companion.isSome then .error .absentButBound
    else if store.anchor.isSome then .error .absentButAnchored
    else .ok ⟨[], genesisPrev, false⟩
  | some raw => do
      let binding ← verifyBoundLedgerName store
      let view ← replayText env (Text.decodeReplace raw)
      refuseAnchorExtentRollback env store.anchor binding raw.length view raw
      return view

/-! ## Appending -/

/-- Write the anchor over an empty ledger, once. -/
def writeRunstateAnchor (store : SealStore) : SealStore × Except LedgerCorruptError Unit :=
  if store.bytes.length ≠ 0 then (store, .error (.unanchored store.bytes.length))
  else match store.anchor with
    | some _ => (store, .error .anchorExists)
    | none => ({ store with anchor := some emptyExtent }, .ok ())

/-- The append side of both identity records: verify them, or write them over an
empty ledger. -/
def verifyOrBindLedgerName (store : SealStore) :
    SealStore × Except LedgerCorruptError NameBinding :=
  match store.companion with
  | none =>
    if store.bytes.length ≠ 0 then (store, .error (.unbound store.bytes.length))
    else match writeRunstateAnchor { store with companion := some emptyExtent } with
      | (bound, .error refusal) => (bound, .error refusal)
      | (bound, .ok ()) => (bound, .ok emptyExtent)
  | some binding =>
    match store.anchor with
    | some _ => (store, .ok binding)
    | none =>
      if store.bytes.length ≠ 0 then (store, .error (.unanchored store.bytes.length))
      else match writeRunstateAnchor store with
        | (bound, .error refusal) => (bound, .error refusal)
        | (bound, .ok ()) => (bound, .ok binding)

/-- Everything before the write: the store with both records bound, and the
record as it is going to be written. -/
def prepareAppend (store : SealStore) (record : LedgerRecord) :
    SealStore × Except LedgerCorruptError LedgerRecord :=
  match verifyOrBindLedgerName { store with ledger := some store.bytes } with
  | (bound, .error refusal) => (bound, .error refusal)
  | (bound, .ok binding) =>
    let raw := store.bytes
    match replayText env (Text.decodeReplace raw) with
    | .error refusal => (bound, .error refusal)
    | .ok view =>
      if view.tailDamaged = true then (bound, .error .tornTail)
      else match refuseAnchorExtentRollback env bound.anchor (some binding) raw.length
          view raw with
        | .error refusal => (bound, .error refusal)
        | .ok () =>
          if record.prevRecordSha256 ≠ view.tailHash then (bound, .error .prevMismatch)
          else (bound, .ok (signed env record))

/-- The store with the first bytes of a record's line behind its ledger. -/
def SealStore.write (store : SealStore) (record : LedgerRecord) (cut : ℕ) : SealStore :=
  { store with
    ledger := some (store.bytes ++ (Format.payload LedgerRecord.encode record).take cut) }

/-- The store with the line in full. -/
def SealStore.writeAll (store : SealStore) (record : LedgerRecord) : SealStore :=
  { store with ledger := some (store.bytes ++ Format.payload LedgerRecord.encode record) }

/-- Append one record: the store afterwards, and the record's hash or the refusal. -/
def appendRecord (store : SealStore) (record : LedgerRecord) :
    SealStore × Except LedgerCorruptError String :=
  match prepareAppend env store record with
  | (bound, .error refusal) => (bound, .error refusal)
  | (bound, .ok record) =>
    let written := bound.writeAll record
    match advanceNameBindingExtent written.companion written.bytes.length
        record.recordSha256 with
    | .error refusal => (written, .error (.advance refusal))
    | .ok companion =>
      let advanced := { written with companion := some companion }
      match advanceNameBindingExtent written.anchor written.bytes.length
          record.recordSha256 with
      | .error refusal => (advanced, .error (.commit refusal))
      | .ok anchor => ({ advanced with anchor := some anchor }, .ok record.recordSha256)

/-! ## What the steps keep -/

/-- Finished lines that read, a tail that is torn unless it is empty, and extents
that pin finished lines. -/
structure Intact (store : SealStore) (finished torn : List UInt8)
    (records : List LedgerRecord) : Prop where
  split : store.bytes = finished ++ torn
  ends : Text.EndsLine finished
  reads : (ledgerFormat env).Reads finished records
  tornReads : torn ≠ [] → (ledgerFormat env).ReadsTorn (finished ++ torn) records
  companion : ∀ binding, store.companion = some binding →
    Pins (ledgerFormat env) finished binding
  anchor : ∀ binding, store.anchor = some binding → Pins (ledgerFormat env) finished binding
  created : store.ledger = none → store.companion = none
  bound : store.companion = none → store.anchor = none
  anchored : store.anchor = none → store.bytes = []

variable {env}

theorem replayText_eq_ok {text : List Char} {view : LedgerView} :
    replayText env text = .ok view ↔ (ledgerFormat env).replayText text = .ok view := by
  rw [replayText]
  cases (ledgerFormat env).replayText text <;> simp [Except.mapError]

theorem intact_empty : Intact env .empty [] [] [] where
  split := rfl
  ends := .inl rfl
  reads := Format.reads_nil
  tornReads more := absurd rfl more
  companion _ none' := by cases none'
  anchor _ none' := by cases none'
  created _ := rfl
  bound _ := rfl
  anchored _ := rfl

/-- After the checks the line is written and both extents are moved behind it. -/
theorem appendRecord_of_prepared {store : SealStore} {record : LedgerRecord}
    {bytes : List UInt8} {companion anchor : NameBinding}
    (prepared : prepareAppend env store record =
      (⟨some bytes, some companion, some anchor⟩, .ok (signed env record)))
    (companionWithin : companion.extentSize ≤ bytes.length)
    (anchorWithin : anchor.extentSize ≤ bytes.length) :
    appendRecord env store record =
      (⟨some (bytes ++ Format.payload LedgerRecord.encode (signed env record)),
        some ⟨(bytes ++ Format.payload LedgerRecord.encode (signed env record)).length,
          recordHash env record⟩,
        some ⟨(bytes ++ Format.payload LedgerRecord.encode (signed env record)).length,
          recordHash env record⟩⟩, .ok (recordHash env record)) := by
  have longer : bytes.length ≤
      (bytes ++ Format.payload LedgerRecord.encode (signed env record)).length := by simp
  simp only [appendRecord, prepared, SealStore.writeAll, SealStore.bytes, Option.getD_some,
    advance_of_le (Nat.le_trans companionWithin longer),
    advance_of_le (Nat.le_trans anchorWithin longer)]
  rfl

namespace Intact

variable {store : SealStore} {finished torn : List UInt8} {records : List LedgerRecord}

section

variable (intact : Intact env store finished torn records)

include intact

theorem replayText_eq :
    replayText env (Text.decodeReplace store.bytes) =
      .ok ⟨records, (ledgerFormat env).tail records, decide (torn ≠ [])⟩ := by
  rw [replayText_eq_ok, intact.split]
  by_cases empty : torn = []
  · subst empty
    rw [List.append_nil]
    exact Format.replay_of_reads intact.reads
  · rw [decide_eq_true empty]
    exact Format.replay_of_readsTorn (intact.tornReads empty)

theorem check {binding : NameBinding} (pins : Pins (ledgerFormat env) finished binding) :
    checkCommittedExtent binding.extentSize binding.committedTailSha256 store.bytes.length
      ((ledgerFormat env).tail records) store.bytes (replayText env) = .ok () := by
  rw [intact.split]
  by_cases empty : torn = []
  · subst empty
    rw [List.append_nil]
    exact pins.check intact.reads fun _ _ => replayText_eq_ok.mpr
  · exact pins.check_torn empty _ fun _ _ => replayText_eq_ok.mpr

/-- Both extents pass. -/
theorem refuse_eq_ok (anchor binding : Option NameBinding)
    (anchorPins : ∀ record, anchor = some record → Pins (ledgerFormat env) finished record)
    (companionPins : ∀ record, binding = some record → Pins (ledgerFormat env) finished record)
    (damaged : Bool) :
    refuseAnchorExtentRollback env anchor binding store.bytes.length
      ⟨records, (ledgerFormat env).tail records, damaged⟩ store.bytes = .ok () := by
  cases anchor with
  | none => rfl
  | some record =>
    have anchorHeld := intact.check (anchorPins record rfl)
    cases binding with
    | none =>
      simp only [refuseAnchorExtentRollback, anchorHeld]
      rfl
    | some binding =>
      have companionHeld := intact.check (companionPins binding rfl)
      simp only [refuseAnchorExtentRollback, anchorHeld, companionHeld]
      rfl

/-- **What a read returns.** -/
theorem readLedger_eq :
    readLedger env store =
      .ok ⟨records, (ledgerFormat env).tail records, decide (torn ≠ [])⟩ := by
  have replayed := intact.replayText_eq
  have refused := intact.refuse_eq_ok _ _ intact.anchor intact.companion (decide (torn ≠ []))
  obtain ⟨ledger, companion, anchor⟩ := store
  cases ledger with
  | none =>
    obtain rfl : companion = none := intact.created rfl
    obtain rfl : anchor = none := intact.bound rfl
    have empty := intact.split
    obtain ⟨rfl, rfl⟩ := List.append_eq_nil_iff.mp empty.symm
    obtain rfl : records = [] := Format.Spells.unique intact.reads Format.reads_nil
    rfl
  | some raw =>
    have verified : verifyBoundLedgerName ⟨some raw, companion, anchor⟩ = .ok companion := by
      cases companion with
      | none =>
        obtain rfl : anchor = none := intact.bound rfl
        obtain rfl : raw = [] := intact.anchored rfl
        rfl
      | some binding =>
        cases anchor with
        | none =>
          obtain rfl : raw = [] := intact.anchored rfl
          rfl
        | some record => rfl
    have replayed' : replayText env (Text.decodeReplace raw) = _ := replayed
    have refused' : refuseAnchorExtentRollback env anchor companion raw.length _ raw = _ :=
      refused
    simp only [readLedger, verified, replayed', refused', bind, Except.bind, pure, Except.pure]

/-- Both records are there once an append has looked at them. -/
theorem verifyOrBindLedgerName_eq :
    ∃ companion anchor, Pins (ledgerFormat env) finished companion ∧
      Pins (ledgerFormat env) finished anchor ∧
      verifyOrBindLedgerName { store with ledger := some store.bytes } =
        (⟨some (finished ++ torn), some companion, some anchor⟩, .ok companion) := by
  have genesis : Pins (ledgerFormat env) finished emptyExtent := pins_genesis finished
  have split := intact.split
  obtain ⟨ledger, companion, anchor⟩ := store
  cases companion with
  | none =>
    obtain rfl : anchor = none := intact.bound rfl
    have empty : SealStore.bytes ⟨ledger, none, none⟩ = [] := intact.anchored rfl
    rw [empty] at split
    refine ⟨emptyExtent, emptyExtent, genesis, genesis, ?_⟩
    rw [empty, ← split]
    rfl
  | some companion =>
    cases anchor with
    | none =>
      have empty : SealStore.bytes ⟨ledger, some companion, none⟩ = [] := intact.anchored rfl
      rw [empty] at split
      refine ⟨companion, emptyExtent, intact.companion _ rfl, genesis, ?_⟩
      rw [empty, ← split]
      rfl
    | some anchor =>
      refine ⟨companion, anchor, intact.companion _ rfl, intact.anchor _ rfl, ?_⟩
      rw [split]
      rfl

/-- **What comes before the write.** Both records are bound; the append goes on
exactly when no tail is torn and the record names the tail. -/
theorem prepareAppend_cases (record : LedgerRecord) :
    ∃ companion anchor, Pins (ledgerFormat env) finished companion ∧
      Pins (ledgerFormat env) finished anchor ∧
      ((torn = [] ∧ record.prevRecordSha256 = (ledgerFormat env).tail records ∧
          prepareAppend env store record =
            (⟨some finished, some companion, some anchor⟩, .ok (signed env record))) ∨
        ((torn = [] → record.prevRecordSha256 ≠ (ledgerFormat env).tail records) ∧
          ∃ refusal, prepareAppend env store record =
            (⟨some (finished ++ torn), some companion, some anchor⟩, .error refusal))) := by
  obtain ⟨companion, anchor, companionPins, anchorPins, verified⟩ :=
    intact.verifyOrBindLedgerName_eq
  refine ⟨companion, anchor, companionPins, anchorPins, ?_⟩
  have replayed := intact.replayText_eq
  have refused := intact.refuse_eq_ok (some anchor) (some companion)
    (fun _ found => Option.some.inj found ▸ anchorPins)
    (fun _ found => Option.some.inj found ▸ companionPins) (decide (torn ≠ []))
  by_cases whole : torn = []
  · by_cases named : record.prevRecordSha256 = (ledgerFormat env).tail records
    · refine .inl ⟨whole, named, ?_⟩
      subst whole
      rw [List.append_nil] at verified
      simp only [prepareAppend, verified, replayed, refused, named]
      simp
    · refine .inr ⟨fun _ => named, .prevMismatch, ?_⟩
      simp only [prepareAppend, verified, replayed, refused, if_pos named]
      simp [whole]
  · refine .inr ⟨fun empty => absurd empty whole, .tornTail, ?_⟩
    simp only [prepareAppend, verified, replayed]
    simp [whole]

end

theorem of_pins (ends : Text.EndsLine finished)
    (reads : (ledgerFormat env).Reads finished records)
    (tornReads : torn ≠ [] → (ledgerFormat env).ReadsTorn (finished ++ torn) records)
    {companion anchor : NameBinding} (companionPins : Pins (ledgerFormat env) finished companion)
    (anchorPins : Pins (ledgerFormat env) finished anchor) :
    Intact env ⟨some (finished ++ torn), some companion, some anchor⟩ finished torn records where
  split := rfl
  ends := ends
  reads := reads
  tornReads := tornReads
  companion _ found := Option.some.inj found ▸ companionPins
  anchor _ found := Option.some.inj found ▸ anchorPins
  created := nofun
  bound := nofun
  anchored := nofun

/-- A ledger without a torn tail, both records over it. -/
theorem of_pins_whole (ends : Text.EndsLine finished)
    (reads : (ledgerFormat env).Reads finished records) {companion anchor : NameBinding}
    (companionPins : Pins (ledgerFormat env) finished companion)
    (anchorPins : Pins (ledgerFormat env) finished anchor) :
    Intact env ⟨some finished, some companion, some anchor⟩ finished [] records := by
  have intact : Intact env ⟨some (finished ++ []), some companion, some anchor⟩ finished []
      records :=
    of_pins ends reads (fun more => absurd rfl more) companionPins anchorPins
  rwa [List.append_nil] at intact

section Append

variable {record : LedgerRecord}

/-- The line of a record that names the tail goes behind the finished ones. -/
theorem reads_append (lawful : env.Lawful) (intact : Intact env store finished torn records)
    (prev : record.prevRecordSha256 = (ledgerFormat env).tail records) :
    (ledgerFormat env).Reads
      (finished ++ Format.payload LedgerRecord.encode (signed env record))
      (records ++ [signed env record]) :=
  (writes_encode lawful).reads_append intact.ends intact.reads (follows_signed prev)

/-- **An append that names the tail of a whole ledger succeeds**, and both extents
pin all of it. -/
theorem appendRecord_eq (intact : Intact env store finished [] records)
    (prev : record.prevRecordSha256 = (ledgerFormat env).tail records) :
    appendRecord env store record =
      (⟨some (finished ++ Format.payload LedgerRecord.encode (signed env record)),
        some ⟨(finished ++ Format.payload LedgerRecord.encode (signed env record)).length,
          recordHash env record⟩,
        some ⟨(finished ++ Format.payload LedgerRecord.encode (signed env record)).length,
          recordHash env record⟩⟩, .ok (recordHash env record)) := by
  obtain ⟨companion, anchor, companionPins, anchorPins, ⟨-, -, prepared⟩ | ⟨other, -⟩⟩ :=
    intact.prepareAppend_cases record
  · exact appendRecord_of_prepared prepared companionPins.extentSize_le anchorPins.extentSize_le
  · exact absurd prev (other rfl)

theorem next (lawful : env.Lawful) (intact : Intact env store finished [] records)
    (prev : record.prevRecordSha256 = (ledgerFormat env).tail records) :
    Intact env (appendRecord env store record).1
      (finished ++ Format.payload LedgerRecord.encode (signed env record)) []
      (records ++ [signed env record]) := by
  have ends := Format.endsLine_append_payload finished LedgerRecord.encode (signed env record)
  have reads := intact.reads_append lawful prev
  have whole := pins_whole ends reads
  have tail : (ledgerFormat env).tail (records ++ [signed env record]) =
      recordHash env record := Linking.tail_concat _ _
  rw [tail] at whole
  rw [intact.appendRecord_eq prev]
  exact of_pins_whole ends reads whole whole

theorem refused (intact : Intact env store finished torn records)
    (other : torn = [] → record.prevRecordSha256 ≠ (ledgerFormat env).tail records) :
    Intact env (appendRecord env store record).1 finished torn records ∧
      ∃ refusal, (appendRecord env store record).2 = .error refusal := by
  obtain ⟨companion, anchor, companionPins, anchorPins, ⟨whole, named, -⟩ |
    ⟨-, refusal, prepared⟩⟩ := intact.prepareAppend_cases record
  · exact absurd named (other whole)
  · rw [appendRecord, prepared]
    exact ⟨of_pins intact.ends intact.reads intact.tornReads companionPins anchorPins,
      refusal, rfl⟩

/-- **An append that succeeds found a whole ledger and named its tail.** -/
theorem of_appendRecord_ok (intact : Intact env store finished torn records)
    {next : SealStore} {digest : String}
    (appended : appendRecord env store record = (next, .ok digest)) :
    torn = [] ∧ record.prevRecordSha256 = (ledgerFormat env).tail records := by
  by_contra other
  obtain ⟨-, refusal, refused⟩ := intact.refused fun whole named => other ⟨whole, named⟩
  rw [appended] at refused
  cases refused

end Append

end Intact

end TreeOptions.Seal
