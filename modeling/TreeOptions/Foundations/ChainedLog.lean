import TreeOptions.Foundations.Checked
import TreeOptions.Foundations.HashChain
import TreeOptions.Foundations.JsonRoundTrip
import TreeOptions.Foundations.Text

/-!
# Hash-chained records, one to a line

A log file holds one record to a line, and each record follows the one before it
in a hash chain. Replay reads the lines in order and stops at the first one that
does not decode or does not follow: in the last line this is a torn write and is
reported, in an earlier line it is damage (`Format.replayLines`). A writer about
to append looks at the tail alone and reports any such line as torn
(`Format.lockedTail`). Both say the same of a file all of whose lines read
(`Format.replay_of_reads`, `Format.lockedTail_of_reads`).

`Format.Writes` says what a record's line has to satisfy for the log to be
written and read back: it is printable, it decodes to the record, no proper
prefix of it decodes, and no two lines side by side do. Then a record written
after finished lines is read after their records (`Writes.reads_append`), a write
cut short of its line is torn (`Writes.readsTorn_append_cut`), and so is a line
written after one that lacks its newline (`Writes.readsTorn_append_merged`).
-/

set_option autoImplicit false

namespace TreeOptions

universe u

/-- How a line is read as a record, and how the records are linked. -/
structure Format (Record : Type u) extends Linking Record String where
  decode : List Char → Option Record

/-- What a file replays to. -/
structure LogView (Record : Type u) where
  records : List Record
  tailHash : String
  tailDamaged : Bool

/-- What the tail of a file looks like. -/
structure LockedTail where
  tailHash : String
  tornTail : Bool

namespace Format

variable {Record : Type u} (format : Format Record)

/-- The record of a line that decodes and follows the tail. -/
def accepts (tail : String) (line : List Char) : Option Record :=
  (format.decode line).filter fun record => decide (format.Follows tail record)

/-- Replay some lines, the error being the number of the damaged line. -/
def replayLines (index : ℕ) (tail : String) : List (List Char) → Except ℕ (LogView Record)
  | [] => .ok ⟨[], tail, false⟩
  | line :: rest =>
    match format.accepts tail line with
    | some record => do
        let view ← replayLines (index + 1) (format.stored record) rest
        return { view with records := record :: view.records }
    | none => if rest = [] then .ok ⟨[], tail, true⟩ else .error (index + 1)

section Lines

variable {format} {index : ℕ} {tail : String} {line : List Char} {rest : List (List Char)}

theorem replayLines_accepted {record : Record} (accepted : format.accepts tail line = some record) :
    format.replayLines index tail (line :: rest) =
      (format.replayLines (index + 1) (format.stored record) rest).map fun view =>
        { view with records := record :: view.records } := by
  rw [replayLines, accepted]
  simp only
  cases format.replayLines (index + 1) (format.stored record) rest with
  | error line => rfl
  | ok view => rfl

theorem replayLines_refused (refused : format.accepts tail line = none) :
    format.replayLines index tail (line :: rest) =
      if rest = [] then .ok ⟨[], tail, true⟩ else .error (index + 1) := by
  rw [replayLines, refused]

end Lines

/-- Replay a decoded text. -/
def replayText (text : List Char) : Except ℕ (LogView Record) :=
  format.replayLines 0 format.genesis (Text.splitLines text)

/-- Replay the bytes of a file. -/
def replay (bytes : List UInt8) : Except ℕ (LogView Record) :=
  format.replayText (Text.decodeReplace bytes)

def lockedTailLines (tail : String) : List (List Char) → LockedTail
  | [] => ⟨tail, false⟩
  | line :: rest =>
    match format.accepts tail line with
    | some record => lockedTailLines (format.stored record) rest
    | none => ⟨tail, true⟩

variable {tail : String}

theorem lockedTailLines_accepted {line : List Char} {rest : List (List Char)} {record : Record}
    (accepted : format.accepts tail line = some record) :
    format.lockedTailLines tail (line :: rest) =
      format.lockedTailLines (format.stored record) rest := by
  rw [lockedTailLines, accepted]

/-- Classify the tail of a file's bytes. -/
def lockedTail (bytes : List UInt8) : LockedTail :=
  format.lockedTailLines format.genesis (Text.splitLines (Text.decodeReplace bytes))

/-- Every line reads, and the records are these. -/
def Spells (tail : String) : List (List Char) → List Record → Prop
  | [], records => records = []
  | line :: rest, records =>
    ∃ record more, records = record :: more ∧ format.accepts tail line = some record ∧
      Spells (format.stored record) rest more

variable {format}

theorem accepts_eq_some {line : List Char} {record : Record} :
    format.accepts tail line = some record ↔
      format.decode line = some record ∧ format.Follows tail record := by
  simp [accepts, Option.filter_eq_some_iff]

variable {lines : List (List Char)} {records : List Record}

theorem Spells.chainedFrom (spells : format.Spells tail lines records) :
    format.ChainedFrom tail records := by
  induction lines generalizing tail records with
  | nil =>
    obtain rfl : records = [] := spells
    trivial
  | cons line rest ih =>
    obtain ⟨record, more, rfl, accepted, tailSpells⟩ := spells
    exact ⟨(accepts_eq_some.mp accepted).2, ih tailSpells⟩

theorem Spells.append {tail : String} {first second : List (List Char)}
    {records more : List Record} (spells : format.Spells tail first records)
    (others : format.Spells (format.tailFrom tail records) second more) :
    format.Spells tail (first ++ second) (records ++ more) := by
  induction first generalizing tail records with
  | nil =>
    obtain rfl : records = [] := spells
    exact others
  | cons line rest ih =>
    obtain ⟨record, later, rfl, accepted, tailSpells⟩ := spells
    exact ⟨record, later ++ more, rfl, accepted, ih tailSpells others⟩

theorem Spells.unique {first second : List Record} (spells : format.Spells tail lines first)
    (spells' : format.Spells tail lines second) : first = second := by
  induction lines generalizing tail first second with
  | nil =>
    obtain rfl : first = [] := spells
    exact (show second = [] from spells').symm
  | cons line rest ih =>
    obtain ⟨record, more, rfl, accepted, tailSpells⟩ := spells
    obtain ⟨record', more', rfl, accepted', tailSpells'⟩ := spells'
    cases accepted'.symm.trans accepted
    rw [ih tailSpells tailSpells']

theorem replayLines_append {first : List (List Char)} (spells : format.Spells tail first records)
    (index : ℕ) (second : List (List Char)) :
    format.replayLines index tail (first ++ second) =
      (format.replayLines (index + first.length) (format.tailFrom tail records) second).map
        fun view => { view with records := records ++ view.records } := by
  induction first generalizing index tail records with
  | nil =>
    obtain rfl : records = [] := spells
    simp only [List.nil_append, List.length_nil, Nat.add_zero, Linking.tailFrom]
    cases format.replayLines index tail second <;> rfl
  | cons line rest ih =>
    obtain ⟨record, more, rfl, accepted, tailSpells⟩ := spells
    have length : index + 1 + rest.length = index + (line :: rest).length := by
      simp only [List.length_cons]
      omega
    rw [List.cons_append, replayLines_accepted accepted, ih tailSpells, length, Linking.tailFrom]
    cases format.replayLines (index + (line :: rest).length)
      (format.tailFrom (format.stored record) more) second <;> rfl

/-- **A file all of whose lines read replays undamaged to their records.** -/
theorem replayLines_of_spells (spells : format.Spells tail lines records) (index : ℕ) :
    format.replayLines index tail lines =
      .ok ⟨records, format.tailFrom tail records, false⟩ := by
  have whole := replayLines_append spells index []
  rw [List.append_nil] at whole
  have nothing : format.replayLines (index + lines.length) (format.tailFrom tail records) [] =
      .ok ⟨[], format.tailFrom tail records, false⟩ := rfl
  rw [whole, nothing]
  simp [Except.map]

theorem replayLines_torn (spells : format.Spells tail lines records) {line : List Char}
    (refused : format.accepts (format.tailFrom tail records) line = none) (index : ℕ) :
    format.replayLines index tail (lines ++ [line]) =
      .ok ⟨records, format.tailFrom tail records, true⟩ := by
  rw [replayLines_append spells, replayLines_refused refused, if_pos rfl]
  simp [Except.map]

variable {view : LogView Record}

theorem spells_of_replayLines {index : ℕ}
    (replayed : format.replayLines index tail lines = .ok view) :
    view.tailHash = format.tailFrom tail view.records ∧
      ((view.tailDamaged = false ∧ format.Spells tail lines view.records) ∨
        (view.tailDamaged = true ∧ ∃ read torn, lines = read ++ [torn] ∧
          format.Spells tail read view.records ∧
            format.accepts (format.tailFrom tail view.records) torn = none)) := by
  induction lines generalizing index tail view with
  | nil =>
    cases replayed
    exact ⟨rfl, .inl ⟨rfl, rfl⟩⟩
  | cons line rest ih =>
    cases accepted : format.accepts tail line with
    | some record =>
      rw [replayLines_accepted accepted] at replayed
      obtain ⟨inner, later, rfl⟩ := Checked.map_eq_ok.mp replayed
      obtain ⟨tailHash, sound | ⟨damaged, read, torn, split, spells, refused⟩⟩ := ih later
      · exact ⟨tailHash, .inl ⟨sound.1, record, inner.records, rfl, accepted, sound.2⟩⟩
      · exact ⟨tailHash, .inr ⟨damaged, line :: read, torn, by rw [split]; rfl,
          ⟨record, inner.records, rfl, accepted, spells⟩, refused⟩⟩
    | none =>
      rw [replayLines_refused accepted] at replayed
      split at replayed
      case isTrue last =>
        cases replayed
        exact ⟨rfl, .inr ⟨rfl, [], line, by rw [last]; rfl, rfl, accepted⟩⟩
      case isFalse => cases replayed

/-- The locked view goes through the lines that read. -/
theorem lockedTailLines_append {first : List (List Char)}
    (spells : format.Spells tail first records) (second : List (List Char)) :
    format.lockedTailLines tail (first ++ second) =
      format.lockedTailLines (format.tailFrom tail records) second := by
  induction first generalizing tail records with
  | nil =>
    obtain rfl : records = [] := spells
    rfl
  | cons line rest ih =>
    obtain ⟨record, more, rfl, accepted, tailSpells⟩ := spells
    rw [List.cons_append, lockedTailLines_accepted _ accepted]
    exact ih tailSpells

theorem spells_of_lockedTailLines (whole : (format.lockedTailLines tail lines).tornTail = false) :
    ∃ records, format.Spells tail lines records ∧
      (format.lockedTailLines tail lines).tailHash = format.tailFrom tail records := by
  induction lines generalizing tail with
  | nil => exact ⟨[], rfl, rfl⟩
  | cons line rest ih =>
    rw [lockedTailLines] at whole ⊢
    split at whole
    case h_1 record accepted =>
      obtain ⟨records, spells, tailHash⟩ := ih whole
      exact ⟨record :: records, ⟨record, records, rfl, accepted, spells⟩, tailHash⟩
    case h_2 => cases whole

/-! ## What a file reads as -/

variable (format)

/-- Every line of the file reads, and the records are these. -/
def Reads (bytes : List UInt8) (records : List Record) : Prop :=
  format.Spells format.genesis (Text.lines bytes) records

/-- Every line but the last reads, and the last one is torn. -/
def ReadsTorn (bytes : List UInt8) (records : List Record) : Prop :=
  ∃ read torn, Text.lines bytes = read ++ [torn] ∧
    format.Spells format.genesis read records ∧ format.accepts (format.tail records) torn = none

variable {format} {bytes : List UInt8}

theorem Reads.chained (reads : format.Reads bytes records) : format.Chained records :=
  Spells.chainedFrom reads

theorem ReadsTorn.chained (reads : format.ReadsTorn bytes records) : format.Chained records := by
  obtain ⟨_, _, _, spells, _⟩ := reads
  exact spells.chainedFrom

theorem reads_nil : format.Reads [] [] :=
  rfl

/-- **A file all of whose lines read replays undamaged to its records.** -/
theorem replay_of_reads (reads : format.Reads bytes records) :
    format.replay bytes = .ok ⟨records, format.tail records, false⟩ :=
  replayLines_of_spells reads 0

theorem replay_of_readsTorn (reads : format.ReadsTorn bytes records) :
    format.replay bytes = .ok ⟨records, format.tail records, true⟩ := by
  obtain ⟨read, torn, split, spells, refused⟩ := reads
  have replayed := replayLines_torn spells refused 0
  rw [← split] at replayed
  exact replayed

theorem reads_of_replay (replayed : format.replay bytes = .ok view) :
    view.tailHash = format.tail view.records ∧
      ((view.tailDamaged = false ∧ format.Reads bytes view.records) ∨
        (view.tailDamaged = true ∧ format.ReadsTorn bytes view.records)) := by
  obtain ⟨tailHash, sound | ⟨damaged, read, torn, split, spells, refused⟩⟩ :=
    spells_of_replayLines replayed
  · exact ⟨tailHash, .inl sound⟩
  · exact ⟨tailHash, .inr ⟨damaged, read, torn, split, spells, refused⟩⟩

theorem chained_of_replay (replayed : format.replay bytes = .ok view) :
    format.Chained view.records := by
  rcases (reads_of_replay replayed).2 with ⟨_, reads⟩ | ⟨_, reads⟩
  · exact reads.chained
  · exact reads.chained

theorem lockedTail_of_reads (reads : format.Reads bytes records) :
    format.lockedTail bytes = ⟨format.tail records, false⟩ := by
  have whole := lockedTailLines_append reads []
  rw [List.append_nil] at whole
  exact whole

theorem lockedTail_of_readsTorn (reads : format.ReadsTorn bytes records) :
    format.lockedTail bytes = ⟨format.tail records, true⟩ := by
  obtain ⟨read, torn, split, spells, refused⟩ := reads
  have last : format.lockedTailLines (format.tail records) [torn] =
      ⟨format.tail records, true⟩ := by
    rw [lockedTailLines, refused]
  have whole := lockedTailLines_append spells [torn]
  rw [← split] at whole
  exact whole.trans last

theorem reads_of_lockedTail (whole : (format.lockedTail bytes).tornTail = false) :
    ∃ records, format.Reads bytes records ∧
      (format.lockedTail bytes).tailHash = format.tail records :=
  spells_of_lockedTailLines whole

/-- **What replay read of a file is read again after more bytes.** The file has
to end with its last line finished. -/
theorem isPrefix_of_replay_append {first second : List UInt8} (ends : Text.EndsLine first)
    (reads : format.Reads first records) (replayed : format.replay (first ++ second) = .ok view) :
    records <+: view.records := by
  have split : Text.lines (first ++ second) = Text.lines first ++ Text.lines second :=
    Text.lines_append ends second
  have replayed' : format.replayLines 0 format.genesis
      (Text.lines first ++ Text.lines second) = .ok view := split ▸ replayed
  rw [replayLines_append reads] at replayed'
  obtain ⟨inner, -, same⟩ := Checked.map_eq_ok.mp replayed'
  exact ⟨inner.records, by rw [← same]⟩

/-! ## Writing lines -/

/-- What the line of a record has to satisfy to be read back, whole or cut. -/
structure Writes (format : Format Record) (line : Record → List Char) : Prop where
  printable : ∀ record, ∀ c ∈ line record, Json.Printable c
  decodes : ∀ record, format.decode (line record) = some record
  cut : ∀ record first second, first ++ second = line record → second ≠ [] →
    format.decode first = none
  merged : ∀ first second, format.decode (line first ++ line second) = none

/-- The bytes of a record's line. -/
def payload (line : Record → List Char) (record : Record) : List UInt8 :=
  Text.encode (line record) ++ [Text.newline]

theorem endsLine_append_payload (bytes : List UInt8) (line : Record → List Char)
    (record : Record) : Text.EndsLine (bytes ++ payload line record) :=
  .inr ⟨bytes ++ Text.encode (line record), by rw [payload, List.append_assoc]⟩

namespace Writes

variable {line : Record → List Char} (writes : format.Writes line)

include writes

theorem ascii (record : Record) : Text.Ascii (line record) := by
  intro c member
  have := (writes.printable record c member).2
  omega

theorem unbroken (record : Record) : Text.Unbroken (line record) := by
  intro c member
  by_contra breaks
  have visible := writes.printable record c member
  simp only [Text.isLineBreak, Bool.not_eq_false, Bool.or_eq_true, decide_eq_true_eq] at breaks
  rcases breaks with ((((((((rfl | rfl) | rfl) | rfl) | rfl) | rfl) | rfl) | rfl) | rfl) | rfl <;>
    exact absurd visible (by decide)

/-- An empty line would merge with itself. -/
theorem line_ne_nil (record : Record) : line record ≠ [] := by
  intro empty
  have merged := writes.merged record record
  rw [empty, List.nil_append, ← empty, writes.decodes] at merged
  cases merged

variable {record : Record}

theorem accepts {tail : String} (follows : format.Follows tail record) :
    format.accepts tail (line record) = some record :=
  accepts_eq_some.mpr ⟨writes.decodes record, follows⟩

theorem length_payload (record : Record) :
    (payload line record).length = (line record).length + 1 := by
  rw [payload, List.length_append, Text.length_encode_ascii (writes.ascii record)]
  rfl

/-- The payload without its newline. -/
theorem take_length_payload (record : Record) :
    (payload line record).take (line record).length = Text.encode (line record) := by
  have size := Text.length_encode_ascii (writes.ascii record)
  rw [payload, List.take_append_of_le_length (by omega), List.take_of_length_le (by omega)]

theorem lines_payload (record : Record) : Text.lines (payload line record) = [line record] :=
  Text.lines_encode_line (writes.ascii record) (writes.unbroken record)

/-- **A write cut after at least one byte leaves one line, cut at the same place.**
A cut that takes only the newline away leaves the whole line. -/
theorem lines_take_payload (record : Record) {cut : ℕ} (some' : 0 < cut) :
    Text.lines ((payload line record).take cut) = [(line record).take cut] := by
  by_cases whole : cut ≤ (line record).length
  · have size : (Text.encode (line record)).length = (line record).length :=
      Text.length_encode_ascii (writes.ascii record)
    have bytes : (payload line record).take cut = Text.encode ((line record).take cut) := by
      rw [payload, List.take_append_of_le_length (by omega),
        Text.take_encode_ascii (writes.ascii record)]
    have nonempty : (line record).take cut ≠ [] := by
      have := writes.line_ne_nil record
      simp only [ne_eq, List.take_eq_nil_iff, not_or]
      exact ⟨by omega, this⟩
    rw [bytes]
    exact Text.lines_encode_unbroken
      (fun c member => writes.ascii record c (List.mem_of_mem_take member))
      (fun c member => writes.unbroken record c (List.mem_of_mem_take member)) nonempty
  · have bytes : (payload line record).take cut = payload line record := by
      apply List.take_of_length_le
      rw [writes.length_payload]
      omega
    rw [bytes, writes.lines_payload, List.take_of_length_le (by omega)]

/-- A line written after one that lacks its newline runs on from it. -/
theorem lines_merged (first second : Record) :
    Text.lines (Text.encode (line first) ++ payload line second) =
      [line first ++ line second] := by
  have bytes : Text.encode (line first) ++ payload line second =
      Text.encode (line first ++ line second) ++ [Text.newline] := by
    simp [payload, Text.encode]
  rw [bytes]
  refine Text.lines_encode_line ?_ ?_
  · simp only [Text.Ascii, List.forall_mem_append]
    exact ⟨writes.ascii first, writes.ascii second⟩
  · simp only [Text.Unbroken, List.forall_mem_append]
    exact ⟨writes.unbroken first, writes.unbroken second⟩

variable {bytes : List UInt8} {records : List Record}

section

variable (ends : Text.EndsLine bytes)

include ends

section

variable (reads : format.Reads bytes records)

include reads

section

variable (follows : format.Follows (format.tail records) record)

include follows

theorem reads_append_line {more : List UInt8} (single : Text.lines more = [line record]) :
    format.Reads (bytes ++ more) (records ++ [record]) := by
  rw [Reads, Text.lines_append ends, single]
  exact Spells.append reads ⟨record, [], rfl, writes.accepts follows, rfl⟩

/-- **A record written after finished lines is read after their records.** -/
theorem reads_append : format.Reads (bytes ++ payload line record) (records ++ [record]) :=
  writes.reads_append_line ends reads follows (writes.lines_payload record)

/-- A last line in full is read, with or without its newline. -/
theorem reads_append_whole {cut : ℕ} (whole : (line record).length ≤ cut) :
    format.Reads (bytes ++ (payload line record).take cut) (records ++ [record]) := by
  have nonempty : 0 < (line record).length :=
    List.length_pos_of_ne_nil (writes.line_ne_nil record)
  refine writes.reads_append_line ends reads follows ?_
  rw [writes.lines_take_payload record (by omega), List.take_of_length_le whole]

end

/-- **A last line that is not a record's line in full is torn.** -/
theorem readsTorn_append_cut {cut : ℕ} (some' : 0 < cut) (short : cut < (line record).length) :
    format.ReadsTorn (bytes ++ (payload line record).take cut) records := by
  have refused : format.decode ((line record).take cut) = none := by
    refine writes.cut record _ ((line record).drop cut) (List.take_append_drop cut _) ?_
    simpa using short
  refine ⟨Text.lines bytes, (line record).take cut, ?_, reads, ?_⟩
  · rw [Text.lines_append ends, writes.lines_take_payload record some']
  · simp [Format.accepts, refused]

/-- **Two lines run together are torn.** -/
theorem readsTorn_append_merged (first second : Record) :
    format.ReadsTorn
      (bytes ++ (Text.encode (line first) ++ payload line second)) records := by
  refine ⟨Text.lines bytes, line first ++ line second, ?_, reads, ?_⟩
  · rw [Text.lines_append ends, writes.lines_merged]
  · simp [Format.accepts, writes.merged first second]

end

end

end Writes

/-- **A hash without collisions keeps records apart** whose printable hashed texts,
together with their stored digests, determine them. -/
theorem collisionFree_of_text {sha256Hex : List UInt8 → String}
    (injective : Function.Injective sha256Hex)
    (fresh : ∀ bytes, sha256Hex bytes ≠ format.genesis) {domain : List UInt8}
    {text : Record → List Char}
    (digest : ∀ record, format.digest record =
      sha256Hex (domain ++ Text.encode (text record)))
    (printable : ∀ record, ∀ c ∈ text record, Json.Printable c)
    (determined : ∀ first second, text first = text second →
      format.stored first = format.stored second → first = second) :
    format.CollisionFree where
  injective first second same stored := by
    have ascii : ∀ record, Text.Ascii (text record) := by
      intro record c member
      exact Nat.lt_of_le_of_lt (printable record c member).2 (by decide)
    rw [digest, digest] at same
    have bytes := List.append_cancel_left (injective same)
    exact determined first second
      (Text.encode_injOn_ascii (ascii first) (ascii second) bytes) stored
  fresh record := by
    rw [digest]
    exact fresh _

/-- **Records written as compact JSON objects are read back.** -/
theorem writes_of_json {validate : Json.Value → Option Record}
    (reads : ∀ line, format.decode line = (Json.loads line).bind validate)
    {members : Record → List (String × Json.Value)}
    (plain : ∀ record, Json.Plain (.obj (members record)))
    (valid : ∀ record, validate (.obj (members record)) = some record) :
    format.Writes fun record => Json.dumps (.obj (members record)) where
  printable record := Json.printable_dumps _ (plain record)
  decodes record := by rw [reads, Json.loads_dumps (plain record), Option.bind_some, valid]
  cut record first second split more := by
    rw [reads, Json.loads_take_dumps_obj (plain record) split more, Option.bind_none]
  merged first second := by
    have brace : ∃ rest, Json.dumps (.obj (members second)) = '{' :: rest := ⟨_, by rw [Json.dumps]⟩
    obtain ⟨rest, starts⟩ := brace
    rw [reads, starts, Json.loads_dumps_obj_append (plain first) (by decide), Option.bind_none]

end Format

end TreeOptions
