import Mathlib.Data.List.Basic

/-!
# Bytes, text and lines

Reading a file as lines, as Python does it: decode UTF-8 with every ill-formed
piece replaced by U+FFFD (`decodeReplace`), then split at line breaks
(`splitLines`). Both are total, so they say what is read from any bytes at all.

The decoder is a machine that takes one byte at a time and holds the sequence it
is in the middle of. A newline byte continues no sequence, so a file is decoded
and split piece by piece at its newlines (`decodeReplace_newline`,
`splitLines_newline`). Text in ASCII is decoded back (`decodeReplace_ascii`).
-/

set_option autoImplicit false

namespace TreeOptions.Text

/-! ## Decoding -/

/-- A sequence that is not complete: how many bytes are still to come, the range
the next one lies in, and the bits read so far. -/
structure Pending where
  more : ℕ
  lower : ℕ
  upper : ℕ
  code : ℕ

/-- What stands in the text for an ill-formed piece. -/
def replacement : Char :=
  '\uFFFD'

/-- A byte that starts a character: the characters it completes, and the sequence
it opens. -/
def leadByte (byte : ℕ) : List Char × Option Pending :=
  if byte < 0x80 then ([Char.ofNat byte], none)
  else if 0xc2 ≤ byte ∧ byte ≤ 0xdf then ([], some ⟨1, 0x80, 0xbf, byte - 0xc0⟩)
  else if byte = 0xe0 then ([], some ⟨2, 0xa0, 0xbf, 0⟩)
  else if byte = 0xed then ([], some ⟨2, 0x80, 0x9f, 0xd⟩)
  else if 0xe1 ≤ byte ∧ byte ≤ 0xef then ([], some ⟨2, 0x80, 0xbf, byte - 0xe0⟩)
  else if byte = 0xf0 then ([], some ⟨3, 0x90, 0xbf, 0⟩)
  else if 0xf1 ≤ byte ∧ byte ≤ 0xf3 then ([], some ⟨3, 0x80, 0xbf, byte - 0xf0⟩)
  else if byte = 0xf4 then ([], some ⟨3, 0x80, 0x8f, 4⟩)
  else ([replacement], none)

/-- One byte after an open sequence. A byte outside the range ends the sequence
ill-formed and is read again as a first byte. -/
def nextByte : Option Pending → ℕ → List Char × Option Pending
  | none, byte => leadByte byte
  | some pending, byte =>
    if pending.lower ≤ byte ∧ byte ≤ pending.upper then
      let code := 64 * pending.code + (byte - 0x80)
      if pending.more = 1 then ([Char.ofNat code], none)
      else ([], some ⟨pending.more - 1, 0x80, 0xbf, code⟩)
    else
      (replacement :: (leadByte byte).1, (leadByte byte).2)

/-- Decode the bytes after an open sequence. -/
def decodeFrom : Option Pending → List UInt8 → List Char
  | none, [] => []
  | some _, [] => [replacement]
  | pending, byte :: rest =>
    (nextByte pending byte.toNat).1 ++ decodeFrom (nextByte pending byte.toNat).2 rest

/-- `bytes.decode("utf-8", errors="replace")`. -/
def decodeReplace (bytes : List UInt8) : List Char :=
  decodeFrom none bytes

/-- `str.encode("utf-8")`. -/
def encode (text : List Char) : List UInt8 :=
  text.flatMap String.utf8EncodeChar

example : decodeReplace [0x61, 0xe2, 0x82, 0xac, 0xe0, 0x80, 0x62, 0xf0, 0x9f] =
    ['a', '€', '\uFFFD', '\uFFFD', 'b', '\uFFFD'] := by decide

/-- A sequence that a byte below 0x80 does not continue. -/
def Pending.HighBytes (pending : Pending) : Prop :=
  0x80 ≤ pending.lower

theorem leadByte_highBytes (byte : ℕ) :
    ∀ pending ∈ (leadByte byte).2, pending.HighBytes := by
  unfold leadByte
  split_ifs <;> simp [Pending.HighBytes]

theorem nextByte_highBytes (before : Option Pending) (byte : ℕ) :
    ∀ pending ∈ (nextByte before byte).2, pending.HighBytes := by
  cases before with
  | none => exact leadByte_highBytes byte
  | some open' =>
    rw [nextByte]
    split_ifs
    · simp
    · simp [Pending.HighBytes]
    · exact leadByte_highBytes byte

variable {byte : UInt8}

theorem decodeFrom_ascii (ascii : byte.toNat < 0x80) {pending : Option Pending}
    (high : ∀ open' ∈ pending, open'.HighBytes) (rest : List UInt8) :
    decodeFrom pending (byte :: rest) =
      decodeFrom pending [] ++ Char.ofNat byte.toNat :: decodeReplace rest := by
  cases pending with
  | none => simp [decodeFrom, nextByte, leadByte, ascii, decodeReplace]
  | some open' =>
    have outside : ¬(open'.lower ≤ byte.toNat ∧ byte.toNat ≤ open'.upper) := by
      have := high open' rfl
      unfold Pending.HighBytes at this
      omega
    simp [decodeFrom, nextByte, leadByte, ascii, decodeReplace, outside]

/-- **A text is decoded piece by piece at a byte below 0x80.** -/
theorem decodeFrom_append_ascii (ascii : byte.toNat < 0x80) (first second : List UInt8)
    {pending : Option Pending} (high : ∀ open' ∈ pending, open'.HighBytes) :
    decodeFrom pending (first ++ byte :: second) =
      decodeFrom pending first ++ Char.ofNat byte.toNat :: decodeReplace second := by
  induction first generalizing pending with
  | nil => exact decodeFrom_ascii ascii high second
  | cons head rest ih =>
    rw [List.cons_append, decodeFrom, decodeFrom, ih (nextByte_highBytes pending head.toNat),
      List.append_assoc]

theorem decodeReplace_append_ascii (ascii : byte.toNat < 0x80) (first second : List UInt8) :
    decodeReplace (first ++ byte :: second) =
      decodeReplace first ++ Char.ofNat byte.toNat :: decodeReplace second :=
  decodeFrom_append_ascii ascii first second (by simp)

/-- The newline byte. -/
def newline : UInt8 :=
  0x0a

theorem decodeReplace_newline (first second : List UInt8) :
    decodeReplace (first ++ newline :: second) =
      decodeReplace first ++ '\n' :: decodeReplace second :=
  decodeReplace_append_ascii (by decide) first second

/-- The characters below 0x80, one byte each. -/
def Ascii (text : List Char) : Prop :=
  ∀ c ∈ text, c.toNat < 0x80

variable {c : Char}

theorem utf8EncodeChar_ascii (ascii : c.toNat < 0x80) :
    String.utf8EncodeChar c = [c.toNat.toUInt8] := by
  have size : c.utf8Size = 1 := by
    rw [Char.utf8Size, if_pos]
    exact UInt32.le_iff_toNat_le.mpr (by simpa using Nat.le_of_lt_succ ascii)
  rw [String.utf8EncodeChar_eq_singleton size]
  rfl

theorem toNat_toUInt8 (ascii : c.toNat < 0x80) : c.toNat.toUInt8.toNat = c.toNat := by
  simp only [Nat.toUInt8_eq, UInt8.toNat_ofNat']
  omega

/-- **ASCII text is decoded back.** -/
theorem decodeReplace_ascii {text : List Char} (ascii : Ascii text) (rest : List UInt8) :
    decodeReplace (encode text ++ rest) = text ++ decodeReplace rest := by
  induction text with
  | nil => rfl
  | cons c more ih =>
    obtain ⟨first, others⟩ := List.forall_mem_cons.mp ascii
    have bytes : encode (c :: more) ++ rest = [] ++ c.toNat.toUInt8 :: (encode more ++ rest) := by
      simp [encode, utf8EncodeChar_ascii first]
    rw [bytes, decodeReplace_append_ascii (by rw [toNat_toUInt8 first]; exact first),
      toNat_toUInt8 first, Char.ofNat_toNat, ih others]
    rfl

theorem encode_injOn_ascii {first second : List Char} (ascii : Ascii first)
    (ascii' : Ascii second) (same : encode first = encode second) : first = second := by
  have read := decodeReplace_ascii ascii []
  rw [same, decodeReplace_ascii ascii' []] at read
  exact (List.append_cancel_right read).symm

theorem length_encode_ascii {text : List Char} (ascii : Ascii text) :
    (encode text).length = text.length := by
  induction text with
  | nil => rfl
  | cons c more ih =>
    obtain ⟨first, others⟩ := List.forall_mem_cons.mp ascii
    rw [encode, List.flatMap_cons, utf8EncodeChar_ascii first, ← encode]
    simp [ih others]

theorem take_encode_ascii {text : List Char} (ascii : Ascii text) (cut : ℕ) :
    (encode text).take cut = encode (text.take cut) := by
  induction text generalizing cut with
  | nil => simp [encode]
  | cons c more ih =>
    obtain ⟨first, others⟩ := List.forall_mem_cons.mp ascii
    cases cut with
    | zero => simp [encode]
    | succ cut =>
      have := ih others cut
      simp_all [encode, utf8EncodeChar_ascii first]

/-! ## Lines -/

/-- The characters `str.splitlines` breaks at. -/
def isLineBreak (c : Char) : Bool :=
  c = '\n' || c = '\r' || c = '\x0b' || c = '\x0c' || c = '\x1c' || c = '\x1d' || c = '\x1e' ||
    c = '\x85' || c = '\u2028' || c = '\u2029'

/-- `str.splitlines()`: a carriage return and the newline after it are one break,
and a break at the end opens no further line. -/
def splitLines : List Char → List (List Char)
  | [] => []
  | '\r' :: '\n' :: rest => [] :: splitLines rest
  | c :: rest =>
    if isLineBreak c then [] :: splitLines rest
    else match splitLines rest with
      | [] => [[c]]
      | line :: lines => (c :: line) :: lines

example : splitLines "a\r\nb\n\nc".toList = ["a".toList, "b".toList, [], "c".toList] := by decide

/-- The equation of `splitLines` away from a carriage return with its newline. -/
theorem splitLines_cons {rest : List Char} (apart : c = '\r' → ∀ more, rest ≠ '\n' :: more) :
    splitLines (c :: rest) =
      if isLineBreak c then [] :: splitLines rest
      else match splitLines rest with
        | [] => [[c]]
        | line :: lines => (c :: line) :: lines := by
  rw [splitLines]
  intro more carriage newline
  exact apart carriage more newline

theorem splitLines_carriage (rest : List Char) :
    splitLines ('\r' :: '\n' :: rest) = [] :: splitLines rest :=
  rfl

theorem splitLines_open (rest : List Char) :
    splitLines ('\n' :: rest) = [] :: splitLines rest := by
  rw [splitLines_cons fun carriage => absurd carriage (by decide)]
  exact if_pos rfl

theorem splitLines_cons_unbroken (unbroken : isLineBreak c = false) (rest : List Char) :
    splitLines (c :: rest) = match splitLines rest with
      | [] => [[c]]
      | line :: lines => (c :: line) :: lines := by
  rw [splitLines_cons]
  · simp [unbroken]
  · rintro rfl
    exact absurd unbroken (by decide)

/-- A text with no line break. -/
def Unbroken (text : List Char) : Prop :=
  ∀ c ∈ text, isLineBreak c = false

theorem splitLines_line {line : List Char} (unbroken : Unbroken line) (rest : List Char) :
    splitLines (line ++ '\n' :: rest) = line :: splitLines rest := by
  induction line with
  | nil =>
    rw [List.nil_append, splitLines_open]
  | cons c more ih =>
    have first : isLineBreak c = false := unbroken c List.mem_cons_self
    rw [List.cons_append, splitLines_cons_unbroken first,
      ih (List.forall_mem_cons.mp unbroken).2]

/-- A last line without a newline. -/
theorem splitLines_unbroken {line : List Char} (unbroken : Unbroken line) (more : line ≠ []) :
    splitLines line = [line] := by
  induction line with
  | nil => exact absurd rfl more
  | cons c rest ih =>
    have first : isLineBreak c = false := unbroken c List.mem_cons_self
    rw [splitLines_cons_unbroken first]
    cases rest with
    | nil => rfl
    | cons d rest => rw [ih (List.forall_mem_cons.mp unbroken).2 (by simp)]

theorem splitLines_ne_nil : ∀ {text : List Char}, text ≠ [] → splitLines text ≠ []
  | [], more => absurd rfl more
  | c :: rest, _ => by
      by_cases pair : c = '\r' ∧ ∃ more, rest = '\n' :: more
      · obtain ⟨rfl, more, rfl⟩ := pair
        rw [splitLines_carriage]
        exact List.cons_ne_nil _ _
      · rw [splitLines_cons fun carriage more newline => pair ⟨carriage, more, newline⟩]
        split_ifs
        · simp
        · split <;> simp

/-- **A text is split piece by piece at its newlines.** -/
theorem splitLines_newline : ∀ first second : List Char,
    splitLines (first ++ '\n' :: second) =
      splitLines (first ++ ['\n']) ++ splitLines second
  | [], second => by
      rw [List.nil_append, List.nil_append, splitLines_open, splitLines_open]
      rfl
  | c :: rest, second => by
      by_cases pair : c = '\r' ∧ (rest = [] ∨ ∃ more, rest = '\n' :: more)
      · obtain ⟨rfl, rfl | ⟨more, rfl⟩⟩ := pair
        · change splitLines ('\r' :: '\n' :: second) =
            splitLines ('\r' :: '\n' :: []) ++ splitLines second
          rw [splitLines_carriage, splitLines_carriage]
          rfl
        · simp [splitLines_carriage, splitLines_newline more second]
      · -- what follows the carriage return is the same with and without `second`
        have apart : ∀ tail, c = '\r' → ∀ more, rest ++ '\n' :: tail ≠ '\n' :: more := by
          rintro tail rfl more starts
          cases rest with
          | nil => exact pair ⟨rfl, .inl rfl⟩
          | cons d rest =>
            obtain ⟨rfl, -⟩ := List.cons.inj starts
            exact pair ⟨rfl, .inr ⟨rest, rfl⟩⟩
        rw [List.cons_append, splitLines_cons (apart second), List.cons_append,
          splitLines_cons (apart []), splitLines_newline rest second]
        split_ifs
        · rfl
        · obtain ⟨line, lines, split⟩ := List.exists_cons_of_ne_nil
            (show splitLines (rest ++ ['\n']) ≠ [] from splitLines_ne_nil (by simp))
          rw [split]
          rfl

/-! ## Lines of a file -/

/-- The lines of a file's bytes. -/
def lines (bytes : List UInt8) : List (List Char) :=
  splitLines (decodeReplace bytes)

/-- No line is open at the end. -/
def EndsLine (bytes : List UInt8) : Prop :=
  bytes = [] ∨ ∃ start, bytes = start ++ [newline]

/-- **What follows a finished line adds its own lines and changes none.** -/
theorem lines_append {first : List UInt8} (ends : EndsLine first) (second : List UInt8) :
    lines (first ++ second) = lines first ++ lines second := by
  rcases ends with rfl | ⟨start, rfl⟩
  · rfl
  · have whole : decodeReplace (start ++ [newline]) = decodeReplace start ++ ['\n'] :=
      decodeReplace_newline start []
    rw [lines, lines, List.append_assoc, List.cons_append, List.nil_append,
      decodeReplace_newline, splitLines_newline, whole]
    rfl

theorem lines_encode_line {line : List Char} (ascii : Ascii line) (unbroken : Unbroken line) :
    lines (encode line ++ [newline]) = [line] := by
  have text : decodeReplace (encode line ++ [newline]) = line ++ ['\n'] :=
    decodeReplace_ascii ascii [newline]
  rw [lines, text, splitLines_line unbroken]
  rfl

/-- The bytes of a last line without its newline. -/
theorem lines_encode_unbroken {line : List Char} (ascii : Ascii line)
    (unbroken : Unbroken line) (more : line ≠ []) : lines (encode line) = [line] := by
  have text : decodeReplace (encode line) = line := by
    simpa [decodeReplace, decodeFrom] using decodeReplace_ascii ascii []
  rw [lines, text, splitLines_unbroken unbroken more]

/-! ## Bytes as a text of their own -/

/-- The bytes themselves behind a mark, a text for every sequence of bytes. -/
def markedBytes (bytes : List UInt8) : String :=
  String.ofList ('#' :: bytes.map fun byte => Char.ofNat byte.toNat)

theorem toNat_ofNat_byte (byte : UInt8) : (Char.ofNat byte.toNat).toNat = byte.toNat := by
  have bound : byte.toNat < 256 := byte.toNat_lt
  have valid : byte.toNat.isValidChar := .inl (by omega)
  rw [Char.ofNat, dif_pos valid]
  rfl

theorem markedBytes_injective : Function.Injective markedBytes := by
  intro first second same
  have chars := (List.cons.inj (String.ofList_injective same)).2
  refine List.map_injective_iff.mpr ?_ chars
  intro byte byte' equal
  have code := congrArg Char.toNat equal
  rw [toNat_ofNat_byte, toNat_ofNat_byte] at code
  exact UInt8.toNat_inj.mp code

theorem markedBytes_ne (bytes : List UInt8) {text : String}
    (unmarked : text.toList.head? ≠ some '#') : markedBytes bytes ≠ text := by
  rintro rfl
  simp [markedBytes] at unmarked

end TreeOptions.Text
