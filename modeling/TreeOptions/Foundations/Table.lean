import Mathlib.Data.List.Nodup

/-!
# Tables with a primary key

A table is a list of rows, no two with the same key. An insertion of a row whose
key is taken is refused (`insert`) or ignored (`insertOrIgnore`). An update changes
the rows that a condition selects and leaves their keys (`modify`).

A key determines its row, so a table is read through `find?`, and what every
operation does is said there (`find?_insert`, `find?_modify`).
-/

set_option autoImplicit false

namespace TreeOptions

universe u v

/-- Rows in the order of their insertion, no two with the same key. -/
structure Table {Row : Type u} {Key : Type v} (key : Row → Key) where
  rows : List Row
  unique : (rows.map key).Nodup

namespace Table

variable {Row : Type u} {Key : Type v} {key : Row → Key}

def empty : Table key :=
  ⟨[], List.nodup_nil⟩

/-- The number of rows that meet a condition. -/
def count (table : Table key) (condition : Row → Bool) : ℕ :=
  table.rows.countP condition

/-- Change the rows that meet a condition, but not their keys. -/
def modify (table : Table key) (condition : Row → Bool) (change : Row → Row)
    (keeps : ∀ row, key (change row) = key row) : Table key where
  rows := table.rows.map fun row => if condition row then change row else row
  unique := by
    have keys : (table.rows.map fun row => if condition row then change row else row).map key =
        table.rows.map key := by
      rw [List.map_map]
      refine List.map_congr_left ?_
      intro row _
      rw [Function.comp_apply]
      split
      · exact keeps row
      · rfl
    rw [keys]
    exact table.unique

section Keys

variable [DecidableEq Key]

def find? (table : Table key) (k : Key) : Option Row :=
  table.rows.find? fun row => key row = k

variable {table : Table key}

theorem not_mem_of_find?_eq_none {k : Key} (none' : table.find? k = none) :
    k ∉ table.rows.map key := by
  intro member
  obtain ⟨row, inside, rfl⟩ := List.mem_map.mp member
  have := List.find?_eq_none.mp none' row inside
  simp at this

/-- Insert a row, unless its key is taken. -/
def insert (table : Table key) (row : Row) : Option (Table key) :=
  if free : table.find? (key row) = none then
    some ⟨table.rows ++ [row], by
      rw [List.map_append, List.map_singleton, ← List.concat_eq_append]
      exact table.unique.concat (not_mem_of_find?_eq_none free)⟩
  else none

/-- Insert a row, or leave the table when its key is taken. -/
def insertOrIgnore (table : Table key) (row : Row) : Table key :=
  (table.insert row).getD table

/-- Assign to a key: replace its row, or add one at the end. -/
def put (table : Table key) (row : Row) : Table key :=
  match table.insert row with
  | some next => next
  | none =>
    { rows := table.rows.map fun other => if key other = key row then row else other
      unique := by
        have keys : (table.rows.map fun other => if key other = key row then row else other).map
            key = table.rows.map key := by
          rw [List.map_map]
          refine List.map_congr_left ?_
          intro other _
          rw [Function.comp_apply]
          split
          case isTrue same => exact same.symm
          case isFalse => rfl
        rw [keys]
        exact table.unique }

/-! ## Reading -/

variable {row : Row}

/-- **A key determines its row.** -/
theorem find?_eq_some_iff {k : Key} :
    table.find? k = some row ↔ row ∈ table.rows ∧ key row = k := by
  constructor
  · intro found
    exact ⟨List.mem_of_find?_eq_some found, by simpa using List.find?_some found⟩
  · rintro ⟨member, rfl⟩
    have isSome : (table.rows.find? fun other => key other = key row).isSome := by
      rw [List.find?_isSome]
      exact ⟨row, member, by simp⟩
    obtain ⟨other, found⟩ := Option.isSome_iff_exists.mp isSome
    have same : key other = key row := by simpa using List.find?_some found
    obtain rfl : other = row :=
      List.inj_on_of_nodup_map table.unique (List.mem_of_find?_eq_some found) member same
    exact found

theorem find?_key (member : row ∈ table.rows) : table.find? (key row) = some row :=
  find?_eq_some_iff.mpr ⟨member, rfl⟩

theorem key_of_find? {k : Key} (found : table.find? k = some row) : key row = k :=
  (find?_eq_some_iff.mp found).2

theorem insert_eq_some {next : Table key} :
    table.insert row = some next ↔
      table.find? (key row) = none ∧ next.rows = table.rows ++ [row] := by
  rw [insert]
  split
  case isTrue free =>
    constructor
    · intro inserted
      exact ⟨free, by rw [← Option.some.inj inserted]⟩
    · rintro ⟨-, rows⟩
      obtain ⟨nextRows, unique⟩ := next
      obtain rfl : nextRows = table.rows ++ [row] := rows
      rfl
  case isFalse taken =>
    constructor
    · intro inserted
      cases inserted
    · rintro ⟨free, -⟩
      exact absurd free taken

/-- **What is found after an insertion.** -/
theorem find?_insert {next : Table key} (inserted : table.insert row = some next) (k : Key) :
    next.find? k = if key row = k then some row else table.find? k := by
  obtain ⟨free, rows⟩ := insert_eq_some.mp inserted
  rw [find?, rows, List.find?_append]
  by_cases same : key row = k
  · subst same
    rw [find?] at free
    simp [free]
  · simp [same, find?]

theorem find?_insertOrIgnore (table : Table key) (row : Row) (k : Key) :
    (table.insertOrIgnore row).find? k =
      (table.find? k).or (if key row = k then some row else none) := by
  rw [insertOrIgnore]
  cases inserted : table.insert row with
  | none =>
    have taken : table.find? (key row) ≠ none := by
      intro free
      simp [insert, free] at inserted
    obtain ⟨other, found⟩ := Option.ne_none_iff_exists'.mp taken
    rw [Option.getD_none]
    split_ifs with same
    · subst same
      rw [found]
      rfl
    · rw [Option.or_none]
  | some next =>
    rw [Option.getD_some, find?_insert inserted]
    obtain ⟨free, -⟩ := insert_eq_some.mp inserted
    split_ifs with same
    · subst same
      rw [free]
      rfl
    · rw [Option.or_none]

/-- **What is found after an assignment.** -/
theorem find?_put (table : Table key) (row : Row) (k : Key) :
    (table.put row).find? k = if key row = k then some row else table.find? k := by
  rw [put]
  split
  case h_1 next inserted => exact find?_insert inserted k
  case h_2 taken =>
    have held : table.find? (key row) ≠ none := by
      intro free
      simp [insert, free] at taken
    rw [find?, List.find?_map]
    by_cases same : key row = k
    · subst same
      obtain ⟨other, found⟩ := Option.ne_none_iff_exists'.mp held
      have selected : ((fun other => decide (key other = key row)) ∘
          fun other => if key other = key row then row else other) =
            fun other => decide (key other = key row) := by
        funext other
        by_cases selects : key other = key row <;> simp [selects]
      rw [selected, if_pos rfl]
      rw [find?] at found
      rw [found, Option.map_some, if_pos (by simpa using List.find?_some found)]
    · have selected : ((fun other => decide (key other = k)) ∘
          fun other => if key other = key row then row else other) =
            fun other => decide (key other = k) := by
        funext other
        by_cases selects : key other = key row
        · simp [selects]
        · simp [selects]
      rw [selected, if_neg same, ← find?]
      cases found : table.find? k with
      | none => rfl
      | some other =>
        have key' : key other = k := (find?_eq_some_iff.mp found).2
        rw [Option.map_some, if_neg (key' ▸ Ne.symm same)]

theorem rows_put_of_fresh (free : table.find? (key row) = none) :
    (table.put row).rows = table.rows ++ [row] := by
  rw [put]
  split
  case h_1 next inserted => exact (insert_eq_some.mp inserted).2
  case h_2 taken =>
    simp [insert, free] at taken

/-- A row after an assignment is the one assigned or one that was there. -/
theorem mem_rows_put {other : Row} :
    other ∈ (table.put row).rows ↔ other = row ∨ other ∈ table.rows ∧ key other ≠ key row := by
  have found := find?_put table row (key other)
  constructor
  · intro member
    rw [find?_key member] at found
    split_ifs at found with same
    · exact .inl (Option.some.inj found)
    · exact .inr ⟨(find?_eq_some_iff.mp found.symm).1, Ne.symm same⟩
  · rintro (rfl | ⟨member, ne⟩)
    · rw [if_pos rfl] at found
      exact (find?_eq_some_iff.mp found).1
    · rw [if_neg (Ne.symm ne), find?_key member] at found
      exact (find?_eq_some_iff.mp found).1

theorem length_rows_put_of_taken {held : Row} (found : table.find? (key row) = some held) :
    (table.put row).rows.length = table.rows.length := by
  rw [put]
  split
  case h_1 next inserted =>
    rw [(insert_eq_some.mp inserted).1] at found
    cases found
  case h_2 taken => exact List.length_map _

/-- **What is found after a change.** -/
theorem find?_modify (table : Table key) (condition : Row → Bool) (change : Row → Row)
    (keeps : ∀ row, key (change row) = key row) (k : Key) :
    (table.modify condition change keeps).find? k =
      (table.find? k).map fun row => if condition row then change row else row := by
  rw [find?, modify, List.find?_map, find?]
  congr 2
  funext row
  rw [Function.comp_apply]
  split
  · rw [keeps]
  · rfl

/-! ## Counting -/

theorem count_insert {next : Table key} (inserted : table.insert row = some next)
    (condition : Row → Bool) :
    next.count condition = table.count condition + if condition row then 1 else 0 := by
  rw [count, (insert_eq_some.mp inserted).2, List.countP_append, count, List.countP_singleton]

/-- **Among the rows of one key at most one is counted.** -/
theorem count_key (table : Table key) (k : Key) (condition : Row → Bool) :
    table.count (fun row => decide (key row = k) && condition row) =
      if (table.find? k).any condition then 1 else 0 := by
  cases found : table.find? k with
  | none =>
    have nowhere := not_mem_of_find?_eq_none found
    rw [count, List.countP_eq_zero.mpr]
    · rfl
    · intro row member
      have other : key row ≠ k := fun same => nowhere (same ▸ List.mem_map_of_mem member)
      simp [other]
  | some row =>
    obtain ⟨same, before, after, rows, earlier⟩ := List.find?_eq_some_iff_append.mp found
    have same' : key row = k := by simpa using same
    subst same'
    have later : ∀ other ∈ after, key other ≠ key row := by
      have unique := table.unique
      rw [rows, List.map_append, List.map_cons] at unique
      have fresh := (List.nodup_cons.mp (List.nodup_append.mp unique).2.1).1
      intro other member keys
      exact fresh (keys ▸ List.mem_map_of_mem member)
    have none' : ∀ part : List Row, (∀ other ∈ part, key other ≠ key row) →
        part.countP (fun other => decide (key other = key row) && condition other) = 0 := by
      intro part different
      rw [List.countP_eq_zero]
      intro other member
      simp [different other member]
    rw [count, rows, List.countP_append, List.countP_cons, none' after later,
      none' before fun other member => by simpa using earlier other member]
    simp

end Keys

theorem count_modify (table : Table key) (condition : Row → Bool) (change : Row → Row)
    (keeps : ∀ row, key (change row) = key row) {counted : Row → Bool}
    (leaves : ∀ row, counted (change row) = counted row) :
    (table.modify condition change keeps).count counted = table.count counted := by
  rw [count, modify, List.countP_map, count]
  refine List.countP_congr ?_
  intro row _
  rw [Function.comp_apply]
  split
  · rw [leaves]
  · rfl

end Table

end TreeOptions
