import Mathlib.Data.List.Basic
import Mathlib.Order.Bounds.Basic

/-!
# Searches over a range of slots

A partial function gives some of the slots a value. `firstIn` is the first slot of a range that has
one, and `lastIn` the last. A search over a range is a search over its two parts (`firstIn_split`,
`lastIn_split`), and looks at no other slot (`firstIn_congr`, `lastIn_congr`).
-/

set_option autoImplicit false

namespace TreeOptions.SlotSearch

universe u

variable {Value : Type u}

def at? (valueOf : ℕ → Option Value) (slot : ℕ) : Option (ℕ × Value) :=
  (valueOf slot).map fun value => (slot, value)

def firstIn (valueOf : ℕ → Option Value) (start stop : ℕ) : Option (ℕ × Value) :=
  (List.range' start (stop - start)).findSome? (at? valueOf)

def lastIn (valueOf : ℕ → Option Value) (start stop : ℕ) : Option (ℕ × Value) :=
  (List.range' start (stop - start)).reverse.findSome? (at? valueOf)

/-- Some slot of a range has a value. -/
def AnyIn (valueOf : ℕ → Option Value) (start stop : ℕ) : Prop :=
  ∃ slot, start ≤ slot ∧ slot < stop ∧ (valueOf slot).isSome

section Search

variable {valueOf : ℕ → Option Value} {start middle stop : ℕ} {slot : ℕ}

theorem mem_range_iff : slot ∈ List.range' start (stop - start) ↔ start ≤ slot ∧ slot < stop := by
  rw [List.mem_range'_1]
  omega

theorem range_split (low : start ≤ middle) (high : middle ≤ stop) :
    List.range' start (stop - start) =
      List.range' start (middle - start) ++ List.range' middle (stop - middle) := by
  have length : stop - start = (middle - start) + (stop - middle) := by omega
  have middle_eq : start + (middle - start) = middle := by omega
  rw [length, ← List.range'_append_1, middle_eq]

theorem firstIn_split (low : start ≤ middle) (high : middle ≤ stop) :
    firstIn valueOf start stop =
      (firstIn valueOf start middle).or (firstIn valueOf middle stop) := by
  rw [firstIn, range_split low high, List.findSome?_append]
  rfl

theorem lastIn_split (low : start ≤ middle) (high : middle ≤ stop) :
    lastIn valueOf start stop =
      (lastIn valueOf middle stop).or (lastIn valueOf start middle) := by
  rw [lastIn, range_split low high, List.reverse_append, List.findSome?_append]
  rfl

theorem firstIn_eq_none : firstIn valueOf start stop = none ↔ ¬ AnyIn valueOf start stop := by
  rw [firstIn, List.findSome?_eq_none_iff]
  simp only [mem_range_iff, at?, Option.map_eq_none_iff, AnyIn, not_exists, not_and,
    Option.not_isSome_iff_eq_none, and_imp]

theorem lastIn_eq_none : lastIn valueOf start stop = none ↔ ¬ AnyIn valueOf start stop := by
  rw [lastIn, List.findSome?_eq_none_iff]
  simp only [List.mem_reverse, mem_range_iff, at?, Option.map_eq_none_iff, AnyIn, not_exists,
    not_and, Option.not_isSome_iff_eq_none, and_imp]

theorem findSome?_congr {Item : Type} {items : List Item} {first second : Item → Option Value}
    (same : ∀ item ∈ items, first item = second item) :
    items.findSome? first = items.findSome? second := by
  induction items with
  | nil => rfl
  | cons item rest ih =>
    rw [List.findSome?_cons, List.findSome?_cons, same item List.mem_cons_self,
      ih (List.forall_mem_cons.mp same).2]

variable {other : ℕ → Option Value}

theorem firstIn_congr (agree : ∀ slot, start ≤ slot → slot < stop → valueOf slot = other slot) :
    firstIn valueOf start stop = firstIn other start stop := by
  have same : ∀ slot ∈ List.range' start (stop - start), at? valueOf slot = at? other slot := by
    intro slot inside
    obtain ⟨low, high⟩ := mem_range_iff.mp inside
    rw [at?, at?, agree slot low high]
  rw [firstIn, firstIn]
  exact findSome?_congr same

theorem lastIn_congr (agree : ∀ slot, start ≤ slot → slot < stop → valueOf slot = other slot) :
    lastIn valueOf start stop = lastIn other start stop := by
  have same : ∀ slot ∈ (List.range' start (stop - start)).reverse,
      at? valueOf slot = at? other slot := by
    intro slot inside
    obtain ⟨low, high⟩ := mem_range_iff.mp (List.mem_reverse.mp inside)
    rw [at?, at?, agree slot low high]
  rw [lastIn, lastIn]
  exact findSome?_congr same

theorem takeWhile_range {condition : ℕ → Bool} (high : middle ≤ stop)
    (holds : ∀ slot, slot < stop → (condition slot ↔ slot < middle)) :
    (List.range' start (stop - start)).takeWhile condition =
      List.range' start (middle - start) := by
  by_cases low : start ≤ middle
  · have met : ∀ slot ∈ List.range' start (middle - start), condition slot := by
      intro slot inside
      have bounds := (mem_range_iff.mp inside).2
      exact (holds slot (by omega)).mpr bounds
    rw [range_split low high, List.takeWhile_append_of_pos met]
    have ended : (List.range' middle (stop - middle)).takeWhile condition = [] := by
      cases rest : stop - middle with
      | zero => rfl
      | succ count =>
        have unmet := (holds middle (by omega)).not.mpr (Nat.lt_irrefl middle)
        rw [List.range'_succ, List.takeWhile_cons_of_neg unmet]
    rw [ended, List.append_nil]
  · have nothing : middle - start = 0 := by omega
    rw [nothing, List.range'_zero]
    cases rest : stop - start with
    | zero => rfl
    | succ count =>
      have unmet := (holds start (by omega)).not.mpr (by omega)
      rw [List.range'_succ, List.takeWhile_cons_of_neg unmet]

theorem of_firstIn {value : Value} (found : firstIn valueOf start stop = some (slot, value)) :
    start ≤ slot ∧ slot < stop ∧ valueOf slot = some value := by
  obtain ⟨slot', inside, present⟩ := List.exists_of_findSome?_eq_some found
  obtain ⟨value', read, same⟩ := Option.map_eq_some_iff.mp present
  cases same
  obtain ⟨low, high⟩ := mem_range_iff.mp inside
  exact ⟨low, high, read⟩

theorem of_lastIn {value : Value} (found : lastIn valueOf start stop = some (slot, value)) :
    start ≤ slot ∧ slot < stop ∧ valueOf slot = some value := by
  obtain ⟨slot', inside, present⟩ := List.exists_of_findSome?_eq_some found
  obtain ⟨value', read, same⟩ := Option.map_eq_some_iff.mp present
  cases same
  obtain ⟨low, high⟩ := mem_range_iff.mp (List.mem_reverse.mp inside)
  exact ⟨low, high, read⟩

end Search

/-! ## Searches past a cut -/

/-- What a search over a range that goes past a cut finds: what is settled before the cut, else a
slot after the cut where there is one, and else what is left before it. -/
structure CutAt (cut stop : ℕ) (settled left : Option (ℕ × Value)) (later : Prop)
    (result : Option (ℕ × Value)) : Prop where
  of_settled : ∀ found, settled = some found → result = some found
  of_later : settled = none → later →
    ∃ slot value, result = some (slot, value) ∧ cut ≤ slot ∧ slot < stop
  of_left : settled = none → ¬ later → result = left

section Cut

variable {valueOf : ℕ → Option Value} {low start cut stop : ℕ}

theorem cutAt_lastIn (below : low ≤ cut) (inside : cut ≤ stop) :
    CutAt cut stop none (lastIn valueOf low cut) (AnyIn valueOf cut stop)
      (lastIn valueOf low stop) := by
  rw [lastIn_split below inside]
  refine ⟨?_, ?_, ?_⟩
  · intro found nothing
    cases nothing
  · intro _ later
    cases found : lastIn valueOf cut stop with
    | none => exact absurd later (lastIn_eq_none.mp found)
    | some item =>
      obtain ⟨from_, before, -⟩ := of_lastIn found
      exact ⟨item.1, item.2, rfl, from_, before⟩
  · intro _ none_
    rw [lastIn_eq_none.mpr none_, Option.none_or]

theorem firstIn_of_le (empty : stop ≤ start) : firstIn valueOf start stop = none := by
  rw [firstIn_eq_none]
  rintro ⟨slot, low, high, -⟩
  omega

theorem cutAt_firstIn (below : low ≤ cut) (inside : cut ≤ stop) :
    CutAt cut stop (firstIn valueOf start cut) (lastIn valueOf low cut) (AnyIn valueOf cut stop)
      ((firstIn valueOf start stop).or (lastIn valueOf low stop)) := by
  have last : CutAt cut stop none (lastIn valueOf low cut) (AnyIn valueOf cut stop)
      (lastIn valueOf low stop) := cutAt_lastIn below inside
  by_cases early : start ≤ cut
  · rw [firstIn_split early inside]
    refine ⟨?_, ?_, ?_⟩
    · intro found settled
      rw [settled, Option.some_or, Option.some_or]
    · intro unsettled later
      rw [unsettled, Option.none_or]
      cases found : firstIn valueOf cut stop with
      | none => exact absurd later (firstIn_eq_none.mp found)
      | some item =>
        obtain ⟨from_, before, -⟩ := of_firstIn found
        exact ⟨item.1, item.2, rfl, from_, before⟩
    · intro unsettled none_
      rw [unsettled, Option.none_or, firstIn_eq_none.mpr none_, Option.none_or]
      exact last.of_left rfl none_
  · have unsettled : firstIn valueOf start cut = none := firstIn_of_le (by omega)
    rw [unsettled]
    refine ⟨?_, ?_, ?_⟩
    · intro found nothing
      cases nothing
    · intro _ later
      cases found : firstIn valueOf start stop with
      | none => exact last.of_later rfl later
      | some item =>
        obtain ⟨from_, before, -⟩ := of_firstIn found
        exact ⟨item.1, item.2, rfl, by omega, before⟩
    · intro _ none_
      have nothing : firstIn valueOf start stop = none := by
        rw [firstIn_eq_none]
        rintro ⟨slot, from_, before, present⟩
        exact none_ ⟨slot, by omega, before, present⟩
      rw [nothing, Option.none_or]
      exact last.of_left rfl none_

theorem CutAt.after {first settled left result : Option (ℕ × Value)} {later : Prop}
    (rest : CutAt cut stop settled left later result) :
    CutAt cut stop (first.or settled) left later (first.or result) := by
  cases first with
  | none => simpa only [Option.none_or] using rest
  | some item =>
    refine ⟨?_, ?_, ?_⟩
    · intro found same
      exact same
    · intro nothing
      cases nothing
    · intro nothing
      cases nothing

end Cut

end TreeOptions.SlotSearch
