import Mathlib.Algebra.BigOperators.Group.List.Basic
import Mathlib.Data.List.Nodup
import Mathlib.Tactic.Abel

/-!
# Dictionaries with a default

A dictionary has finitely many keys, in the order of their first use, and reads the
default at every other key. `set` changes one value. A sum over the values changes by
the difference of the two values (`sum_set`), as long as the default counts for
nothing.
-/

set_option autoImplicit false

namespace TreeOptions

universe u v w

structure DefaultDict (Key : Type u) {Value : Type v} (default' : Value) where
  keys : List Key
  get : Key → Value
  unique : keys.Nodup
  absent : ∀ key, key ∉ keys → get key = default'

namespace DefaultDict

variable {Key : Type u} {Value : Type v} {default' : Value}

def empty : DefaultDict Key default' :=
  ⟨[], fun _ => default', List.nodup_nil, fun _ _ => rfl⟩

section Keys

variable [DecidableEq Key]

def set (dict : DefaultDict Key default') (key : Key) (value : Value) :
    DefaultDict Key default' where
  keys := if key ∈ dict.keys then dict.keys else dict.keys ++ [key]
  get := Function.update dict.get key value
  unique := by
    split
    case isTrue => exact dict.unique
    case isFalse fresh =>
      rw [← List.concat_eq_append]
      exact dict.unique.concat fresh
  absent other := by
    split
    case isTrue known =>
      intro absent
      rw [Function.update_of_ne (by rintro rfl; exact absent known), dict.absent other absent]
    case isFalse =>
      intro absent
      rw [List.mem_append, List.mem_singleton, not_or] at absent
      rw [Function.update_of_ne absent.2, dict.absent other absent.1]

@[simp] theorem get_set_self (dict : DefaultDict Key default') (key : Key) (value : Value) :
    (dict.set key value).get key = value :=
  Function.update_self ..

theorem mem_keys_set {dict : DefaultDict Key default'} {key other : Key} {value : Value} :
    other ∈ (dict.set key value).keys ↔ other = key ∨ other ∈ dict.keys := by
  by_cases known : key ∈ dict.keys
  · have keys : (dict.set key value).keys = dict.keys := if_pos known
    rw [keys]
    constructor
    · exact .inr
    · rintro (rfl | member)
      · exact known
      · exact member
  · have keys : (dict.set key value).keys = dict.keys ++ [key] := if_neg known
    rw [keys, List.mem_append, List.mem_singleton, or_comm]

theorem get_set_of_ne (dict : DefaultDict Key default') {key other : Key} (ne : other ≠ key)
    (value : Value) : (dict.set key value).get other = dict.get other :=
  Function.update_of_ne ne ..

/-! ## Dictionaries that are filled item by item -/

section Folds

variable {Item : Type w}

theorem mem_keys_foldl (key : Item → Key) (value : DefaultDict Key default' → Item → Value)
    {items : List Item} {dict : DefaultDict Key default'} {k : Key} :
    k ∈ (items.foldl (fun dict item => dict.set (key item) (value dict item)) dict).keys ↔
      k ∈ dict.keys ∨ ∃ item ∈ items, key item = k := by
  induction items generalizing dict with
  | nil => simp
  | cons item rest ih =>
    rw [List.foldl_cons, ih, mem_keys_set, List.exists_mem_cons_iff]
    constructor
    · rintro ((rfl | known) | later)
      · exact .inr (.inl rfl)
      · exact .inl known
      · exact .inr (.inr later)
    · rintro (known | rfl | later)
      · exact .inl (.inr known)
      · exact .inl (.inl rfl)
      · exact .inr later

/-- **Where each item adds to the value of its key, the value is a sum over the items of the key.** -/
theorem get_foldl_add {Amount : Type v} [AddCommMonoid Amount] {default' : Amount}
    (key : Item → Key) (amount : Item → Amount) (items : List Item)
    (dict : DefaultDict Key default') (k : Key) :
    (items.foldl (fun dict item => dict.set (key item) (dict.get (key item) + amount item))
        dict).get k =
      dict.get k + ((items.filter fun item => key item = k).map amount).sum := by
  induction items generalizing dict with
  | nil => simp
  | cons item rest ih =>
    rw [List.foldl_cons, ih]
    by_cases same : key item = k
    · subst same
      rw [get_set_self, List.filter_cons_of_pos (by simp), List.map_cons, List.sum_cons,
        add_assoc]
    · rw [get_set_of_ne _ (Ne.symm same), List.filter_cons_of_neg (by simpa using same)]

/-- **Where each item sets the value of its key, the last item of the key decides.** -/
theorem get_foldl_last (key : Item → Key) (value : Item → Value) (items : List Item)
    (dict : DefaultDict Key default') (k : Key) :
    (items.foldl (fun dict item => dict.set (key item) (value item)) dict).get k =
      (((items.filter fun item => key item = k).getLast?).map value).getD (dict.get k) := by
  induction items generalizing dict with
  | nil => rfl
  | cons item rest ih =>
    rw [List.foldl_cons, ih]
    by_cases same : key item = k
    · subst same
      rw [get_set_self, List.filter_cons_of_pos (by simp)]
      cases others : (rest.filter fun other => decide (key other = key item)).getLast? with
      | none =>
        rw [List.getLast?_eq_none_iff.mp others]
        rfl
      | some last =>
        have nonempty : rest.filter (fun other => decide (key other = key item)) ≠ [] := by
          intro nothing
          rw [nothing] at others
          cases others
        rw [List.getLast?_cons_of_ne_nil nonempty, others]
        rfl
    · rw [get_set_of_ne _ (Ne.symm same), List.filter_cons_of_neg (by simpa using same)]

end Folds

end Keys

/-! ## Sums -/

variable {Amount : Type w} [AddCommGroup Amount]

def sum (dict : DefaultDict Key default') (amount : Value → Amount) : Amount :=
  (dict.keys.map fun key => amount (dict.get key)).sum

/-- The sum over the keys and their values. -/
def sumOver (dict : DefaultDict Key default') (amount : Key → Value → Amount) : Amount :=
  (dict.keys.map fun key => amount key (dict.get key)).sum

/-- Change one summand of a list without repetitions. -/
theorem sum_map_update [DecidableEq Key] {keys : List Key} (unique : keys.Nodup) {key : Key}
    (known : key ∈ keys) (get : Key → Value) (value : Value) (amount : Key → Value → Amount) :
    (keys.map fun other => amount other (Function.update get key value other)).sum =
      (keys.map fun other => amount other (get other)).sum - amount key (get key) +
        amount key value := by
  induction keys with
  | nil => cases known
  | cons first rest ih =>
    obtain ⟨fresh, unique'⟩ := List.nodup_cons.mp unique
    rw [List.map_cons, List.sum_cons, List.map_cons, List.sum_cons]
    rcases List.mem_cons.mp known with rfl | later
    · have unchanged :
          (rest.map fun other => amount other (Function.update get key value other)) =
            rest.map fun other => amount other (get other) := by
        refine List.map_congr_left ?_
        intro other member
        rw [Function.update_of_ne (by rintro rfl; exact fresh member)]
      rw [unchanged, Function.update_self]
      abel
    · have ne : first ≠ key := by
        rintro rfl
        exact fresh later
      rw [ih unique' later, Function.update_of_ne ne]
      abel

/-- **A sum over keys and values changes by the difference of the two values.** -/
theorem sumOver_set [DecidableEq Key] (dict : DefaultDict Key default') (key : Key)
    (value : Value) {amount : Key → Value → Amount} (nothing : amount key default' = 0) :
    (dict.set key value).sumOver amount =
      dict.sumOver amount - amount key (dict.get key) + amount key value := by
  by_cases known : key ∈ dict.keys
  · have keys : (dict.set key value).keys = dict.keys := if_pos known
    rw [sumOver, keys]
    exact sum_map_update dict.unique known dict.get value amount
  · have keys : (dict.set key value).keys = dict.keys ++ [key] := if_neg known
    have unchanged : (dict.keys.map fun other => amount other ((dict.set key value).get other)) =
        dict.keys.map fun other => amount other (dict.get other) := by
      refine List.map_congr_left ?_
      intro other member
      rw [get_set_of_ne _ (by rintro rfl; exact known member)]
    rw [sumOver, keys, List.map_append, List.sum_append, unchanged, List.map_singleton,
      List.sum_singleton, get_set_self, dict.absent key known, nothing, sub_zero, sumOver]

/-- **A sum changes by the difference of the two values.** -/
theorem sum_set [DecidableEq Key] (dict : DefaultDict Key default') (key : Key) (value : Value)
    {amount : Value → Amount} (nothing : amount default' = 0) :
    (dict.set key value).sum amount = dict.sum amount - amount (dict.get key) + amount value :=
  dict.sumOver_set key value nothing

theorem sum_eq_zero (dict : DefaultDict Key default') {amount : Value → Amount}
    (nothing : ∀ key, amount (dict.get key) = 0) : dict.sum amount = 0 := by
  rw [sum, List.sum_eq_zero]
  intro summand member
  obtain ⟨key, -, rfl⟩ := List.mem_map.mp member
  exact nothing key

end DefaultDict

end TreeOptions
