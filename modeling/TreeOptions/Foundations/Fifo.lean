import Mathlib.Algebra.BigOperators.Group.List.Basic
import Mathlib.Algebra.Group.Submonoid.Membership
import Mathlib.Algebra.GroupWithZero.Nat

/-!
# First in, first out

A queue of parcels, each of so many units of one worth. `take` removes units from the
front and says what they were worth. Nothing is lost: the units removed and the units
left make up the queue, and so do their worths (`take_units`, `take_worth`).
-/

set_option autoImplicit false

namespace TreeOptions.Fifo

universe u

variable {Amount : Type u} [AddCommMonoid Amount]

/-- Parcels in the order of their arrival: how many units, and the worth of each. -/
abbrev Queue (Amount : Type u) :=
  List (ℕ × Amount)

def units (queue : Queue Amount) : ℕ :=
  (queue.map Prod.fst).sum

def worth (queue : Queue Amount) : Amount :=
  (queue.map fun parcel => parcel.1 • parcel.2).sum

omit [AddCommMonoid Amount] in
@[simp] theorem units_cons (parcel : ℕ × Amount) (queue : Queue Amount) :
    units (parcel :: queue) = parcel.1 + units queue := by
  rw [units, List.map_cons, List.sum_cons, units]

@[simp] theorem worth_cons (parcel : ℕ × Amount) (queue : Queue Amount) :
    worth (parcel :: queue) = parcel.1 • parcel.2 + worth queue := by
  rw [worth, List.map_cons, List.sum_cons, worth]

/-- Remove units from the front; what they were worth, and the queue that is left. -/
def take : Queue Amount → ℕ → Amount × Queue Amount
  | queue, 0 => (0, queue)
  | [], _ + 1 => (0, [])
  | (held, each) :: rest, wanted + 1 =>
    if wanted + 1 < held then
      ((wanted + 1) • each, (held - (wanted + 1), each) :: rest)
    else
      let (removed, left) := take rest (wanted + 1 - held)
      (held • each + removed, left)

@[simp] theorem take_zero (queue : Queue Amount) : take queue 0 = (0, queue) := by
  cases queue <;> rfl

variable {wanted : ℕ}

theorem take_of_lt {held : ℕ} (enough : wanted < held) (each : Amount) (rest : Queue Amount) :
    take ((held, each) :: rest) wanted = (wanted • each, (held - wanted, each) :: rest) := by
  cases wanted with
  | zero => rw [take_zero, zero_nsmul, Nat.sub_zero]
  | succ wanted => rw [take, if_pos enough]

theorem take_of_le {held : ℕ} (short : held ≤ wanted) (some' : 0 < wanted) (each : Amount)
    (rest : Queue Amount) :
    take ((held, each) :: rest) wanted =
      (held • each + (take rest (wanted - held)).1, (take rest (wanted - held)).2) := by
  cases wanted with
  | zero => exact absurd some' (Nat.lt_irrefl 0)
  | succ wanted => rw [take, if_neg (Nat.not_lt.mpr short)]

variable {queue : Queue Amount}

/-- **The units removed and the units left make up the queue.** -/
theorem take_units (held : wanted ≤ units queue) :
    units (take queue wanted).2 + wanted = units queue := by
  induction queue generalizing wanted with
  | nil =>
    obtain rfl := Nat.le_zero.mp held
    rfl
  | cons parcel rest ih =>
    obtain ⟨size, each⟩ := parcel
    rw [units_cons] at held
    rcases Nat.lt_or_ge wanted size with enough | short
    · rw [take_of_lt enough, units_cons, units_cons]
      omega
    · rcases Nat.eq_zero_or_pos wanted with rfl | some'
      · rw [take_zero, Nat.add_zero]
      · have left : units (take rest (wanted - size)).2 + (wanted - size) = units rest :=
          ih (by omega)
        rw [take_of_le short some', units_cons]
        dsimp only
        omega

/-- **What was removed and what is left are worth as much as the queue.** -/
theorem take_worth (held : wanted ≤ units queue) :
    (take queue wanted).1 + worth (take queue wanted).2 = worth queue := by
  induction queue generalizing wanted with
  | nil =>
    obtain rfl := Nat.le_zero.mp held
    exact zero_add _
  | cons parcel rest ih =>
    obtain ⟨size, each⟩ := parcel
    rw [units_cons] at held
    rcases Nat.lt_or_ge wanted size with enough | short
    · have split : wanted + (size - wanted) = size := Nat.add_sub_cancel' (Nat.le_of_lt enough)
      rw [take_of_lt enough, worth_cons, worth_cons, ← add_assoc, ← add_nsmul, split]
    · rcases Nat.eq_zero_or_pos wanted with rfl | some'
      · rw [take_zero, zero_add]
      · have left : (take rest (wanted - size)).1 + worth (take rest (wanted - size)).2 =
            worth rest :=
          ih (by omega)
        rw [take_of_le short some', worth_cons, add_assoc, left]

theorem take_mem (worths : AddSubmonoid Amount) (each : ∀ parcel ∈ queue, parcel.2 ∈ worths)
    (wanted : ℕ) : (take queue wanted).1 ∈ worths := by
  induction queue generalizing wanted with
  | nil => cases wanted <;> exact worths.zero_mem
  | cons parcel rest ih =>
    obtain ⟨size, unit⟩ := parcel
    obtain ⟨first, later⟩ := List.forall_mem_cons.mp each
    rcases Nat.lt_or_ge wanted size with enough | short
    · rw [take_of_lt enough]
      exact worths.nsmul_mem first wanted
    · rcases Nat.eq_zero_or_pos wanted with rfl | some'
      · rw [take_zero]
        exact worths.zero_mem
      · rw [take_of_le short some']
        exact worths.add_mem (worths.nsmul_mem first size) (ih later (wanted - size))

end TreeOptions.Fifo
