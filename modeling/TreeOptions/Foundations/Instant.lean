import Mathlib.Data.Int.Notation
import Mathlib.Tactic.Common

/-!
# Instants

An instant is a number of microseconds since the epoch. `shiftInstant` adds whole seconds
to one and is undefined where the result leaves the years 1 to 9999.
-/

set_option autoImplicit false

namespace TreeOptions

/-- Microseconds in a second. -/
def microseconds : ℤ :=
  1000000

/-- The first instant of year 1. -/
def earliestInstant : ℤ :=
  -62135596800 * microseconds

/-- The last instant of year 9999. -/
def latestInstant : ℤ :=
  253402300800 * microseconds - 1

def shiftInstant (instant seconds : ℤ) : Option ℤ :=
  if earliestInstant ≤ instant + seconds * microseconds ∧
      instant + seconds * microseconds ≤ latestInstant then
    some (instant + seconds * microseconds)
  else none

theorem shiftInstant_eq_some {instant seconds shifted : ℤ} :
    shiftInstant instant seconds = some shifted ↔
      (earliestInstant ≤ shifted ∧ shifted ≤ latestInstant) ∧
        shifted = instant + seconds * microseconds := by
  rw [shiftInstant]
  constructor
  · intro isSome
    split at isSome
    case isTrue inside =>
      cases isSome
      exact ⟨inside, rfl⟩
    case isFalse => cases isSome
  · rintro ⟨inside, rfl⟩
    rw [if_pos inside]

end TreeOptions
