import Mathlib.Tactic.Common

/-!
# Systems that take one step after another

A system has initial states and a partial step: an action that is not enabled in
a state has no result. Several parties on one shared state are one system whose
actions name the party, so an interleaving of their calls is a list of actions.

A run may be restricted to steps that meet a condition on the state before the
step (`ReachableUnder`); with no condition it is a run of the system
(`Reachable`). What holds initially and is kept by every allowed step holds of
every state such a run reaches (`ReachableUnder.invariant`). What relates the two
ends of a step, and is reflexive and transitive, relates the two ends of a run
(`Leads.relates`), also of a restricted one (`LeadsUnder.relates`).
-/

set_option autoImplicit false

namespace TreeOptions

universe u v

/-- A system: where it starts, and what an enabled action does. -/
structure System (State : Type u) (Action : Type v) where
  Initial : State → Prop
  step : State → Action → Option State

namespace System

variable {State : Type u} {Action : Type v} (system : System State Action)

/-- The states of the runs whose steps all meet a condition. -/
inductive ReachableUnder (allowed : State → Action → Prop) : State → Prop where
  | initial {state : State} (starts : system.Initial state) : ReachableUnder allowed state
  | step {state next : State} {action : Action} (before : ReachableUnder allowed state)
      (meets : allowed state action) (taken : system.step state action = some next) :
      ReachableUnder allowed next

/-- The states of all runs. -/
def Reachable : State → Prop :=
  system.ReachableUnder fun _ _ => True

/-- A run from one state to another. -/
inductive Leads (first : State) : State → Prop where
  | refl : Leads first first
  | step {state next : State} {action : Action} (before : Leads first state)
      (taken : system.step state action = some next) : Leads first next

/-- A run from one state to another whose steps all meet a condition. -/
inductive LeadsUnder (allowed : State → Action → Prop) (first : State) : State → Prop where
  | refl : LeadsUnder allowed first first
  | step {state next : State} {action : Action} (before : LeadsUnder allowed first state)
      (meets : allowed state action) (taken : system.step state action = some next) :
      LeadsUnder allowed first next

/-- Take the actions in order. -/
def run (state : State) : List Action → Option State
  | [] => some state
  | action :: rest => (system.step state action).bind fun next => run next rest

theorem run_append (state : State) (first second : List Action) :
    system.run state (first ++ second) =
      (system.run state first).bind fun next => system.run next second := by
  induction first generalizing state with
  | nil => rfl
  | cons action rest ih =>
    rw [List.cons_append, run, run, Option.bind_assoc]
    exact Option.bind_congr fun next _ => ih next

variable {system} {allowed : State → Action → Prop}

/-- **What holds initially and is kept by every allowed step holds of every state
a run of allowed steps reaches.** -/
theorem ReachableUnder.invariant {holds : State → Prop}
    (initially : ∀ state, system.Initial state → holds state)
    (kept : ∀ state action next, holds state → allowed state action →
      system.step state action = some next → holds next) {state : State}
    (reached : system.ReachableUnder allowed state) : holds state := by
  induction reached with
  | initial starts => exact initially _ starts
  | step before meets taken ih => exact kept _ _ _ ih meets taken

theorem Reachable.invariant {holds : State → Prop}
    (initially : ∀ state, system.Initial state → holds state)
    (kept : ∀ state action next, holds state →
      system.step state action = some next → holds next)
    {state : State} (reached : system.Reachable state) : holds state :=
  ReachableUnder.invariant initially
    (fun state action next before _ taken => kept state action next before taken) reached

theorem Reachable.next {state next : State} {action : Action}
    (reached : system.Reachable state) (taken : system.step state action = some next) :
    system.Reachable next :=
  .step reached trivial taken

theorem ReachableUnder.run {state last : State} {actions : List Action}
    (reached : system.ReachableUnder allowed state)
    (meets : ∀ action ∈ actions, ∀ state, allowed state action)
    (taken : system.run state actions = some last) : system.ReachableUnder allowed last := by
  induction actions generalizing state with
  | nil =>
    cases taken
    exact reached
  | cons action rest ih =>
    obtain ⟨next, first, tail⟩ := Option.bind_eq_some_iff.mp taken
    exact ih (.step reached (meets action List.mem_cons_self state) first)
      (List.forall_mem_cons.mp meets).2 tail

/-- **A reflexive and transitive relation that every step respects holds between
the two ends of a run.** The steps may assume an invariant. -/
theorem Leads.relates (holds : State → Prop) (related : State → State → Prop)
    (refl : ∀ state, related state state)
    (trans : ∀ first second third, related first second → related second third →
      related first third)
    (kept : ∀ state action next, holds state →
      system.step state action = some next → holds next)
    (stepped : ∀ state action next, holds state →
      system.step state action = some next → related state next)
    {first last : State} (start : holds first) (leads : system.Leads first last) :
    holds last ∧ related first last := by
  induction leads with
  | refl => exact ⟨start, refl first⟩
  | step before taken ih =>
    exact ⟨kept _ _ _ ih.1 taken, trans _ _ _ ih.2 (stepped _ _ _ ih.1 taken)⟩

/-- **A reflexive and transitive relation that every allowed step respects holds between
the two ends of a run of allowed steps.** -/
theorem LeadsUnder.relates (related : State → State → Prop) (refl : ∀ state, related state state)
    (trans : ∀ first second third, related first second → related second third →
      related first third) (stepped : ∀ state action next, allowed state action →
      system.step state action = some next → related state next) {first last : State}
    (leads : system.LeadsUnder allowed first last) : related first last := by
  induction leads with
  | refl => exact refl first
  | step before meets taken ih => exact trans _ _ _ ih (stepped _ _ _ meets taken)

end System

end TreeOptions
